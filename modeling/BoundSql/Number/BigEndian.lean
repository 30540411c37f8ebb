/-!
# Big-endian bytes

Numbers as bytes of a fixed width, the most significant byte first; integers in
two's complement.
-/

namespace BoundSql.BigEndian

/-- The low bytes of a number, `width` of them. -/
def ofNat : Nat → Nat → List UInt8
  | 0, _ => []
  | width + 1, n => ofNat width (n / 256) ++ [UInt8.ofNat (n % 256)]

/-- The number that bytes write. -/
def toNat (bytes : List UInt8) : Nat := bytes.foldl (fun n b => 256 * n + b.toNat) 0

/-- The low bytes of an integer in two's complement, `width` of them. -/
def ofInt (width : Nat) (n : Int) : List UInt8 := ofNat width (n % Nat.pow 256 width).toNat

/-- The integer that bytes write in two's complement. -/
def toInt (bytes : List UInt8) : Int := Int.bmod (toNat bytes) (Nat.pow 256 bytes.length)

/-- A number is written in as many bytes as asked for. -/
theorem length_ofNat (width n : Nat) : (ofNat width n).length = width := by
  induction width generalizing n with
  | zero => rfl
  | succ width ih => simp [ofNat, ih]

/-- One more byte multiplies the number by 256 and is added. -/
theorem toNat_append_byte (bytes : List UInt8) (b : UInt8) :
    toNat (bytes ++ [b]) = 256 * toNat bytes + b.toNat := by
  simp [toNat, List.foldl_append]

/-- Written and read, a number comes back modulo what the width holds. -/
theorem toNat_ofNat (width n : Nat) : toNat (ofNat width n) = n % Nat.pow 256 width := by
  induction width generalizing n with
  | zero => simp [ofNat, toNat, Nat.mod_one]
  | succ width ih =>
    have h : (UInt8.ofNat (n % 256)).toNat = n % 256 := by simp
    have wider : Nat.pow 256 (width + 1) = 256 * Nat.pow 256 width := Nat.pow_succ'
    rw [ofNat, toNat_append_byte, ih, h, wider, Nat.mod_mul]
    omega

end BoundSql.BigEndian
