import BoundSql.Postgres.Binary
import BoundSql.Proofs.Except
import BoundSql.Proofs.Number.Conversion

/-!
# Numbers stored in a column

What is read from a column into which a number was written as a parameter
(`Postgres.stored`), for each kind of number and each numeric type.  Bytes of another width
than that of the type are refused; bytes of its width are read as its form, whatever has
written them.
-/

namespace BoundSql

namespace BigEndian

/-- An integer is written in as many bytes as asked for. -/
theorem length_ofInt (width : Nat) (n : Int) : (ofInt width n).length = width :=
  length_ofNat width _

/-- Written and read, an integer comes back modulo what the width holds. -/
theorem toInt_ofInt (width : Nat) (n : Int) :
    toInt (ofInt width n) = Int.bmod n (Nat.pow 256 width) := by
  have hpos : 0 < Nat.pow 256 width := Nat.pow_pos (by decide)
  have hlow : 0 ≤ n % (Nat.pow 256 width : Nat) := Int.emod_nonneg n (by omega)
  have hhigh : n % (Nat.pow 256 width : Nat) < (Nat.pow 256 width : Nat) :=
    Int.emod_lt_of_pos n (by omega)
  have hlt : (n % (Nat.pow 256 width : Nat)).toNat < Nat.pow 256 width := by omega
  rw [toInt, ofInt, length_ofNat, toNat_ofNat, Nat.mod_eq_of_lt hlt, Int.toNat_of_nonneg hlow,
    Int.emod_bmod]

end BigEndian

namespace Postgres

/-- What is read from a column in which a value was stored. -/
def stored (t : ColumnType) (v : Value) : Except RangeFault (Option Value) :=
  (encode t v).map (decode? t)

/-! ## Fixed widths -/

/-- Bytes of the right width are read. -/
theorem exactly?_of_length {width : Nat} {bytes : List UInt8} (h : bytes.length = width) :
    exactly? width bytes = some bytes := if_pos h

/-- An integer is read back from its bytes if it fits in them. -/
theorem integer?_ofInt {width : Nat} {n : Int} (hlow : -(Nat.pow 256 width : Nat) ≤ 2 * n)
    (hhigh : 2 * n < (Nat.pow 256 width : Nat)) :
    integer? width (BigEndian.ofInt width n) = some n := by
  have hbmod : Int.bmod n (Nat.pow 256 width) = n := Int.bmod_eq_of_le (by omega) (by omega)
  rw [integer?, exactly?_of_length (BigEndian.length_ofInt _ _), Option.map_some,
    BigEndian.toInt_ofInt, hbmod]

/-- A natural number is read back from its bytes if it fits in them. -/
theorem natural?_ofNat {width n : Nat} (h : n < Nat.pow 256 width) :
    natural? width (BigEndian.ofNat width n) = some n := by
  rw [natural?, exactly?_of_length (BigEndian.length_ofNat _ _), Option.map_some,
    BigEndian.toNat_ofNat, Nat.mod_eq_of_lt h]

namespace ColumnType

/-- The numeric types. -/
def numeric : List ColumnType := [int2, int4, int8, oid, float4, float8]

/-- The width of a numeric type in bytes. -/
def width? : ColumnType → Option Nat
  | int2 => some 2
  | int4 | oid | float4 => some 4
  | int8 | float8 => some 8
  | _ => none

end ColumnType

/-- A cell with bytes is decoded from its bytes. -/
theorem decode?_bytes (t : ColumnType) (bytes : List UInt8) :
    decode? t (some bytes) = decodeBytes? t bytes := by
  cases t <;> rfl

/-- **Bytes of another width are refused.** -/
theorem decode?_of_width {t : ColumnType} {width : Nat} {bytes : List UInt8}
    (ht : t.width? = some width) (h : bytes.length ≠ width) : decode? t (some bytes) = none := by
  have hexactly : exactly? width bytes = none := if_neg h
  cases t <;> simp only [ColumnType.width?, Option.some.injEq, reduceCtorEq] at ht <;> subst ht <;>
    simp only [decode?, decodeBytes?, integer?, natural?, hexactly, Option.map_none]

/-- What is stored of a value is what its cell is decoded to. -/
theorem stored_of_encode {t : ColumnType} {v : Value} {cell : Cell} (h : encode t v = .ok cell) :
    stored t v = .ok (decode? t cell) := by
  rw [stored, h]
  rfl

/-- A value whose bytes have another width. -/
theorem stored_of_width {t : ColumnType} {v : Value} {width : Nat} {bytes : List UInt8}
    (h : encode t v = .ok (some bytes)) (ht : t.width? = some width) (hne : bytes.length ≠ width) :
    stored t v = .ok none := by
  rw [stored_of_encode h, decode?_of_width ht hne]

/-- An integer that must be in a range. -/
theorem stored_within {t : ColumnType} {v : Value} {r : IntegerType} {width : Nat} {n : Int}
    {w : Option Value} (h : encode t v = encodeWithin r width n)
    (hdecode : r.least ≤ n → n ≤ r.greatest → decode? t (some (BigEndian.ofInt width n)) = w) :
    stored t v = (r.member n).map fun _ => w := by
  rw [stored, h, encodeWithin, IntegerType.member]
  split
  · rfl
  · rename_i hlow
    split
    · rfl
    · rename_i hhigh
      exact congrArg Except.ok (hdecode (Int.not_lt.1 hlow) (Int.not_lt.1 hhigh))

/-! ## Integers -/

variable (n : Int64) (u : UInt64) (d : Double)

/-- An integer that a type of its form and of a sufficient width reads. -/
theorem decode?_ofInt {t : ColumnType} {width : Nat} {n : Int64}
    (ht : ∀ bytes, decodeBytes? t bytes = (integer? width bytes).map (.int <| Int64.ofInt ·))
    (hlow : -(Nat.pow 256 width : Nat) ≤ 2 * n.toInt)
    (hhigh : 2 * n.toInt < (Nat.pow 256 width : Nat)) :
    decode? t (some (BigEndian.ofInt width n.toInt)) = some (.int n) := by
  rw [decode?_bytes, ht, integer?_ofInt hlow hhigh, Option.map_some, Int64.ofInt_toInt]

/-- The type has all integers of a width in two's complement. -/
def Spans (r : IntegerType) (width : Nat) : Prop :=
  2 * r.least = -(Nat.pow 256 width : Nat) ∧ 2 * (r.greatest + 1) = (Nat.pow 256 width : Nat)

/-- An integer in a type that it has to be in the range of. -/
theorem stored_int_within {t : ColumnType} {r : IntegerType} {width : Nat} (hr : Spans r width)
    (hencode : ∀ n : Int64, encode t (.int n) = encodeWithin r width n.toInt)
    (ht : ∀ bytes, decodeBytes? t bytes = (integer? width bytes).map (.int <| Int64.ofInt ·))
    (n : Int64) : stored t (.int n) = (r.member n.toInt).map fun _ => some (.int n) := by
  obtain ⟨hleast, hgreatest⟩ := hr
  refine stored_within (hencode n) fun hlow hhigh => ?_
  exact decode?_ofInt ht (by omega) (by omega)

/-- A column of two bytes stores the integers within its range. -/
theorem stored_int_int2 :
    stored .int2 (.int n) = (IntegerType.int16.member n.toInt).map fun _ => some (.int n) :=
  stored_int_within ⟨rfl, rfl⟩ (fun _ => rfl) (fun _ => rfl) n

/-- A column of four bytes stores the integers within its range. -/
theorem stored_int_int4 :
    stored .int4 (.int n) = (IntegerType.int32.member n.toInt).map fun _ => some (.int n) :=
  stored_int_within ⟨rfl, rfl⟩ (fun _ => rfl) (fun _ => rfl) n

/-- A column of eight bytes stores every signed integer. -/
theorem stored_int_int8 : stored .int8 (.int n) = .ok (some (.int n)) := by
  have hwidth : Nat.pow 256 8 = 18446744073709551616 := rfl
  have hlow := n.le_toInt
  have hhigh := n.toInt_lt
  rw [stored_of_encode rfl, decode?_ofInt (fun _ => rfl) (by omega) (by omega)]

/-- The same pattern as a signed word. -/
theorem toInt_toInt64 : u.toInt64.toInt = Int.bmod u.toNat (Nat.pow 256 8) :=
  BitVec.toInt_eq_toNat_bmod u.toBitVec

/-- Where the sign bit is not set, this is the same number. -/
theorem toInt_toInt64_of_le {u : UInt64} (h : (u.toNat : Int) ≤ IntegerType.int64.greatest) :
    u.toInt64.toInt = u.toNat := by
  have hwidth : Nat.pow 256 8 = 18446744073709551616 := rfl
  simp only [IntegerType.int64] at h
  rw [toInt_toInt64]
  exact Int.bmod_eq_of_le (by omega) (by omega)

/-- Eight bytes are decoded to the integer that they were written for. -/
theorem decode?_int8 (n : Int64) :
    decode? .int8 (some (BigEndian.ofInt 8 n.toInt)) = some (.int n) :=
  Except.ok.inj (stored_int_int8 n)

/-- A column of eight bytes stores the unsigned integers within its range, as signed ones. -/
theorem stored_uint_int8 : stored .int8 (.uint u) =
    (IntegerType.int64.member u.toNat).map fun _ => some (.int u.toInt64) := by
  refine stored_within rfl fun _ hhigh => ?_
  rw [← toInt_toInt64_of_le hhigh]
  exact decode?_int8 u.toInt64

/-! ## Floats -/

/-- A column of singles stores a double as the nearest single. -/
theorem stored_float_float4 :
    stored .float4 (.float d) = .ok (some (.float d.toSingle.toDouble)) := by
  have hread : natural? 4 (BigEndian.ofNat 4 d.toSingle.bits.toNat) = some d.toSingle.bits.toNat :=
    natural?_ofNat d.toSingle.bits.toNat_lt
  rw [stored_of_encode rfl, decode?_bytes, decodeBytes?, hread, Option.map_some,
    UInt32.ofNat_toNat]

/-- A column of doubles stores a double as it is. -/
theorem stored_float_float8 : stored .float8 (.float d) = .ok (some (.float d)) := by
  have hread : natural? 8 (BigEndian.ofNat 8 d.bits.toNat) = some d.bits.toNat :=
    natural?_ofNat d.bits.toNat_lt
  rw [stored_of_encode rfl, decode?_bytes, decodeBytes?, hread, Option.map_some,
    UInt64.ofNat_toNat]

/-! ## Bytes of one form read as the other -/

/-- The bytes of a word do not tell a signed one from an unsigned one. -/
theorem ofInt_toInt : BigEndian.ofInt 8 n.toInt = BigEndian.ofNat 8 n.toUInt64.toNat := by
  have hwidth : Nat.pow 256 8 = Nat.pow 2 64 := rfl
  have hword : n.toInt % (Nat.pow 256 8 : Nat) = n.toUInt64.toNat := by
    have h := toInt_toInt64 n.toUInt64
    rw [Int64.toInt64_toUInt64] at h
    rw [h, Int.bmod_emod]
    exact Int.emod_eq_of_lt (Int.natCast_nonneg _) (by exact_mod_cast n.toUInt64.toNat_lt)
  rw [BigEndian.ofInt, hword, Int.toNat_natCast]

/-- Eight bytes are decoded to the double of these bits. -/
theorem decode?_float8 (bits : UInt64) :
    decode? .float8 (some (BigEndian.ofNat 8 bits.toNat)) = some (.float ⟨bits⟩) :=
  Except.ok.inj (stored_float_float8 ⟨bits⟩)

/-- A column of doubles takes the bits of a signed integer for those of a double. -/
theorem stored_int_float8 : stored .float8 (.int n) = .ok (some (.float ⟨n.toUInt64⟩)) := by
  rw [stored_of_encode rfl, ofInt_toInt, decode?_float8]

/-- A column of doubles takes the bits of an unsigned integer for those of a double. -/
theorem stored_uint_float8 : stored .float8 (.uint u) =
    (IntegerType.int64.member u.toNat).map fun _ => some (.float ⟨u⟩) := by
  refine stored_within rfl fun _ hhigh => ?_
  have hbytes := ofInt_toInt u.toInt64
  rw [toInt_toInt64_of_le hhigh, UInt64.toUInt64_toInt64] at hbytes
  rw [hbytes, decode?_float8]

/-- An integer column of eight bytes takes the bits of a double for those of an integer. -/
theorem stored_float_int8 : stored .int8 (.float d) = .ok (some (.int d.bits.toInt64)) := by
  have hbytes := ofInt_toInt d.bits.toInt64
  rw [UInt64.toUInt64_toInt64] at hbytes
  rw [stored_of_encode rfl, ← hbytes, decode?_int8]

end Postgres

end BoundSql
