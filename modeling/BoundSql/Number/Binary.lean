/-!
# Binary floating-point numbers

The interchange formats of 32 and 64 bits as bit patterns with exact integer
arithmetic beside them:

| format | fraction bits | exponent bits | unit of the subnormals |
| --- | ---: | ---: | ---: |
| single | 23 | 8 | `2 ^ -149` |
| double | 52 | 11 | `2 ^ -1074` |

A *magnitude* is a pattern without its sign bit.  Magnitudes are ordered like
the numbers they stand for, the infinity comes last, and every pattern after it
is a NaN.  There is one rounding function, `BinaryFormat.round`: the quotient of
two naturals goes to the nearest magnitude, halfway cases to the even one.
-/

namespace BoundSql

/-- The widths of the two fields below the sign bit. -/
structure BinaryFormat where
  /-- Bits of the fraction field. -/
  fractionBits : Nat
  /-- Bits of the exponent field. -/
  exponentBits : Nat

namespace BinaryFormat

def single : BinaryFormat := ⟨23, 8⟩

def double : BinaryFormat := ⟨52, 11⟩

/-- The exponent of the unit in which the subnormals count. -/
def minExponent (f : BinaryFormat) : Int := 2 - Nat.pow 2 (f.exponentBits - 1) - f.fractionBits

/-- The magnitude of the infinity. -/
def infinity (f : BinaryFormat) : Nat := (Nat.pow 2 f.exponentBits - 1) * Nat.pow 2 f.fractionBits

/-- The integer mantissa and the exponent of a finite magnitude: it stands for
`mantissa * 2 ^ exponent`. -/
def parts (f : BinaryFormat) (magnitude : Nat) : Nat × Int :=
  let field := magnitude / Nat.pow 2 f.fractionBits
  let fraction := magnitude % Nat.pow 2 f.fractionBits
  if field = 0 then (fraction, f.minExponent)
  else (fraction + Nat.pow 2 f.fractionBits, f.minExponent + field - 1)

/-- The quotient rounded to the nearest natural, halves to the even one. -/
def nearestEven (num den : Nat) : Nat :=
  let q := num / den
  let r := num % den
  if 2 * r < den then q else if den < 2 * r then q + 1 else q + q % 2

/-- The largest `k` with `2 ^ k ≤ num / den`, for positive arguments. -/
def floorLog2 (num den : Nat) : Int :=
  let k : Int := (Nat.log2 num : Int) - Nat.log2 den
  if den * Nat.pow 2 k.toNat ≤ num * Nat.pow 2 (-k).toNat then k else k - 1

/-- The magnitude nearest to `num / den`.  The spacing of the magnitudes around
the quotient is `2 ^ scale`; counted from the first magnitude with this spacing,
the rounded multiple is the pattern itself, so a carry into the next exponent
needs no case of its own. -/
def round (f : BinaryFormat) (num den : Nat) : Nat :=
  if num = 0 then 0
  else
    let scale := max f.minExponent (floorLog2 num den - f.fractionBits)
    let multiple := nearestEven (num * Nat.pow 2 (-scale).toNat) (den * Nat.pow 2 scale.toNat)
    min f.infinity ((scale - f.minExponent).toNat * Nat.pow 2 f.fractionBits + multiple)

/-- The magnitude nearest to `mantissa * 2 ^ exponent`. -/
def ofParts (f : BinaryFormat) (mantissa : Nat) (exponent : Int) : Nat :=
  f.round (mantissa * Nat.pow 2 exponent.toNat) (Nat.pow 2 (-exponent).toNat)

/-- The magnitude nearest to the product of two finite ones. -/
def mul (f : BinaryFormat) (a b : Nat) : Nat :=
  let (m, i) := f.parts a
  let (n, j) := f.parts b
  f.ofParts (m * n) (i + j)

/-- The magnitude nearest to the quotient of two finite ones, the second not zero. -/
def div (f : BinaryFormat) (a b : Nat) : Nat :=
  let (m, i) := f.parts a
  let (n, j) := f.parts b
  f.round (m * Nat.pow 2 (i - j).toNat) (n * Nat.pow 2 (j - i).toNat)

/-- The magnitude nearest to `mantissa * 10 ^ exponent`.  Exponents so large or
small that the answer is the infinity or zero are settled before any power is
formed. -/
def ofDecimal (f : BinaryFormat) (mantissa : Nat) (exponent : Int) : Nat :=
  let size : Int := (Nat.toDigits 10 mantissa).length
  if mantissa = 0 then 0
  else if 400 < exponent + size then f.infinity
  else if exponent + size < -400 then 0
  else f.round (mantissa * Nat.pow 10 exponent.toNat) (Nat.pow 10 (-exponent).toNat)

end BinaryFormat

/-- A number of the double format, by its pattern. -/
structure Double where
  bits : UInt64
  deriving DecidableEq

/-- A number of the single format, by its pattern. -/
structure Single where
  bits : UInt32
  deriving DecidableEq

namespace Double

/-- The value of the sign bit in a pattern. -/
def signBit : Nat := 0x8000000000000000

/-- The sign bit is set. -/
def isNegative (d : Double) : Bool := signBit ≤ d.bits.toNat

/-- The pattern without its sign bit. -/
def magnitude (d : Double) : Nat := d.bits.toNat % signBit

def isFinite (d : Double) : Bool := d.magnitude < BinaryFormat.double.infinity

def isNaN (d : Double) : Bool := BinaryFormat.double.infinity < d.magnitude

/-- The number with a sign bit and a magnitude. -/
def ofMagnitude (negative : Bool) (magnitude : Nat) : Double :=
  ⟨UInt64.ofNat ((if negative then signBit else 0) + magnitude)⟩

/-- The quiet NaN without a payload. -/
def nan : Double := ⟨0x7FF8000000000000⟩

/-- The double nearest to an integer. -/
def ofInt (n : Int) : Double := ofMagnitude (n < 0) (BinaryFormat.double.round n.natAbs 1)

/-- The double nearest to `± mantissa * 10 ^ exponent`, which may be an infinity. -/
def ofDecimal (negative : Bool) (mantissa : Nat) (exponent : Int) : Double :=
  ofMagnitude negative (BinaryFormat.double.ofDecimal mantissa exponent)

end Double

namespace Single

/-- The value of the sign bit in a pattern. -/
def signBit : Nat := 0x80000000

/-- The sign bit is set. -/
def isNegative (s : Single) : Bool := signBit ≤ s.bits.toNat

/-- The pattern without its sign bit. -/
def magnitude (s : Single) : Nat := s.bits.toNat % signBit

def isNaN (s : Single) : Bool := BinaryFormat.single.infinity < s.magnitude

/-- The number with a sign bit and a magnitude. -/
def ofMagnitude (negative : Bool) (magnitude : Nat) : Single :=
  ⟨UInt32.ofNat ((if negative then signBit else 0) + magnitude)⟩

end Single

/-- The single nearest to a double.  A NaN stays one: it keeps the upper bits of
its payload and becomes quiet. -/
def Double.toSingle (d : Double) : Single :=
  let m := d.magnitude
  Single.ofMagnitude d.isNegative <|
    if m < BinaryFormat.double.infinity then
      let (mantissa, exponent) := BinaryFormat.double.parts m
      BinaryFormat.single.ofParts mantissa exponent
    else if m = BinaryFormat.double.infinity then BinaryFormat.single.infinity
    else BinaryFormat.single.infinity ||| 0x400000 ||| (m % 0x10000000000000 / 0x20000000)

/-- The double of the same value.  A NaN keeps its payload and becomes quiet. -/
def Single.toDouble (s : Single) : Double :=
  let m := s.magnitude
  Double.ofMagnitude s.isNegative <|
    if m < BinaryFormat.single.infinity then
      let (mantissa, exponent) := BinaryFormat.single.parts m
      BinaryFormat.double.ofParts mantissa exponent
    else if m = BinaryFormat.single.infinity then BinaryFormat.double.infinity
    else BinaryFormat.double.infinity ||| 0x8000000000000 ||| (m % 0x800000 * 0x20000000)

end BoundSql
