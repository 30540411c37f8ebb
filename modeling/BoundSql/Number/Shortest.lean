import BoundSql.Number.Binary

/-!
# Shortest decimals

The decimal with the fewest digits that still rounds to a given magnitude of a
binary format, and of those the one nearest to it.  The search walks the grids
of one digit, two digits, and so on; on each it tests the two grid points around
the number, since a grid with any point in the rounding interval has one of
these two in it.
-/

namespace BoundSql

/-- The number `digits * 10 ^ exponent`. -/
structure Decimal where
  digits : Nat
  exponent : Int
  deriving DecidableEq

namespace BinaryFormat

/-- The largest `k` with `10 ^ k ≤ mantissa * 2 ^ exponent`, for a positive
mantissa below `2 ^ 64` and an exponent above `-2000`. -/
def floorLog10 (mantissa : Nat) (exponent : Int) : Int :=
  let guess := (Nat.log2 mantissa + exponent) * 30103 / 100000
  let next := guess + 1
  if Nat.pow 10 next.toNat * Nat.pow 2 (-exponent).toNat ≤
      mantissa * Nat.pow 2 exponent.toNat * Nat.pow 10 (-next).toNat
  then next else guess

/-- The grid point of spacing `10 ^ place` that is nearest to a magnitude among
those that round to it, with `mantissa * 2 ^ exponent` the magnitude's value.
All quantities are counted in quarters of the magnitude's unit; the lower half
of the interval is one quarter at a power of two and two quarters elsewhere, and
the ends belong to it for an even mantissa. -/
def gridPoint? (f : BinaryFormat) (mantissa : Nat) (exponent place : Int) : Option Nat :=
  let quarter := exponent - 2
  let step := Nat.pow 10 place.toNat * Nat.pow 2 (-quarter).toNat
  let unit := Nat.pow 2 quarter.toNat * Nat.pow 10 (-place).toNat
  let value := 4 * mantissa * unit
  let below := if mantissa = Nat.pow 2 f.fractionBits && f.minExponent < exponent then 1 else 2
  let low := value - below * unit
  let high := value + 2 * unit
  let inside (point : Nat) : Bool :=
    (low < point * step && point * step < high) ||
      (mantissa % 2 == 0 && (low == point * step || point * step == high))
  let down := value / step
  let up := down + 1
  match inside down, inside up with
  | true, true =>
    let fromDown := value - down * step
    let toUp := up * step - value
    some (if fromDown < toUp then down else if toUp < fromDown then up else down + down % 2)
  | true, false => some down
  | false, true => some up
  | false, false => none

/-- Tries the grids of `count` digits and more, at most `room` of them.  A grid
point that carries into another digit is a power of ten and is written as such. -/
def shortestFrom (f : BinaryFormat) (mantissa : Nat) (exponent top : Int) :
    Nat → Nat → Decimal
  | _, 0 => ⟨mantissa, exponent⟩
  | count, room + 1 =>
    let place := top - count + 1
    match f.gridPoint? mantissa exponent place with
    | some point => if point = Nat.pow 10 count then ⟨1, place + count⟩ else ⟨point, place⟩
    | none => shortestFrom f mantissa exponent top (count + 1) room

/-- The shortest decimal of a positive finite magnitude: seventeen digits always
suffice for a double. -/
def shortest (f : BinaryFormat) (magnitude : Nat) : Decimal :=
  let (mantissa, exponent) := f.parts magnitude
  f.shortestFrom mantissa exponent (floorLog10 mantissa exponent) 1 17

end BinaryFormat

end BoundSql
