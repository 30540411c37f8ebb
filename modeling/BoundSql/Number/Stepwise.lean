import BoundSql.Number.Binary
import BoundSql.Text.Digits

/-!
# Decimals read in steps

There are two ways from a decimal to a double.  `Double.ofDecimal` gives the
nearest one.  `Double.ofDigits` calculates with doubles and rounds at each step:

| step | from | to |
| --- | --- | --- |
| 1 | the digits | as many of the first ones as make a natural below `2 ^ 64` |
| 2 | this natural | the nearest double |
| 3 | the power of ten that the point, the exponent and the dropped digits make | the nearest double |
| 4 | these two | the double nearest to their product, or to their quotient |

No rounding happens in the steps 2 and 3 where the natural is at most `2 ^ 53` and
the power at most `10 ^ 22`; there both ways agree.  Elsewhere they may differ in
the last bits.
-/

namespace BoundSql

namespace Stepwise

/-- One more than the largest natural that digits are gathered into. -/
def bound : Nat := 0x10000000000000000

/-- Appends digits to the decimal numeral of `n`, up to the first with which it would
reach the bound; also counts the digits appended. -/
def append (n : Nat) : List Char → Nat × Nat
  | [] => (n, 0)
  | c :: rest =>
    let next := 10 * n + Text.digitValue c
    if next < bound then
      let (m, count) := append next rest
      (m, count + 1)
    else (n, 0)

/-- The largest exponent of a power of ten that is a finite double. -/
def topExponent : Nat := 308

/-- The magnitude nearest to a power of ten. -/
def powerOfTen (exponent : Nat) : Nat := BinaryFormat.double.ofDecimal 1 exponent

/-- A finite magnitude times a power of ten.  Where the divisor would be too large,
the largest one divides first, and what is left of the exponent follows. -/
def scale (magnitude : Nat) (exponent : Int) : Nat :=
  if magnitude = 0 then 0
  else if topExponent < exponent then BinaryFormat.double.infinity
  else if 0 ≤ exponent then BinaryFormat.double.mul magnitude (powerOfTen exponent.toNat)
  else if -topExponent ≤ exponent then
    BinaryFormat.double.div magnitude (powerOfTen (-exponent).toNat)
  else
    scale (BinaryFormat.double.div magnitude (powerOfTen topExponent)) (exponent + topExponent)
termination_by exponent.natAbs
decreasing_by simp only [topExponent] at *; omega

end Stepwise

/-- The double that is calculated from the digits before and after the point and the
exponent of ten.  The digits after the point are appended also where some before it
found no room.  A result too large is an infinity. -/
def Double.ofDigits (negative : Bool) (whole fraction : List Char) (exponent : Int) : Double :=
  let (n, ofWhole) := Stepwise.append 0 whole
  let (n, ofFraction) := Stepwise.append n fraction
  let dropped := whole.length - ofWhole
  ofMagnitude negative <|
    Stepwise.scale (BinaryFormat.double.round n 1) (exponent + dropped - ofFraction)

end BoundSql
