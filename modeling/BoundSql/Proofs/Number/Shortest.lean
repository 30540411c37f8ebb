import BoundSql.Number.Shortest

/-!
# Digits of shortest decimals

A magnitude that is not zero is more than twice the part of its unit that lies below it in
its rounding interval, so zero never lies in this interval, and the shortest decimal of the
magnitude has a digit that is not zero.
-/

namespace BoundSql

namespace BinaryFormat

variable {f : BinaryFormat} {mantissa : Nat} {exponent : Int}

/-- A grid point that rounds to a positive number is positive. -/
theorem ne_zero_of_gridPoint? {place : Int} {point : Nat} (hm : mantissa ≠ 0)
    (h : f.gridPoint? mantissa exponent place = some point) : point ≠ 0 := by
  unfold gridPoint? at h
  extract_lets quarter step unit value below low high inside down up at h
  have hunit : 0 < unit := Nat.mul_pos (Nat.pow_pos (by decide)) (Nat.pow_pos (by decide))
  have hbelow : below ≤ 2 := by
    unfold below
    split <;> decide
  have hlow : 0 < low := by
    have hvalue : 4 * unit ≤ value := Nat.mul_le_mul_right unit (by omega)
    have hhalf : below * unit ≤ 2 * unit := Nat.mul_le_mul_right unit hbelow
    show 0 < value - below * unit
    omega
  have hhigh : 0 < high := Nat.add_pos_right value (Nat.mul_pos (by decide) hunit)
  have hzero : inside 0 = false := by
    have hne : (low == 0) = false := by simp; omega
    have hne' : (0 == high) = false := by simp; omega
    simp [inside, hne, hne']
  have hinside : ∀ point, inside point = true → point ≠ 0 := by
    rintro point hpoint rfl
    rw [hzero] at hpoint
    exact Bool.false_ne_true hpoint
  split at h
  · rename_i hdown hup
    obtain rfl := Option.some.inj h
    have hdown := hinside down hdown
    have hup := hinside up hup
    split
    · exact hdown
    · split
      · exact hup
      · omega
  · rename_i hdown _
    obtain rfl := Option.some.inj h
    exact hinside down hdown
  · rename_i _ hup
    obtain rfl := Option.some.inj h
    exact hinside up hup
  · exact absurd h (by simp)

/-- The digits of a number other than zero are not all zero. -/
theorem digits_shortestFrom_ne_zero (hm : mantissa ≠ 0) (top : Int) (count room : Nat) :
    (f.shortestFrom mantissa exponent top count room).digits ≠ 0 := by
  induction room generalizing count with
  | zero => exact hm
  | succ room ih =>
      rw [shortestFrom]
      split
      · rename_i point hpoint
        split
        · exact Nat.one_ne_zero
        · exact ne_zero_of_gridPoint? hm hpoint
      · exact ih (count + 1)

/-- **The shortest decimal of a positive magnitude is positive.** -/
theorem digits_shortest_ne_zero {magnitude : Nat} (h : magnitude ≠ 0) :
    (f.shortest magnitude).digits ≠ 0 := by
  have hm : (f.parts magnitude).1 ≠ 0 := by
    unfold parts
    extract_lets field fraction
    split
    · rename_i hfield
      have hdivided := Nat.div_add_mod magnitude (Nat.pow 2 f.fractionBits)
      show magnitude % Nat.pow 2 f.fractionBits ≠ 0
      intro hfraction
      rw [show magnitude / Nat.pow 2 f.fractionBits = 0 from hfield, hfraction] at hdivided
      exact h (by simpa using hdivided.symm)
    · exact Nat.ne_of_gt (Nat.add_pos_right _ (Nat.pow_pos (by decide)))
  exact digits_shortestFrom_ne_zero hm _ 1 17

end BinaryFormat

end BoundSql
