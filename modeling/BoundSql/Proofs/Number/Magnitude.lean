import BoundSql.Number.Binary
import Mathlib.Algebra.Order.Field.Power
import Mathlib.Algebra.Order.Field.Rat
import Mathlib.Tactic.FieldSimp
import Mathlib.Tactic.Linarith
import Mathlib.Tactic.Positivity
import Mathlib.Tactic.Ring

/-!
# What magnitudes stand for

A magnitude has a mantissa and a number of steps of the exponent above the smallest one; it
stands for the mantissa in the unit of these steps (`BinaryFormat.value`).  The next magnitude
stands for one unit more, so magnitudes are ordered like what they stand for
(`BinaryFormat.value_strictMono`).

| steps | mantissas | |
| --- | --- | --- |
| `0` | `0, …, 2 ^ fractionBits - 1` | the subnormals |
| any | `2 ^ fractionBits, …, 2 ^ (fractionBits + 1) - 1` | the binades |
-/

namespace BoundSql

namespace BinaryFormat

variable {f : BinaryFormat} {k j m : Nat}

/-- The smallest mantissa of a binade. -/
def hidden (f : BinaryFormat) : Nat := Nat.pow 2 f.fractionBits

/-- The unit of the mantissas so many steps above the smallest one. -/
def unit (f : BinaryFormat) (steps : Nat) : ℚ := (2 : ℚ) ^ (f.minExponent + steps)

/-- What a magnitude stands for; the infinity stands one unit above all that is finite. -/
def value (f : BinaryFormat) (magnitude : Nat) : ℚ :=
  (f.parts magnitude).1 * (2 : ℚ) ^ (f.parts magnitude).2

/-- The hidden bit is not zero. -/
theorem hidden_pos (f : BinaryFormat) : 0 < f.hidden := Nat.pow_pos Nat.two_pos

/-- The distance between neighbours is not zero. -/
theorem unit_pos (f : BinaryFormat) (steps : Nat) : 0 < f.unit steps :=
  zpow_pos two_pos _

/-- Each step of the exponent doubles the distance between neighbours. -/
theorem unit_add (f : BinaryFormat) (k n : Nat) : f.unit (k + n) = 2 ^ n * f.unit k := by
  rw [unit, unit, Nat.cast_add, ← add_assoc, zpow_add₀ two_ne_zero, zpow_natCast, mul_comm]

/-- One step of the exponent doubles the distance between neighbours. -/
theorem unit_succ (f : BinaryFormat) (k : Nat) : f.unit (k + 1) = 2 * f.unit k := by
  rw [unit_add, pow_one]

/-- The pattern of a mantissa below the binades. -/
theorem parts_of_lt (hj : j < f.hidden) : f.parts j = (j, f.minExponent) := by
  have hfield : j / Nat.pow 2 f.fractionBits = 0 := Nat.div_eq_of_lt hj
  have hfraction : j % Nat.pow 2 f.fractionBits = j := Nat.mod_eq_of_lt hj
  rw [parts, hfield, hfraction]
  rfl

/-- The pattern of a mantissa in a binade. -/
theorem parts_of_le (hlow : f.hidden ≤ j) (hhigh : j < 2 * f.hidden) :
    f.parts (k * f.hidden + j) = (j, f.minExponent + k) := by
  obtain ⟨i, rfl⟩ := Nat.exists_eq_add_of_le hlow
  have hi : i < f.hidden := by omega
  have hsplit : k * f.hidden + (f.hidden + i) = i + f.hidden * (k + 1) := by ring
  have hfield : (i + f.hidden * (k + 1)) / Nat.pow 2 f.fractionBits = k + 1 := by
    have h := Nat.add_mul_div_left i (k + 1) (hidden_pos f)
    rwa [Nat.div_eq_of_lt hi, zero_add] at h
  have hfraction : (i + f.hidden * (k + 1)) % Nat.pow 2 f.fractionBits = i := by
    have h := Nat.add_mul_mod_self_left i f.hidden (k + 1)
    rwa [Nat.mod_eq_of_lt hi] at h
  rw [parts, hsplit, hfield, hfraction, if_neg (Nat.succ_ne_zero k)]
  refine Prod.ext (Nat.add_comm i f.hidden) ?_
  push_cast
  ring

/-- **What a mantissa in a unit stands for.**  One mantissa more than a binade has is the
first of the next. -/
theorem value_eq (hj : j ≤ 2 * f.hidden) (hk : k = 0 ∨ f.hidden ≤ j) :
    f.value (k * f.hidden + j) = j * f.unit k := by
  rcases Nat.lt_or_ge j f.hidden with hlow | hlow
  · obtain rfl : k = 0 := hk.resolve_right (Nat.not_le.2 hlow)
    rw [Nat.zero_mul, Nat.zero_add, value, parts_of_lt hlow, unit, Nat.cast_zero, add_zero]
  · rcases Nat.lt_or_eq_of_le hj with hhigh | rfl
    · rw [value, parts_of_le hlow hhigh, unit]
    · have hnext : k * f.hidden + 2 * f.hidden = (k + 1) * f.hidden + f.hidden := by ring
      have hparts : f.parts ((k + 1) * f.hidden + f.hidden) =
          (f.hidden, f.minExponent + (k + 1 : Nat)) :=
        parts_of_le (Nat.le_refl _) (by have := hidden_pos f; omega)
      rw [hnext, value, hparts, ← unit, unit_succ, Nat.cast_mul, Nat.cast_two]
      ring

/-- Every magnitude has a mantissa in a unit. -/
theorem exists_mantissa (f : BinaryFormat) (m : Nat) :
    ∃ k j, m = k * f.hidden + j ∧ j < 2 * f.hidden ∧ (k = 0 ∨ f.hidden ≤ j) := by
  have hsplit := Nat.div_add_mod m f.hidden
  have hfraction := Nat.mod_lt m (hidden_pos f)
  cases hfield : m / f.hidden with
  | zero =>
      rw [hfield] at hsplit
      exact ⟨0, m % f.hidden, by omega, by omega, .inl rfl⟩
  | succ k =>
      rw [hfield, Nat.mul_succ, Nat.mul_comm] at hsplit
      exact ⟨k, f.hidden + m % f.hidden, by omega, by omega, .inr (Nat.le_add_right _ _)⟩

/-- **Magnitudes are ordered like what they stand for.** -/
theorem value_strictMono (f : BinaryFormat) : StrictMono f.value := by
  refine strictMono_nat_of_lt_succ fun m => ?_
  obtain ⟨k, j, rfl, hj, hk⟩ := exists_mantissa f m
  have hsucc : f.value (k * f.hidden + (j + 1)) = (j + 1 : Nat) * f.unit k :=
    value_eq hj (hk.imp_right Nat.le_succ_of_le)
  rw [Nat.add_assoc, hsucc, value_eq hj.le hk]
  have hunit := unit_pos f k
  push_cast
  linarith

/-- The least magnitude is zero. -/
theorem value_zero (f : BinaryFormat) : f.value 0 = 0 := by
  have h : f.value (0 * f.hidden + 0) = (0 : Nat) * f.unit 0 := value_eq (Nat.zero_le _) (.inl rfl)
  rwa [Nat.zero_mul, Nat.cast_zero, zero_mul] at h

/-- No magnitude is negative. -/
theorem value_nonneg (f : BinaryFormat) (m : Nat) : 0 ≤ f.value m := by
  rw [← value_zero f]
  exact (value_strictMono f).monotone (Nat.zero_le m)

/-- **What has a short mantissa is a value.**  A mantissa below the binades moves up by
doublings, for which the unit becomes finer. -/
theorem exists_value_eq (hj : j ≤ 2 * f.hidden) : ∃ m, f.value m = j * f.unit k := by
  induction k generalizing j with
  | zero => exact ⟨_, value_eq hj (.inl rfl)⟩
  | succ k ih =>
      rcases Nat.lt_or_ge j f.hidden with hlow | hlow
      · obtain ⟨m, hm⟩ := ih (j := 2 * j) (by omega)
        refine ⟨m, ?_⟩
        rw [hm, unit_succ]
        push_cast
        ring
      · exact ⟨_, value_eq hj (.inr hlow)⟩

/-- A magnitude is a multiple of a unit, or less than the first binade of the unit. -/
theorem value_multiple_or_lt (f : BinaryFormat) (k m : Nat) :
    (∃ n : Nat, f.value m = n * f.unit k) ∨ k ≠ 0 ∧ f.value m < f.hidden * f.unit k := by
  obtain ⟨i, j, rfl, hj, hi⟩ := exists_mantissa f m
  rw [value_eq hj.le hi]
  -- the unit of the magnitude is either finer or a multiple
  rcases Nat.lt_or_ge i k with hik | hki
  · obtain ⟨n, rfl⟩ := Nat.exists_eq_add_of_lt hik
    refine .inr ⟨by omega, ?_⟩
    have hunit := unit_pos f i
    have hj : (j : ℚ) < 2 * f.hidden := by exact_mod_cast hj
    have hpow : (1 : ℚ) ≤ 2 ^ n := one_le_pow₀ one_le_two
    calc (j : ℚ) * f.unit i
        < 2 * f.hidden * f.unit i := mul_lt_mul_of_pos_right hj hunit
      _ ≤ 2 * f.hidden * (2 ^ n * f.unit i) := by
          refine mul_le_mul_of_nonneg_left ?_ (by positivity)
          exact le_mul_of_one_le_left hunit.le hpow
      _ = f.hidden * f.unit (i + n + 1) := by
          rw [unit_succ, unit_add]
          ring
  · obtain ⟨n, rfl⟩ := Nat.exists_eq_add_of_le hki
    refine .inl ⟨j * 2 ^ n, ?_⟩
    rw [unit_add]
    push_cast
    ring

end BinaryFormat

end BoundSql
