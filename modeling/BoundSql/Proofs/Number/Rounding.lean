import BoundSql.Proofs.Number.Magnitude

/-!
# Rounding

`BinaryFormat.round` gives a magnitude that is nearest to the quotient, among all magnitudes up
to the infinity (`BinaryFormat.round_nearest`).  Its scale puts the quotient into a binade or
below all of them; there the nearest multiple of the unit is a magnitude, and the magnitudes
that are no multiples of the unit lie below the binade.
-/

namespace BoundSql

namespace BinaryFormat

variable {f : BinaryFormat}

/-! ## The nearest natural -/

/-- No integer is nearer to a number than this natural. -/
def IsNearest (n : Nat) (y : ℚ) : Prop := ∀ i : Int, |(n : ℚ) - y| ≤ |(i : ℚ) - y|

/-- The quotient is rounded by half of a unit at most. -/
theorem abs_nearestEven_sub_le {num den : Nat} (hden : 0 < den) :
    |(nearestEven num den : ℚ) - num / den| ≤ 1 / 2 := by
  have hsplit := Nat.div_add_mod num den
  have hmod := Nat.mod_lt num hden
  have hbounds : 2 * (den * nearestEven num den) ≤ 2 * num + den ∧
      2 * num ≤ 2 * (den * nearestEven num den) + den := by
    have hparity := Nat.mod_two_eq_zero_or_one (num / den)
    simp only [nearestEven]
    split
    · omega
    · split
      · rw [Nat.mul_succ]
        omega
      · rw [Nat.mul_add]
        rcases hparity with h | h
        · rw [h]
          omega
        · rw [h]
          omega
  obtain ⟨hlow, hhigh⟩ := hbounds
  have hdenQ : (0 : ℚ) < den := by exact_mod_cast hden
  have hlowQ : 2 * ((den : ℚ) * nearestEven num den) ≤ 2 * num + den := by exact_mod_cast hlow
  have hhighQ : 2 * (num : ℚ) ≤ 2 * (den * nearestEven num den) + den := by exact_mod_cast hhigh
  have hquotient : (nearestEven num den : ℚ) - num / den =
      (den * nearestEven num den - num) / den := by
    field_simp
  rw [hquotient, abs_div, abs_of_pos hdenQ, div_le_iff₀ hdenQ, abs_le]
  constructor
  · linarith
  · linarith

/-- No integer is nearer than one that is half of a unit away. -/
theorem abs_sub_le_of_half {x : ℚ} {n : Int} (hn : |(n : ℚ) - x| ≤ 1 / 2) (i : Int) :
    |(n : ℚ) - x| ≤ |(i : ℚ) - x| := by
  rcases eq_or_ne i n with rfl | hne
  · exact le_refl _
  · have hapart : (1 : ℚ) ≤ |(i : ℚ) - n| := by
      have h : (1 : Int) ≤ |i - n| := Int.one_le_abs (sub_ne_zero.2 hne)
      exact_mod_cast h
    have htriangle : |(i : ℚ) - n| ≤ |(i : ℚ) - x| + |(n : ℚ) - x| := by
      rw [abs_sub_comm (n : ℚ) x]
      exact abs_sub_le _ _ _
    linarith

/-- Rounding half to even gives a nearest integer. -/
theorem isNearest_nearestEven {num den : Nat} (hden : 0 < den) :
    IsNearest (nearestEven num den) (num / den) := by
  intro i
  have h := abs_sub_le_of_half (n := nearestEven num den) (abs_nearestEven_sub_le hden) i
  exact_mod_cast h

/-- What is nearest to a number lies on the same side of every natural. -/
theorem IsNearest.le {n b : Nat} {y : ℚ} (hn : IsNearest n y) (hb : y ≤ b) : n ≤ b := by
  by_contra hlt
  have hltQ : (b : ℚ) < n := by exact_mod_cast Nat.not_le.1 hlt
  have h := hn b
  rw [abs_of_nonneg (by linarith), Int.cast_natCast, abs_of_nonneg (by linarith)] at h
  linarith

/-- A nearest integer is not below an integer that the number is not below. -/
theorem IsNearest.ge {n b : Nat} {y : ℚ} (hn : IsNearest n y) (hb : b ≤ y) : b ≤ n := by
  by_contra hlt
  have hltQ : (n : ℚ) < b := by exact_mod_cast Nat.not_le.1 hlt
  have h := hn b
  rw [abs_sub_comm, abs_of_nonneg (by linarith), Int.cast_natCast, abs_sub_comm,
    abs_of_nonneg (by linarith)] at h
  linarith

/-! ## The binade of a quotient -/

/-- Powers of two by their naturals. -/
theorem two_zpow (k : Int) : (2 : ℚ) ^ k = Nat.pow 2 k.toNat / Nat.pow 2 (-k).toNat := by
  rcases Int.le_total 0 k with hk | hk
  · obtain ⟨n, rfl⟩ := Int.eq_ofNat_of_zero_le hk
    simp [Nat.pow_eq]
  · obtain ⟨n, hn⟩ := Int.eq_ofNat_of_zero_le (Int.neg_nonneg_of_nonpos hk)
    obtain rfl : k = -n := by omega
    simp [Nat.pow_eq]

/-- A quotient is compared with a power of two in natural numbers, on the side where the exponent
is not negative. -/
theorem two_zpow_le_div_iff {num den : Nat} (hden : 0 < den) (k : Int) :
    (2 : ℚ) ^ k ≤ num / den ↔ den * Nat.pow 2 k.toNat ≤ num * Nat.pow 2 (-k).toNat := by
  have hdenQ : (0 : ℚ) < den := by exact_mod_cast hden
  have hpow : (0 : ℚ) < Nat.pow 2 (-k).toNat := by exact_mod_cast Nat.pow_pos Nat.two_pos
  rw [two_zpow, div_le_div_iff₀ hpow hdenQ, mul_comm _ (den : ℚ)]
  exact_mod_cast Iff.rfl

/-- The binade of a natural. -/
theorem log2_bounds {n : Nat} (hn : 0 < n) :
    (2 : ℚ) ^ (Nat.log2 n : Int) ≤ n ∧ (n : ℚ) < (2 : ℚ) ^ (Nat.log2 n + 1 : Int) := by
  constructor
  · rw [zpow_natCast]
    exact_mod_cast Nat.log2_self_le hn.ne'
  · exact_mod_cast Nat.lt_log2_self

/-- The binades of two naturals leave two for their quotient. -/
theorem div_log2_bounds {num den : Nat} (hnum : 0 < num) (hden : 0 < den) :
    (2 : ℚ) ^ ((Nat.log2 num : Int) - Nat.log2 den - 1) ≤ num / den ∧
      (num : ℚ) / den < (2 : ℚ) ^ ((Nat.log2 num : Int) - Nat.log2 den + 1) := by
  obtain ⟨hnumLow, hnumHigh⟩ := log2_bounds hnum
  obtain ⟨hdenLow, hdenHigh⟩ := log2_bounds hden
  have hdenQ : (0 : ℚ) < den := by exact_mod_cast hden
  constructor
  · rw [le_div_iff₀ hdenQ]
    calc (2 : ℚ) ^ ((Nat.log2 num : Int) - Nat.log2 den - 1) * den
        ≤ (2 : ℚ) ^ ((Nat.log2 num : Int) - Nat.log2 den - 1) * 2 ^ (Nat.log2 den + 1 : Int) := by
          exact mul_le_mul_of_nonneg_left hdenHigh.le (by positivity)
      _ = (2 : ℚ) ^ (Nat.log2 num : Int) := by
          rw [← zpow_add₀ two_ne_zero]
          congr 1
          ring
      _ ≤ num := hnumLow
  · rw [div_lt_iff₀ hdenQ]
    calc (num : ℚ) < (2 : ℚ) ^ (Nat.log2 num + 1 : Int) := hnumHigh
      _ = (2 : ℚ) ^ ((Nat.log2 num : Int) - Nat.log2 den + 1) * 2 ^ (Nat.log2 den : Int) := by
          rw [← zpow_add₀ two_ne_zero]
          congr 1
          ring
      _ ≤ (2 : ℚ) ^ ((Nat.log2 num : Int) - Nat.log2 den + 1) * den :=
          mul_le_mul_of_nonneg_left hdenLow (by positivity)

/-- **The binade of a quotient.** -/
theorem floorLog2_spec {num den : Nat} (hnum : 0 < num) (hden : 0 < den) :
    (2 : ℚ) ^ floorLog2 num den ≤ num / den ∧
      (num : ℚ) / den < (2 : ℚ) ^ (floorLog2 num den + 1) := by
  obtain ⟨hlow, hhigh⟩ := div_log2_bounds hnum hden
  simp only [floorLog2]
  split
  · rename_i hle
    exact ⟨(two_zpow_le_div_iff hden _).2 hle, hhigh⟩
  · rename_i hnle
    rw [sub_add_cancel]
    exact ⟨hlow, lt_of_not_ge fun h => hnle ((two_zpow_le_div_iff hden _).1 h)⟩

/-! ## The nearest magnitude -/

/-- The nearest multiple of a unit is as near as every magnitude, if what is rounded is not
below the binade of the unit. -/
theorem multiple_nearest {x : ℚ} {k n : Nat} (hn : IsNearest n (x / f.unit k))
    (hk : k = 0 ∨ f.hidden * f.unit k ≤ x) (m : Nat) :
    |n * f.unit k - x| ≤ |f.value m - x| := by
  have hunit := unit_pos f k
  have hscale (y : ℚ) : |y * f.unit k - x| = |y - x / f.unit k| * f.unit k := by
    rw [← abs_of_pos hunit, ← abs_mul, abs_of_pos hunit, sub_mul, div_mul_cancel₀ x hunit.ne']
  have hmultiple (i : Nat) : |n * f.unit k - x| ≤ |i * f.unit k - x| := by
    rw [hscale, hscale]
    exact mul_le_mul_of_nonneg_right (by exact_mod_cast hn i) hunit.le
  rcases value_multiple_or_lt f k m with ⟨i, hi⟩ | ⟨hk0, hlt⟩
  · rw [hi]
    exact hmultiple i
  · have hx : f.hidden * f.unit k ≤ x := hk.resolve_left hk0
    calc |n * f.unit k - x| ≤ |f.hidden * f.unit k - x| := hmultiple f.hidden
      _ = x - f.hidden * f.unit k := by rw [abs_sub_comm, abs_of_nonneg (by linarith)]
      _ ≤ x - f.value m := by linarith
      _ = |f.value m - x| := by rw [abs_sub_comm, abs_of_nonneg (by linarith)]

/-- A quotient counted in a power of two. -/
theorem scaled_div (num den : Nat) (scale : Int) :
    ((num * Nat.pow 2 (-scale).toNat : Nat) : ℚ) / (den * Nat.pow 2 scale.toNat : Nat) =
      num / den / (2 : ℚ) ^ scale := by
  rw [two_zpow, div_div_div_eq]
  push_cast
  rfl

/-- The scale of rounding is that of a unit in whose binade the quotient lies, or of the
smallest one. -/
theorem unit_of_scale {num den : Nat} (hnum : 0 < num) (hden : 0 < den) {scale : Int} {k : Nat}
    (hscale : max f.minExponent (floorLog2 num den - f.fractionBits) = scale)
    (hk : (scale - f.minExponent).toNat = k) :
    f.unit k = (2 : ℚ) ^ scale ∧ (num : ℚ) / den ≤ 2 * f.hidden * f.unit k ∧
      (k = 0 ∨ f.hidden * f.unit k ≤ (num : ℚ) / den) := by
  obtain ⟨hlow, hhigh⟩ := floorLog2_spec hnum hden
  have hunit : f.unit k = (2 : ℚ) ^ scale := by
    rw [unit]
    congr 1
    omega
  have hhidden : (f.hidden : ℚ) = (2 : ℚ) ^ (f.fractionBits : Int) := by
    rw [hidden, Nat.pow_eq, Nat.cast_pow, Nat.cast_two, zpow_natCast]
  refine ⟨hunit, ?_, (Nat.eq_zero_or_pos k).imp_right fun hpos => ?_⟩
  · rw [hunit, hhidden, ← zpow_one_add₀ two_ne_zero, ← zpow_add₀ two_ne_zero]
    exact hhigh.le.trans (zpow_le_zpow_right₀ one_le_two (by omega))
  · rw [hunit, hhidden, ← zpow_add₀ two_ne_zero]
    exact (zpow_le_zpow_right₀ one_le_two (by omega)).trans hlow

/-- **The nearest magnitude, however large.** -/
theorem exists_round_eq (f : BinaryFormat) (num : Nat) {den : Nat} (hden : 0 < den) :
    ∃ m, f.round num den = min f.infinity m ∧
      ∀ m', |f.value m - num / den| ≤ |f.value m' - num / den| := by
  rcases Nat.eq_zero_or_pos num with rfl | hnum
  · refine ⟨0, by rw [round, if_pos rfl, Nat.min_zero], fun m' => ?_⟩
    rw [value_zero, Nat.cast_zero, zero_div, sub_self, abs_zero]
    exact abs_nonneg _
  · generalize hscale : max f.minExponent (floorLog2 num den - f.fractionBits) = scale
    generalize hk : (scale - f.minExponent).toNat = k
    generalize hmultiple :
      nearestEven (num * Nat.pow 2 (-scale).toNat) (den * Nat.pow 2 scale.toNat) = n
    obtain ⟨hunit, hbelow, habove⟩ := unit_of_scale hnum hden hscale hk
    have hpos := unit_pos f k
    have hn : IsNearest n (num / den / f.unit k) := by
      rw [hunit, ← scaled_div, ← hmultiple]
      exact isNearest_nearestEven (Nat.mul_pos hden (Nat.pow_pos Nat.two_pos))
    have hle : n ≤ 2 * f.hidden := by
      refine hn.le ?_
      rw [div_le_iff₀ hpos]
      push_cast
      exact hbelow
    have hge : k = 0 ∨ f.hidden ≤ n := by
      refine habove.imp_right fun h => hn.ge ?_
      rwa [le_div_iff₀ hpos]
    refine ⟨k * f.hidden + n, ?_, fun m' => ?_⟩
    · simp only [round, if_neg hnum.ne', hscale, hk, hmultiple]
      rfl
    · rw [value_eq hle hge]
      exact multiple_nearest hn habove m'

/-- The magnitude that rounding gives is not past the infinity. -/
theorem round_le_infinity (f : BinaryFormat) (num den : Nat) : f.round num den ≤ f.infinity := by
  rw [round]
  split
  · exact Nat.zero_le _
  · exact Nat.min_le_left _ _

/-- **Rounding gives the nearest magnitude** up to the infinity. -/
theorem round_nearest (f : BinaryFormat) (num : Nat) {den : Nat} (hden : 0 < den) {m : Nat}
    (hm : m ≤ f.infinity) :
    |f.value (f.round num den) - num / den| ≤ |f.value m - num / den| := by
  obtain ⟨n, hround, hnearest⟩ := exists_round_eq f num hden
  rw [hround]
  rcases Nat.le_or_le n f.infinity with hn | hn
  · rw [Nat.min_eq_right hn]
    exact hnearest m
  · rw [Nat.min_eq_left hn]
    have hmono := (value_strictMono f).monotone
    rcases le_total ((num : ℚ) / den) (f.value f.infinity) with hlow | hhigh
    · -- what lies past the infinity is not nearer
      have h := hnearest m
      rw [abs_of_nonneg (by linarith [hmono hn])] at h
      rw [abs_of_nonneg (by linarith)]
      linarith [hmono hn]
    · rw [abs_sub_comm, abs_of_nonneg (by linarith), abs_sub_comm,
        abs_of_nonneg (by linarith [hmono hm])]
      linarith [hmono hm]

/-- **What is a magnitude is not rounded.** -/
theorem round_eq {num den m : Nat} (hden : 0 < den) (hm : m ≤ f.infinity)
    (h : f.value m = num / den) : f.round num den = m := by
  have hnearest := round_nearest f num hden hm
  rw [h, sub_self, abs_zero] at hnearest
  have hvalue := sub_eq_zero.1 (abs_eq_zero.1 (le_antisymm hnearest (abs_nonneg _)))
  exact (value_strictMono f).injective (hvalue.trans h.symm)

end BinaryFormat

end BoundSql
