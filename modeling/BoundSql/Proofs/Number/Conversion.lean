import BoundSql.Proofs.Number.Rounding

/-!
# Conversion between the formats

What the patterns of singles and doubles stand for, and what the conversions keep of it: a
single becomes the double of the same number (`Single.number_toDouble`) and comes back as it
was (`Single.toSingle_toDouble`); a double becomes a nearest single
(`Double.toSingle_nearest`).  A NaN stays one.
-/

namespace BoundSql

/-- What a pattern stands for. -/
inductive Number
  | finite (q : ℚ)
  | infinite (negative : Bool)
  | nan

namespace BinaryFormat

variable {f g : BinaryFormat}

/-- A magnitude with a sign. -/
def signed (negative : Bool) (q : ℚ) : ℚ := if negative then -q else q

/-- What a sign and a magnitude stand for. -/
def number (f : BinaryFormat) (negative : Bool) (magnitude : Nat) : Number :=
  if magnitude < f.infinity then .finite (signed negative (f.value magnitude))
  else if magnitude = f.infinity then .infinite negative
  else .nan

/-- Below that of infinity a magnitude is a finite number. -/
theorem number_of_finite (negative : Bool) {m : Nat} (h : m < f.infinity) :
    f.number negative m = .finite (signed negative (f.value m)) := if_pos h

/-- The magnitude of infinity is infinite. -/
theorem number_infinity (f : BinaryFormat) (negative : Bool) :
    f.number negative f.infinity = .infinite negative := by
  rw [number, if_neg (Nat.lt_irrefl _), if_pos rfl]

/-- Above that of infinity a magnitude is no number. -/
theorem number_of_nan (negative : Bool) {m : Nat} (h : f.infinity < m) :
    f.number negative m = .nan := by
  rw [number, if_neg h.asymm, if_neg h.ne']

/-- The second number is a nearest one of the format.  An infinity counts as the number that
comes next after the finite ones; it is nearest where rounding overflows. -/
inductive Nearest (f : BinaryFormat) : Number → Number → Prop
  | nan : Nearest f .nan .nan
  | infinite (negative : Bool) : Nearest f (.infinite negative) (.infinite negative)
  | finite {q : ℚ} {negative : Bool} {m : Nat} (hm : m ≤ f.infinity)
    (hnearest : ∀ negative' m', m' ≤ f.infinity →
      |signed negative (f.value m) - q| ≤ |signed negative' (f.value m') - q|) :
    Nearest f (.finite q) (f.number negative m)

/-- A common sign does not change a distance. -/
theorem abs_signed_sub (negative : Bool) (a b : ℚ) :
    |signed negative a - signed negative b| = |a - b| := by
  cases negative with
  | false => rfl
  | true =>
      rw [signed, signed, if_pos rfl, if_pos rfl, neg_sub_neg, abs_sub_comm]

/-- Of what is not negative, the sign of a number brings it nearer. -/
theorem abs_sub_le_abs_signed_sub (negative negative' : Bool) {a b : ℚ} (ha : 0 ≤ a)
    (hb : 0 ≤ b) : |a - b| ≤ |signed negative' a - signed negative b| := by
  have hsum : |a - b| ≤ a + b := by
    rw [abs_le]
    constructor
    · linarith
    · linarith
  cases negative with
  | false =>
      cases negative' with
      | false => exact le_refl _
      | true =>
          have h : |signed true a - signed false b| = a + b := by
            rw [signed, signed, if_pos rfl, if_neg Bool.false_ne_true, abs_sub_comm, sub_neg_eq_add,
              abs_of_nonneg (by linarith), add_comm]
          rw [h]
          exact hsum
  | true =>
      cases negative' with
      | false =>
          have h : |signed false a - signed true b| = a + b := by
            rw [signed, signed, if_neg Bool.false_ne_true, if_pos rfl, sub_neg_eq_add,
              abs_of_nonneg (by linarith)]
          rw [h]
          exact hsum
      | true => rw [abs_signed_sub]

/-- A mantissa and an exponent as a quotient of naturals. -/
theorem ofParts_quotient (mantissa : Nat) (exponent : Int) :
    ((mantissa * Nat.pow 2 exponent.toNat : Nat) : ℚ) / (Nat.pow 2 (-exponent).toNat : Nat) =
      mantissa * (2 : ℚ) ^ exponent := by
  rw [two_zpow, Nat.cast_mul, mul_div_assoc]

/-- **A magnitude in another format** is a nearest one. -/
theorem ofParts_nearest (f g : BinaryFormat) (n : Nat) {m : Nat} (hm : m ≤ f.infinity) :
    |f.value (f.ofParts (g.parts n).1 (g.parts n).2) - g.value n| ≤ |f.value m - g.value n| := by
  have hquotient := ofParts_quotient (g.parts n).1 (g.parts n).2
  rw [← value] at hquotient
  rw [ofParts, ← hquotient]
  exact round_nearest f _ (Nat.pow_pos Nat.two_pos) hm

/-- A magnitude that both formats have is kept. -/
theorem ofParts_eq {m n : Nat} (hm : m ≤ f.infinity) (h : f.value m = g.value n) :
    f.ofParts (g.parts n).1 (g.parts n).2 = m := by
  rw [ofParts]
  refine round_eq (Nat.pow_pos Nat.two_pos) hm ?_
  rw [ofParts_quotient, h, value]

/-- With its sign, too. -/
theorem nearest_ofParts (f g : BinaryFormat) (negative : Bool) {n : Nat} (hn : n < g.infinity) :
    f.Nearest (g.number negative n)
      (f.number negative (f.ofParts (g.parts n).1 (g.parts n).2)) := by
  rw [number_of_finite negative hn]
  refine .finite (round_le_infinity _ _ _) fun negative' m hm => ?_
  rw [abs_signed_sub]
  exact (ofParts_nearest f g n hm).trans
    (abs_sub_le_abs_signed_sub negative negative' (value_nonneg f m) (value_nonneg g n))

/-- A number of the format is nearest to itself. -/
theorem nearest_self (f : BinaryFormat) (negative : Bool) (m : Nat) :
    f.Nearest (f.number negative m) (f.number negative m) := by
  rcases Nat.lt_trichotomy m f.infinity with hfinite | rfl | hnan
  · have h : f.Nearest (.finite (signed negative (f.value m))) (f.number negative m) := by
      refine .finite hfinite.le fun negative' m' _ => ?_
      rw [sub_self, abs_zero]
      exact abs_nonneg _
    rwa [← number_of_finite negative hfinite] at h
  · rw [number_infinity]
    exact .infinite negative
  · rw [number_of_nan negative hnan]
    exact .nan

/-- No number of the format is nearer. -/
theorem Nearest.abs_sub_le {q r : ℚ} (h : f.Nearest (.finite q) (.finite r)) (negative : Bool)
    {m : Nat} (hm : m ≤ f.infinity) : |r - q| ≤ |signed negative (f.value m) - q| := by
  generalize hr : Number.finite r = y at h
  cases h with
  | @finite _ negative' n hn hnearest =>
      have hfinite : n < f.infinity := by
        refine Nat.lt_of_le_of_ne hn fun heq => ?_
        rw [heq, number_infinity] at hr
        exact Number.noConfusion hr
      rw [number_of_finite negative' hfinite] at hr
      rw [Number.finite.inj hr]
      exact hnearest negative m hm

/-- The infinity stands where the next binade would begin. -/
theorem value_infinity {k : Nat} (hk : Nat.pow 2 f.exponentBits = k + 2) :
    f.value f.infinity = f.hidden * f.unit k := by
  have hinfinity : f.infinity = k * f.hidden + f.hidden := by
    rw [infinity, hk, ← hidden]
    exact Nat.succ_mul k f.hidden
  rw [hinfinity]
  exact value_eq (Nat.le_mul_of_pos_left _ Nat.two_pos) (.inr (Nat.le_refl _))

/-- The units of both formats. -/
theorem unit_double (k : Nat) : double.unit (k + 925) = single.unit k := by
  have hexponent : double.minExponent + ((k + 925 : Nat) : Int) = single.minExponent + k := by
    have hdouble : double.minExponent = -1074 := rfl
    have hsingle : single.minExponent = -149 := rfl
    omega
  rw [unit, unit, hexponent]

/-- **Every finite single is a finite double.** -/
theorem exists_double_eq {m : Nat} (hm : m < single.infinity) :
    ∃ n < double.infinity, double.value n = single.value m := by
  obtain ⟨k, j, rfl, hj, hk⟩ := exists_mantissa single m
  have hshort : j ≤ 2 * double.hidden := hj.le.trans (by decide)
  obtain ⟨n, hn⟩ := exists_value_eq (f := double) (k := k + 925) hshort
  have hvalue : double.value n = single.value (k * single.hidden + j) := by
    rw [hn, unit_double, value_eq hj.le hk]
  have htop : single.value single.infinity ≤ double.value double.infinity := by
    rw [value_infinity (k := 254) rfl, value_infinity (k := 2046) rfl, ← unit_double]
    refine mul_le_mul ?_ ?_ (unit_pos _ _).le (Nat.cast_nonneg _)
    · exact_mod_cast (by decide : single.hidden ≤ double.hidden)
    · exact zpow_le_zpow_right₀ one_le_two (by decide)
  refine ⟨n, ?_, hvalue⟩
  rw [← (value_strictMono double).lt_iff_lt, hvalue]
  exact (value_strictMono single hm).trans_le htop

/-! ## Patterns of a sign bit and a magnitude -/

/-- The magnitude is what is left without the sign bit. -/
theorem sign_add_mod (negative : Bool) {signBit m : Nat} (hm : m < signBit) :
    ((if negative then signBit else 0) + m) % signBit = m := by
  cases negative with
  | false => simpa using Nat.mod_eq_of_lt hm
  | true => simpa using Nat.mod_eq_of_lt hm

/-- The sign is read off the sign bit. -/
theorem le_sign_add (negative : Bool) {signBit m : Nat} (hm : m < signBit) :
    decide (signBit ≤ (if negative then signBit else 0) + m) = negative := by
  cases negative with
  | false => simpa using hm
  | true => simp

end BinaryFormat

open BinaryFormat

namespace Double

/-- What a double stands for. -/
def number (d : Double) : Number := double.number d.isNegative d.magnitude

variable {negative : Bool} {m : Nat}

/-- The bits are the sign bit and the magnitude. -/
theorem toNat_bits_ofMagnitude (hm : m < signBit) :
    (ofMagnitude negative m).bits.toNat = (if negative then signBit else 0) + m := by
  have hlt : (if negative then signBit else 0) + m < 2 ^ 64 := by
    simp only [signBit] at hm ⊢
    split <;> omega
  rw [ofMagnitude, UInt64.toNat_ofNat', Nat.mod_eq_of_lt hlt]

/-- The sign is the one that was put in. -/
theorem isNegative_ofMagnitude (hm : m < signBit) :
    (ofMagnitude negative m).isNegative = negative := by
  rw [isNegative, toNat_bits_ofMagnitude hm, le_sign_add negative hm]

/-- The magnitude is the one that was put in. -/
theorem magnitude_ofMagnitude (hm : m < signBit) : (ofMagnitude negative m).magnitude = m := by
  rw [magnitude, toNat_bits_ofMagnitude hm, sign_add_mod negative hm]

/-- The number is the one of the sign and the magnitude. -/
theorem number_ofMagnitude (hm : m < signBit) :
    (ofMagnitude negative m).number = double.number negative m := by
  rw [number, isNegative_ofMagnitude hm, magnitude_ofMagnitude hm]

/-- A pattern below that of the infinity. -/
theorem number_of_bits_lt {bits : UInt64} (h : bits.toNat < double.infinity) :
    number ⟨bits⟩ = .finite (double.value bits.toNat) := by
  have hsign : double.infinity < signBit := by decide
  have hlt := Nat.lt_trans h hsign
  have hmagnitude : magnitude ⟨bits⟩ = bits.toNat := Nat.mod_eq_of_lt hlt
  have hpositive : isNegative ⟨bits⟩ = false := decide_eq_false (Nat.not_le.2 hlt)
  rw [number, hmagnitude, hpositive, number_of_finite false h]
  rfl

end Double

namespace Single

/-- What a single stands for. -/
def number (s : Single) : Number := single.number s.isNegative s.magnitude

variable {negative : Bool} {m : Nat}

/-- The bits are the sign bit and the magnitude. -/
theorem toNat_bits_ofMagnitude (hm : m < signBit) :
    (ofMagnitude negative m).bits.toNat = (if negative then signBit else 0) + m := by
  have hlt : (if negative then signBit else 0) + m < 2 ^ 32 := by
    simp only [signBit] at hm ⊢
    split <;> omega
  rw [ofMagnitude, UInt32.toNat_ofNat', Nat.mod_eq_of_lt hlt]

/-- The sign is the one that was put in. -/
theorem isNegative_ofMagnitude (hm : m < signBit) :
    (ofMagnitude negative m).isNegative = negative := by
  rw [isNegative, toNat_bits_ofMagnitude hm, le_sign_add negative hm]

/-- The magnitude is the one that was put in. -/
theorem magnitude_ofMagnitude (hm : m < signBit) : (ofMagnitude negative m).magnitude = m := by
  rw [magnitude, toNat_bits_ofMagnitude hm, sign_add_mod negative hm]

/-- The number is the one of the sign and the magnitude. -/
theorem number_ofMagnitude (hm : m < signBit) :
    (ofMagnitude negative m).number = single.number negative m := by
  rw [number, isNegative_ofMagnitude hm, magnitude_ofMagnitude hm]

/-- A pattern is its sign bit and its magnitude. -/
theorem ofMagnitude_magnitude (s : Single) : ofMagnitude s.isNegative s.magnitude = s := by
  obtain ⟨bits⟩ := s
  have hbits := bits.toNat_lt
  have hsplit : (if signBit ≤ bits.toNat then signBit else 0) + bits.toNat % signBit =
      bits.toNat := by
    by_cases hsign : signBit ≤ bits.toNat
    · rw [if_pos hsign]
      simp only [signBit] at hsign ⊢
      omega
    · rw [if_neg hsign]
      simp only [signBit] at hsign ⊢
      omega
  rw [ofMagnitude, isNegative, magnitude]
  simp only [decide_eq_true_eq, hsplit, UInt32.ofNat_toNat]

end Single

/-! ## From double to single -/

namespace Double

/-- A finite double is rounded from its mantissa and exponent. -/
theorem toSingle_of_finite {d : Double} (h : d.magnitude < double.infinity) :
    d.toSingle = Single.ofMagnitude d.isNegative
      (single.ofParts (double.parts d.magnitude).1 (double.parts d.magnitude).2) := by
  rw [toSingle]
  simp only [if_pos h]

/-- An infinite double is an infinite single of the same sign. -/
theorem toSingle_of_infinite {d : Double} (h : d.magnitude = double.infinity) :
    d.toSingle = Single.ofMagnitude d.isNegative single.infinity := by
  rw [toSingle]
  simp only [h, if_neg (Nat.lt_irrefl _), if_true]

/-- A NaN is made quiet and remains one. -/
theorem magnitude_toSingle_of_isNaN {d : Double} (h : d.isNaN = true) :
    single.infinity < d.toSingle.magnitude := by
  have hnan : double.infinity < d.magnitude := of_decide_eq_true h
  generalize hpayload : d.magnitude % 0x10000000000000 / 0x20000000 = payload
  have hlt : payload < Nat.pow 2 31 := by
    rw [← hpayload]
    have : (2 : Nat).pow 31 = 2147483648 := rfl
    omega
  have hquiet : single.infinity ||| 0x400000 < Nat.pow 2 31 := by decide
  have hbound : single.infinity ||| 0x400000 ||| payload < Single.signBit :=
    Nat.or_lt_two_pow hquiet hlt
  have habove : single.infinity < single.infinity ||| 0x400000 := by decide
  rw [toSingle]
  simp only [if_neg (Nat.lt_asymm hnan), if_neg (Nat.ne_of_gt hnan), hpayload]
  rw [Single.magnitude_ofMagnitude hbound]
  exact Nat.lt_of_lt_of_le habove Nat.left_le_or

/-- **A double becomes a nearest single.** -/
theorem toSingle_nearest (d : Double) : single.Nearest d.number d.toSingle.number := by
  have hsign : single.infinity < Single.signBit := by decide
  rcases Nat.lt_trichotomy d.magnitude double.infinity with hfinite | hinfinite | hnan
  · have hle : single.ofParts (double.parts d.magnitude).1 (double.parts d.magnitude).2 ≤
        single.infinity := round_le_infinity _ _ _
    have hlt := Nat.lt_of_le_of_lt hle hsign
    rw [toSingle_of_finite hfinite, Single.number_ofMagnitude hlt, number]
    exact nearest_ofParts single double d.isNegative hfinite
  · rw [toSingle_of_infinite hinfinite, Single.number_ofMagnitude hsign, number, hinfinite,
      number_infinity, number_infinity]
    exact .infinite d.isNegative
  · have hsingle := magnitude_toSingle_of_isNaN (decide_eq_true hnan)
    rw [number, number_of_nan _ hnan, Single.number, number_of_nan _ hsingle]
    exact .nan

end Double

/-! ## From single to double -/

namespace Single

/-- A NaN is made quiet and remains one. -/
theorem magnitude_toDouble_of_isNaN {s : Single} (h : s.isNaN = true) :
    double.infinity < s.toDouble.magnitude := by
  have hnan : single.infinity < s.magnitude := of_decide_eq_true h
  generalize hpayload : s.magnitude % 0x800000 * 0x20000000 = payload
  have hlt : payload < Nat.pow 2 63 := by
    rw [← hpayload]
    have : (2 : Nat).pow 63 = 9223372036854775808 := rfl
    omega
  have hquiet : double.infinity ||| 0x8000000000000 < Nat.pow 2 63 := by decide
  have hbound : double.infinity ||| 0x8000000000000 ||| payload < Double.signBit :=
    Nat.or_lt_two_pow hquiet hlt
  have habove : double.infinity < double.infinity ||| 0x8000000000000 := by decide
  rw [toDouble]
  simp only [if_neg (Nat.lt_asymm hnan), if_neg (Nat.ne_of_gt hnan), hpayload]
  rw [Double.magnitude_ofMagnitude hbound]
  exact Nat.lt_of_lt_of_le habove Nat.left_le_or

/-- A finite single becomes a double of the same sign and value. -/
theorem toDouble_of_finite {s : Single} (h : s.magnitude < single.infinity) :
    ∃ n < double.infinity, double.value n = single.value s.magnitude ∧
      s.toDouble = Double.ofMagnitude s.isNegative n := by
  obtain ⟨n, hn, hvalue⟩ := exists_double_eq h
  refine ⟨n, hn, hvalue, ?_⟩
  rw [toDouble]
  simp only [if_pos h]
  rw [ofParts_eq hn.le hvalue]

/-- An infinite single is an infinite double of the same sign. -/
theorem toDouble_of_infinite {s : Single} (h : s.magnitude = single.infinity) :
    s.toDouble = Double.ofMagnitude s.isNegative double.infinity := by
  rw [toDouble]
  simp only [h, if_neg (Nat.lt_irrefl _), if_true]

/-- **A single becomes the double of the same number.** -/
theorem number_toDouble (s : Single) : s.toDouble.number = s.number := by
  have hsign : double.infinity < Double.signBit := by decide
  rcases Nat.lt_trichotomy s.magnitude single.infinity with hfinite | hinfinite | hnan
  · obtain ⟨n, hn, hvalue, heq⟩ := toDouble_of_finite hfinite
    rw [heq, Double.number_ofMagnitude (Nat.lt_trans hn hsign), number_of_finite _ hn, hvalue,
      number, number_of_finite _ hfinite]
  · rw [toDouble_of_infinite hinfinite, Double.number_ofMagnitude hsign, number, hinfinite,
      number_infinity, number_infinity]
  · have hdouble := magnitude_toDouble_of_isNaN (decide_eq_true hnan)
    rw [number, number_of_nan _ hnan, Double.number, number_of_nan _ hdouble]

/-- **A single that became a double comes back**, unless it is a NaN. -/
theorem toSingle_toDouble {s : Single} (h : s.isNaN = false) : s.toDouble.toSingle = s := by
  have hsign : double.infinity < Double.signBit := by decide
  have hle : s.magnitude ≤ single.infinity := Nat.le_of_not_lt (of_decide_eq_false h)
  rcases Nat.lt_or_eq_of_le hle with hfinite | hinfinite
  · obtain ⟨n, hn, hvalue, heq⟩ := toDouble_of_finite hfinite
    have hlt := Nat.lt_trans hn hsign
    have hmagnitude : s.toDouble.magnitude = n := by rw [heq, Double.magnitude_ofMagnitude hlt]
    have hnegative : s.toDouble.isNegative = s.isNegative := by
      rw [heq, Double.isNegative_ofMagnitude hlt]
    have hdouble : s.toDouble.magnitude < double.infinity := by rwa [hmagnitude]
    rw [Double.toSingle_of_finite hdouble, hmagnitude, hnegative, ofParts_eq hle hvalue.symm,
      ofMagnitude_magnitude]
  · have heq := toDouble_of_infinite hinfinite
    have hmagnitude : s.toDouble.magnitude = double.infinity := by
      rw [heq, Double.magnitude_ofMagnitude hsign]
    have hnegative : s.toDouble.isNegative = s.isNegative := by
      rw [heq, Double.isNegative_ofMagnitude hsign]
    rw [Double.toSingle_of_infinite hmagnitude, hnegative, ← hinfinite, ofMagnitude_magnitude]

end Single

end BoundSql
