import BoundSql.Text.Digits

/-!
# Numerals read back

The digits of a number are digits, there is one at least, and they write the number.
-/

namespace BoundSql.Text

/-- Every number has a digit. -/
theorem digitsOfNat_ne_nil (n : Nat) : digitsOfNat n ≠ [] := Nat.toDigits_ne_nil

/-- A number is written in digits alone. -/
theorem isDigit_digitsOfNat (n : Nat) : (digitsOfNat n).all Char.isDigit = true :=
  List.all_eq_true.2 fun _ hc => Nat.isDigit_of_mem_toDigits (by decide) (by decide) hc

/-- **The digits of a number write it.** -/
theorem natOfDigits_digitsOfNat (n : Nat) : natOfDigits (digitsOfNat n) = n :=
  Nat.ofDigitChars_toDigits (by decide) (by decide)

/-- The digits of a positive number do not start with a zero. -/
theorem head?_digitsOfNat {n : Nat} (h : n ≠ 0) : (digitsOfNat n).head? ≠ some '0' := by
  induction n using Nat.strongRecOn with
  | ind n ih =>
      by_cases hsmall : n < 10
      · rw [digitsOfNat, Nat.toDigits_of_lt_base hsmall]
        exact fun heq => h (Nat.digitChar_eq_zero.1 (Option.some.inj heq))
      · have hmore := ih (n / 10) (by omega) (by omega)
        obtain ⟨c, rest, hdigits⟩ := List.exists_cons_of_ne_nil (digitsOfNat_ne_nil (n / 10))
        rw [hdigits] at hmore
        have hfront : Nat.toDigits 10 (n / 10) = c :: rest := hdigits
        rw [digitsOfNat, Nat.toDigits_of_base_le (by decide) (Nat.not_lt.1 hsmall), hfront]
        exact hmore

/-- An integer is written as its sign and the digits of its amount. -/
theorem toList_toString (n : Int) :
    (toString n).toList = (if n < 0 then ['-'] else []) ++ digitsOfNat n.natAbs := by
  cases n with
  | ofNat n =>
      have htext : toString (Int.ofNat n) = n.repr := rfl
      rw [htext, Nat.toList_repr, Int.ofNat_eq_natCast,
        if_neg (Int.not_lt.2 (Int.natCast_nonneg n))]
      rfl
  | negSucc n =>
      have htext : toString (Int.negSucc n) = "-" ++ (n + 1).repr := rfl
      rw [htext, String.toList_append, Nat.toList_repr, if_pos (Int.negSucc_lt_zero n)]
      rfl

/-! ## Hexadecimal digits -/

/-- A hexadecimal digit is read back. -/
theorem hexValue?_hexDigit {n : Nat} (h : n < 16) : hexValue? (hexDigit n) = some n := by
  have hall : ∀ n < 16, hexValue? (hexDigit n) = some n := by decide
  exact hall n h

/-- Four hexadecimal digits write the numbers of sixteen bits. -/
theorem exists_hexDigits_four {n : Nat} (h : n < 0x10000) :
    ∃ a b c d, hexDigits 4 n = [a, b, c, d] ∧ natOfHex? [a, b, c, d] = some n := by
  refine ⟨_, _, _, _, rfl, ?_⟩
  have hdigit : ∀ m : Nat, hexValue? (hexDigit (m % 16)) = some (m % 16) :=
    fun m => hexValue?_hexDigit (Nat.mod_lt m (by decide))
  simp only [natOfHex?, List.foldlM_cons, List.foldlM_nil, hdigit, Option.map_some,
    Option.bind_eq_bind, Option.bind_some, Option.pure_def, Option.some.injEq]
  omega

end BoundSql.Text
