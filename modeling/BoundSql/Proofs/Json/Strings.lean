import BoundSql.Json.Reader
import BoundSql.Proofs.Text.Digits

/-!
# JSON strings read back

A string is written unit by unit, and each unit is read back by itself, so the units of a
string are read up to its closing quote.  The units in which a text is written out spell
this text.
-/

namespace BoundSql

namespace StringUnit

/-- A unit as a reader finds it: a character that may stand in a string or has an escape
letter, or a code unit of sixteen bits. -/
def Readable : StringUnit → Prop
  | .char c => 0x20 ≤ c.toNat ∨ (escapeLetter? c).isSome = true
  | .code unit => unit < 0x10000

end StringUnit

namespace JsonText

open StringUnit

variable {rest rest' : List Char} {units : List StringUnit}

/-- A letter behind a backslash, other than the one of code units, is a character. -/
theorem readString?_letter {letter c : Char} (hu : letter ≠ 'u')
    (hletter : unescapeLetter? letter = some c) (h : readString? rest = some (units, rest')) :
    readString? ('\\' :: letter :: rest) = some (.char c :: units, rest') := by
  rw [readString?, hletter, h]
  · rfl
  · exact fun _ _ _ _ _ heq => absurd heq hu

/-- A character that is no control character, no quote and no backslash is itself. -/
theorem readString?_char {c : Char} (hquote : c ≠ '\x22') (hslash : c ≠ '\\') (hc : 0x20 ≤ c.toNat)
    (h : readString? rest = some (units, rest')) :
    readString? (c :: rest) = some (.char c :: units, rest') := by
  rw [readString?, if_neg hquote, if_neg (by simp [hslash, hc]), h]
  · rfl
  · exact fun _ _ _ _ _ heq => absurd heq hslash
  · exact fun _ _ heq => absurd heq hslash

/-- The letter of an escape stands for the character. -/
theorem unescapeLetter?_of_escapeLetter? {c letter : Char} (h : escapeLetter? c = some letter) :
    letter ≠ 'u' ∧ unescapeLetter? letter = some c := by
  unfold escapeLetter? at h
  repeat' split at h
  case isFalse => exact absurd h (Option.some_ne_none letter).symm
  all_goals
    rename_i hc
    obtain rfl := Option.some.inj h
    subst hc
    exact ⟨by decide, rfl⟩

/-- **A unit is read back by itself.** -/
theorem readString?_toChars {u : StringUnit} (hu : u.Readable)
    (h : readString? rest = some (units, rest')) :
    readString? (u.toChars ++ rest) = some (u :: units, rest') := by
  cases u with
  | char c =>
      rw [StringUnit.toChars]
      cases hletter : escapeLetter? c with
      | some letter =>
          obtain ⟨hne, hc⟩ := unescapeLetter?_of_escapeLetter? hletter
          exact readString?_letter hne hc h
      | none =>
          have hplain : ∀ d : Char, (escapeLetter? d).isSome = true → c ≠ d := by
            rintro d hd rfl
            rw [hletter] at hd
            exact Bool.false_ne_true hd
          have hc : 0x20 ≤ c.toNat := by simpa [Readable, hletter] using hu
          exact readString?_char (hplain _ rfl) (hplain _ rfl) hc h
  | code unit =>
      obtain ⟨a, b, c, d, hdigits, hvalue⟩ := Text.exists_hexDigits_four hu
      rw [StringUnit.toChars, hdigits]
      show readString? ('\\' :: 'u' :: a :: b :: c :: d :: rest) = _
      rw [readString?, hvalue, h]
      rfl

/-- **A string is read up to its closing quote.** -/
theorem readString?_units (hunits : ∀ u ∈ units, u.Readable) (rest : List Char) :
    readString? (units.flatMap StringUnit.toChars ++ '\x22' :: rest) = some (units, rest) := by
  induction units with
  | nil => rfl
  | cons u units ih =>
      obtain ⟨hu, hunits⟩ := List.forall_mem_cons.1 hunits
      rw [List.flatMap_cons, List.append_assoc]
      exact readString?_toChars hu (ih hunits)

end JsonText

namespace StringUnit

/-- A character is escaped where the reader would not take it as it is. -/
theorem readable_ofChar (c : Char) : (ofChar c).Readable := by
  rw [ofChar]
  split
  · rename_i h
    have hc : c.toNat < 0x20 := by simpa using (Bool.and_eq_true_iff.1 h).1
    exact Nat.lt_trans hc (by decide)
  · rename_i h
    by_cases hc : c.toNat < 0x20
    · exact .inr (by simpa [hc, Option.isSome_iff_ne_none] using h)
    · exact .inl (Nat.not_lt.1 hc)

/-- The spelling of every text can be read. -/
theorem readable_ofText (s : String) : ∀ u ∈ ofText s, u.Readable := by
  intro u hu
  obtain ⟨c, -, rfl⟩ := List.mem_map.1 hu
  exact readable_ofChar c

/-- The unit of a character stands for that character, whatever comes behind it. -/
theorem chars?_ofChar (c : Char) (units : List StringUnit) :
    chars? (ofChar c :: units) = (chars? units).map (c :: ·) := by
  rw [ofChar]
  split
  · rename_i h
    have hc : c.toNat < 0x20 := by simpa using (Bool.and_eq_true_iff.1 h).1
    have hlow : isLowSurrogate c.toNat = false := by
      simp only [isLowSurrogate, Bool.and_eq_false_iff, decide_eq_false_iff_not]
      omega
    have hhigh : isHighSurrogate c.toNat = false := by
      simp only [isHighSurrogate, Bool.and_eq_false_iff, decide_eq_false_iff_not]
      omega
    rw [chars?.eq_def]
    simp only [hlow, hhigh, Char.ofNat_toNat, Bool.false_eq_true, if_false]
  · rfl

/-- **The units in which a text is written out spell it.** -/
theorem text?_ofText (s : String) : text? (ofText s) = some s := by
  have hchars : ∀ cs : List Char, chars? (cs.map ofChar) = some cs := by
    intro cs
    induction cs with
    | nil => rfl
    | cons c cs ih => rw [List.map_cons, chars?_ofChar, ih, Option.map_some]
  rw [text?, ofText, hchars, Option.map_some, String.ofList_toList]

end StringUnit

end BoundSql
