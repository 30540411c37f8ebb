import BoundSql.Json.Reader
import BoundSql.Proofs.Number.Shortest
import BoundSql.Proofs.Text.Digits
import BoundSql.Proofs.Text.Runs

/-!
# JSON numbers read back

The characters of a number are read back as its parts, where nothing follows that belongs to
it.  What numbers are written as has the form of a JSON number: no zero stands in front of
another digit, since an integer has none and the shortest decimal of a double is positive.
An integer has its own value again.
-/

namespace BoundSql

/-- What follows a JSON value ends an item or a container, or is nothing. -/
def JsonText.Follows (rest : List Char) : Prop :=
  rest.head?.all (fun c => c == ',' || c == ']' || c == '\x7d') = true

namespace NumberText

/-- One or more digits. -/
def IsRun (ds : List Char) : Prop := ds ≠ [] ∧ ds.all Char.isDigit = true

/-- The form of a JSON number. -/
structure WellFormed (t : NumberText) : Prop where
  whole : IsRun t.whole
  /-- A zero at the front stands alone. -/
  zero : t.whole.head? = some '0' → t.whole = ['0']
  fraction : t.fraction.all Char.isDigit = true
  exponent : ∀ e ∈ t.exponent, IsRun e.2

/-- The characters of a fraction. -/
def fractionChars (fraction : List Char) : List Char :=
  if fraction = [] then [] else '.' :: fraction

/-- The characters of an exponent. -/
def exponentChars : Option (Bool × List Char) → List Char
  | none => []
  | some (negative, ds) => 'e' :: (if negative then '-' else '+') :: ds

/-- The parts of a spelling in the order in which they are read. -/
theorem toChars_eq (t : NumberText) : t.toChars =
    (if t.negative then ['-'] else []) ++
      (t.whole ++ (fractionChars t.fraction ++ exponentChars t.exponent)) := by
  obtain ⟨negative, whole, fraction, _ | ⟨_, _⟩⟩ := t <;>
    simp only [toChars, fractionChars, exponentChars, List.append_assoc]

end NumberText

namespace JsonText

open NumberText

variable {rest : List Char}

/-- A run of digits is read up to the first character that is no digit. -/
theorem readRun?_append {ds : List Char} (h : IsRun ds)
    (hrest : rest.head?.any Char.isDigit = false) : readRun? (ds ++ rest) = some (ds, rest) := by
  rw [readRun?, Text.takeWhile_run h.2 hrest]
  split
  · exact absurd rfl h.1
  · rw [List.drop_left]

/-- The digits in front of the point are read whole, for a zero in front stands alone. -/
theorem readWhole?_append {ds : List Char} (h : IsRun ds) (hzero : ds.head? = some '0' → ds = ['0'])
    (hrest : rest.head?.any Char.isDigit = false) : readWhole? (ds ++ rest) = some (ds, rest) := by
  rw [readWhole?, Text.takeWhile_run h.2 hrest]
  split
  · exact absurd rfl h.1
  · exact absurd (hzero rfl) (by simp)
  · rw [List.drop_left]

/-- A fraction is read back; without one, nothing behind may be taken for it. -/
theorem readFraction?_append {fraction : List Char} (h : fraction.all Char.isDigit = true)
    (hrest : rest.head?.any Char.isDigit = false) (hdot : rest.head? ≠ some '.') :
    readFraction? (fractionChars fraction ++ rest) = some (fraction, rest) := by
  rw [fractionChars]
  split
  · rename_i hnil
    subst hnil
    rw [List.nil_append, readFraction?]
    intro more heq
    exact hdot (by rw [heq]; rfl)
  · rename_i hne
    exact readRun?_append ⟨hne, h⟩ hrest

/-- What follows a number continues none of its parts. -/
theorem Follows.head? (h : Follows rest) :
    rest.head?.any Char.isDigit = false ∧ rest.head? ≠ some '.' ∧ rest.head? ≠ some 'e' ∧
      rest.head? ≠ some 'E' := by
  cases rest with
  | nil => simp
  | cons c rest =>
      have hc : (c = ',' ∨ c = ']') ∨ c = '\x7d' := by simpa [Follows] using h
      rcases hc with (rfl | rfl) | rfl <;> simp

/-- An exponent is read back; without one, nothing behind may be taken for it. -/
theorem readExponent?_append {e? : Option (Bool × List Char)} (h : ∀ e ∈ e?, IsRun e.2)
    (hrest : Follows rest) : readExponent? (exponentChars e? ++ rest) = some (e?, rest) := by
  obtain ⟨hdigit, -, he, hE⟩ := hrest.head?
  cases e? with
  | none =>
      cases rest with
      | nil => rfl
      | cons c rest =>
          have hc : c ≠ 'e' ∧ c ≠ 'E' := ⟨by simpa using he, by simpa using hE⟩
          have hc : ¬(c = 'e' || c = 'E') = true := by simpa using hc
          exact if_neg hc
  | some e =>
      obtain ⟨negative, ds⟩ := e
      have hrun := readRun?_append (h _ rfl) hdigit
      cases negative <;>
        simp [exponentChars, readExponent?, hrun]

/-- What follows the digits of a number in front of its exponent. -/
theorem head?_exponentChars (e? : Option (Bool × List Char)) (hrest : Follows rest) :
    (exponentChars e? ++ rest).head?.any Char.isDigit = false ∧
      (exponentChars e? ++ rest).head? ≠ some '.' := by
  obtain ⟨hdigit, hdot, -⟩ := hrest.head?
  cases e? with
  | none => exact ⟨hdigit, hdot⟩
  | some e => exact ⟨rfl, by simp [exponentChars]⟩

/-- A fraction ends the run of digits in front of it. -/
theorem head?_fractionChars (fraction : List Char) {tail : List Char}
    (htail : tail.head?.any Char.isDigit = false) :
    (fractionChars fraction ++ tail).head?.any Char.isDigit = false := by
  rw [fractionChars]
  split
  · exact htail
  · rfl

/-- A sign is told from a digit. -/
theorem readNumber?_sign (negative : Bool) {body : List Char}
    (h : body.head?.any Char.isDigit = true) :
    readNumber? ((if negative then ['-'] else []) ++ body) = (do
      let (whole, rest) ← readWhole? body
      let (fraction, rest) ← readFraction? rest
      let (exponent, rest) ← readExponent? rest
      return (⟨negative, whole, fraction, exponent⟩, rest)) := by
  cases negative with
  | true => rfl
  | false =>
      have hhead : (body.head? == some '-') = false := by
        cases body with
        | nil => rfl
        | cons c body =>
            have hc : c ≠ '-' := by
              rintro rfl
              exact absurd h (by simp)
            simpa using hc
      show readNumber? body = _
      rw [readNumber?, hhead]
      rfl

/-- **A number is read back by itself.** -/
theorem readNumber?_toChars {t : NumberText} (h : t.WellFormed) (hrest : Follows rest) :
    readNumber? (t.toChars ++ rest) = some (t, rest) := by
  obtain ⟨hexponent, hdot⟩ := head?_exponentChars t.exponent hrest
  have hfraction := head?_fractionChars t.fraction hexponent
  have hbody : (t.whole ++ (fractionChars t.fraction ++
      (exponentChars t.exponent ++ rest))).head?.any Char.isDigit = true := by
    obtain ⟨c, ds, hwhole⟩ := List.exists_cons_of_ne_nil h.whole.1
    have hdigits := h.whole.2
    rw [hwhole] at hdigits ⊢
    exact (Bool.and_eq_true_iff.1 (List.all_cons.symm.trans hdigits)).1
  rw [toChars_eq, List.append_assoc, List.append_assoc, List.append_assoc,
    readNumber?_sign t.negative hbody, readWhole?_append h.whole h.zero hfraction]
  simp only [Option.bind_eq_bind, Option.bind_some,
    readFraction?_append h.fraction hexponent hdot, readExponent?_append h.exponent hrest]
  rfl

end JsonText

/-! ## Written numbers -/

namespace NumberText

/-- A natural number has at least one digit. -/
theorem isRun_digitsOfNat (n : Nat) : IsRun (Text.digitsOfNat n) :=
  ⟨Text.digitsOfNat_ne_nil n, Text.isDigit_digitsOfNat n⟩

/-- The spelling of an integer has no needless zero in front. -/
theorem wellFormed_ofInteger (n : Int) :
    WellFormed ⟨n < 0, Text.digitsOfNat n.natAbs, [], none⟩ := by
  refine ⟨isRun_digitsOfNat _, fun hzero => ?_, rfl, by simp⟩
  by_cases hn : n.natAbs = 0
  · show Text.digitsOfNat n.natAbs = ['0']
    rw [hn]
    rfl
  · exact absurd hzero (Text.head?_digitsOfNat hn)

/-- The digits of a positive number, some of them in front of a point. -/
theorem isRun_take {ds : List Char} (h : IsRun ds) (count : Nat) : IsRun (ds.take (count + 1)) := by
  obtain ⟨hne, hall⟩ := h
  refine ⟨fun hnil => hne ?_, List.all_eq_true.2 fun c hc => ?_⟩
  · rcases List.take_eq_nil_iff.1 hnil with hcount | hds
    · exact absurd hcount (Nat.succ_ne_zero count)
    · exact hds
  · exact List.all_eq_true.1 hall c (List.mem_of_mem_take hc)

/-- The rest of a run of digits is one. -/
theorem all_drop {ds : List Char} (h : ds.all Char.isDigit = true) (count : Nat) :
    (ds.drop count).all Char.isDigit = true :=
  List.all_eq_true.2 fun c hc => List.all_eq_true.1 h c (List.mem_of_mem_drop hc)

/-- Zeros that fill up a number are digits. -/
theorem all_replicate_zero (count : Nat) :
    (List.replicate count '0').all Char.isDigit = true := by
  rw [List.all_replicate]
  simp

/-- **A double is written as a JSON number.** -/
theorem wellFormed_ofDouble (d : Double) : (ofDouble d).WellFormed := by
  unfold ofDouble
  split
  · exact ⟨⟨by simp, rfl⟩, fun _ => rfl, rfl, by simp⟩
  · rename_i hmagnitude
    extract_lets shortest ds top
    have hds : IsRun ds := isRun_digitsOfNat _
    have hzero : ds.head? ≠ some '0' :=
      Text.head?_digitsOfNat (BinaryFormat.digits_shortest_ne_zero hmagnitude)
    have hwhole : ∀ (more : List Char) (count : Nat),
        ((ds ++ more).take (count + 1)).head? ≠ some '0' := by
      intro more count
      obtain ⟨c, rest, hfront⟩ := List.exists_cons_of_ne_nil hds.1
      rw [hfront] at hzero ⊢
      exact hzero
    split
    · split
      · refine ⟨⟨by simp, rfl⟩, fun _ => rfl, ?_, by simp⟩
        rw [List.all_append, all_replicate_zero, hds.2]
        rfl
      · rename_i zeros fraction _ _
        have hall : IsRun zeros := by
          refine ⟨List.append_ne_nil_of_left_ne_nil hds.1 _, ?_⟩
          rw [List.all_append, all_replicate_zero, hds.2]
          rfl
        refine ⟨isRun_take hall _, fun h => absurd h (hwhole _ _), ?_, by simp⟩
        show (if fraction = [] then ['0'] else fraction).all Char.isDigit = true
        split
        · rfl
        · exact all_drop hall.2 _
    · have hfront := hwhole [] 0
      rw [List.append_nil] at hfront
      refine ⟨isRun_take hds 0, fun h => absurd h hfront, all_drop hds.2 1, ?_⟩
      rintro _ ⟨⟩
      exact isRun_digitsOfNat _

/-- The spelling of every number can be read. -/
theorem wellFormed_ofNumber (n : JsonNumber) : (ofNumber n).WellFormed := by
  cases n with
  | integer n lower upper => exact wellFormed_ofInteger n
  | double d finite => exact wellFormed_ofDouble d

/-- **An integer has its own value again.** -/
theorem value?_ofNumber_integer (n : Int) (lower : -0x8000000000000000 ≤ n)
    (upper : n < 0x10000000000000000) :
    (ofNumber (.integer n lower upper)).value? = some (.integer n lower upper) := by
  have hvalue : (if (decide (n < 0)) = true then -(n.natAbs : Int) else n.natAbs) = n := by
    by_cases hn : n < 0
    · rw [if_pos (decide_eq_true hn)]
      omega
    · rw [if_neg (by simpa using hn)]
      omega
  have hzero : ¬(decide (n < 0) = true ∧ n = 0) := by
    rw [decide_eq_true_eq]
    omega
  rw [ofNumber, value?]
  simp only [Text.natOfDigits_digitsOfNat, hvalue]
  rw [if_pos ⟨trivial, trivial, hzero⟩, dif_pos ⟨lower, upper⟩]

end NumberText

end BoundSql
