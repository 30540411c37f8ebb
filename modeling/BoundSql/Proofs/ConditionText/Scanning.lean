import Mathlib.Data.List.TakeWhile
import BoundSql.Proofs.ConditionText.Lexing

/-!
# Texts that can be cut

What starts with the characters of a token, and goes on with nothing that belongs to
it, has this token first.  So a text that can be cut into lexemes is cut into these, and
there is only one way to cut a text.
-/

namespace BoundSql

namespace ConditionText

/-! ## Strings -/

/-- Another character than an apostrophe is part of the string. -/
theorem stringExtent?_cons {c : Char} (hc : c ≠ Lexeme.apostrophe) {cs : List Char}
    (hcs : cs ≠ []) : Lexeme.stringExtent? (c :: cs) = (Lexeme.stringExtent? cs).map (· + 1) := by
  cases cs with
  | nil => exact absurd rfl hcs
  | cons d rest => exact if_neg hc

/-- A doubled apostrophe is part of the string. -/
theorem stringExtent?_quote (cs : List Char) :
    Lexeme.stringExtent? (Lexeme.apostrophe :: Lexeme.apostrophe :: cs) =
      (Lexeme.stringExtent? cs).map (· + 2) :=
  (if_pos rfl).trans (if_pos rfl)

/-- A doubled apostrophe stands for one. -/
theorem unquote_quote (cs : List Char) :
    Lexeme.unquote (Lexeme.apostrophe :: Lexeme.apostrophe :: cs) =
      Lexeme.apostrophe :: Lexeme.unquote cs :=
  (if_pos rfl).trans (if_pos rfl)

/-- An apostrophe is doubled, and any other character stays. -/
theorem doubled_cons (c : Char) (s : List Char) :
    doubled (c :: s) = (if c = Lexeme.apostrophe then [c, c] else [c]) ++ doubled s :=
  List.flatMap_cons

/-- A string ends at the first quote that is not doubled. -/
theorem stringExtent?_doubled (s : List Char) {rest : List Char}
    (h : rest.head? ≠ some Lexeme.apostrophe) :
    Lexeme.stringExtent? (doubled s ++ Lexeme.apostrophe :: rest) =
      some ((doubled s).length + 1) := by
  induction s with
  | nil =>
      cases rest with
      | nil => rfl
      | cons d rest =>
          have hd : d ≠ Lexeme.apostrophe := fun heq => h (congrArg some heq)
          exact (if_pos rfl).trans (if_neg hd)
  | cons c s ih =>
      rw [doubled_cons]
      split
      · rename_i hc
        subst hc
        rw [List.append_assoc, List.cons_append, List.singleton_append, stringExtent?_quote, ih]
        simp
      · rename_i hc
        rw [List.append_assoc, List.singleton_append, stringExtent?_cons hc (by simp), ih]
        simp

/-- A string is read back from its doubled apostrophes. -/
theorem unquote_doubled (s : List Char) :
    Lexeme.unquote (doubled s ++ [Lexeme.apostrophe]) = s := by
  induction s with
  | nil => rfl
  | cons c s ih =>
      rw [doubled_cons]
      split
      · rename_i hc
        subst hc
        rw [List.append_assoc, List.cons_append, List.singleton_append, unquote_quote, ih]
      · rename_i hc
        rw [List.append_assoc, List.singleton_append, unquote_cons hc, ih]

/-! ## Words -/

/-- A text starts as its first part does. -/
theorem head?_of_splitDots {cs tail : List Char} {c : Char} {others : List (List Char)}
    (h : Identifier.splitDots cs = (c :: tail) :: others) : cs.head? = some c := by
  cases cs with
  | nil => simp [Identifier.splitDots] at h
  | cons d more =>
      obtain ⟨next, further, hnext⟩ := List.exists_cons_of_ne_nil (Identifier.splitDots_ne_nil more)
      rw [Identifier.splitDots, hnext] at h
      split at h
      · simp at h
      · exact congrArg some (List.cons.inj (List.cons.inj h).1).1

/-- A word goes on to where nothing belongs to it. -/
theorem wordExtent_append {more rest : List Char} {first : List Char} {others : List (List Char)}
    (hsplit : Identifier.splitDots more = first :: others) (hfirst : first.all Named.inName = true)
    (hothers : ∀ part ∈ others, IsWord part) (hrest : EndsWord rest) :
    Lexeme.wordExtent (more ++ rest) = more.length := by
  induction more generalizing first others with
  | nil =>
      cases rest with
      | nil => rfl
      | cons c rest =>
          have hc : Named.inName c = false := by simpa using hrest.1
          have hdot : ¬(c = '.' && rest.head?.any Named.startsName) = true := by
            simp only [Bool.and_eq_true, decide_eq_true_eq, not_and]
            rintro rfl
            cases rest with
            | nil => simp
            | cons d rest => simpa using hrest.2 d rest rfl
          rw [List.nil_append, Lexeme.wordExtent, if_neg (by simpa [hc] using hdot)]
          rfl
  | cons c more ih =>
      rw [Identifier.splitDots] at hsplit
      split at hsplit <;> rename_i hdot
      · -- A dot is followed by the first part of the rest, which is a word.
        subst hdot
        obtain ⟨rfl, hmore⟩ := List.cons.inj hsplit
        obtain ⟨next, further, hnext⟩ :=
          List.exists_cons_of_ne_nil (Identifier.splitDots_ne_nil more)
        rw [← hmore, hnext] at hothers
        obtain ⟨d, tail, rfl, hd, htail⟩ := hothers _ List.mem_cons_self
        have hhead : (more ++ rest).head? = some d := by
          rw [List.head?_append, head?_of_splitDots hnext]
          rfl
        have hnextAll : (d :: tail).all Named.inName = true := by
          simp [Named.inName_of_startsName hd, htail]
        rw [List.cons_append, Lexeme.wordExtent, if_pos (by simp [hhead, hd]),
          ih hnext hnextAll fun part hpart => hothers part (List.mem_cons_of_mem _ hpart)]
        rfl
      · obtain ⟨next, further, hnext⟩ :=
          List.exists_cons_of_ne_nil (Identifier.splitDots_ne_nil more)
        rw [hnext] at hsplit
        obtain ⟨rfl, rfl⟩ := List.cons.inj hsplit
        obtain ⟨hc, htail⟩ := Bool.and_eq_true_iff.1 (List.all_cons.symm.trans hfirst)
        rw [List.cons_append, Lexeme.wordExtent, if_pos (by simp [hc]),
          ih hnext htail hothers, List.length_cons]

/-- The letters and the underscore by their code points. -/
theorem startsName_iff_toNat {c : Char} : Named.startsName c = true ↔
    c.toNat = 95 ∨ (65 ≤ c.toNat ∧ c.toNat ≤ 90) ∨ (97 ≤ c.toNat ∧ c.toNat ≤ 122) := by
  have halpha : c.isAlpha =
      (decide (c.val ≥ 65 ∧ c.val ≤ 90) || decide (c.val ≥ 97) && decide (c.val ≤ 122)) := rfl
  simp [Named.startsName, halpha, UInt32.le_iff_toNat_le, ← Char.toNat_inj]

/-- No digit starts a name. -/
theorem isDigit_of_startsName {c : Char} (h : Named.startsName c = true) : c.isDigit = false := by
  rw [Bool.eq_false_iff]
  intro hdigit
  have hname := startsName_iff_toNat.1 h
  have hrange := Char.isDigit_iff_toNat.1 hdigit
  simp only [Char.reduceToNat] at hrange
  omega

/-- No white space starts a name. -/
theorem isBlank_of_startsName {c : Char} (h : Named.startsName c = true) :
    Text.isBlank c = false := by
  have hname := startsName_iff_toNat.1 h
  simp only [Text.isBlank, Bool.or_eq_false_iff, Bool.and_eq_false_iff, decide_eq_false_iff_not,
    beq_eq_false_iff_ne]
  omega

/-- What does not start with a symbol or a character that is refused is a number or a
word. -/
theorem extent_cons {c : Char} {rest : List Char} (h : c ∉ symbols ++ [';', '\x22', '\x60'])
    (hcomment : Lexeme.opensComment c rest = false) :
    Lexeme.extent c rest =
      if Lexeme.opensNumber c rest then Lexeme.numberExtent rest
      else if Named.startsName c then .ok (Lexeme.wordExtent rest)
      else .error (.unexpected c) := by
  simp only [symbols, List.cons_append, List.nil_append, List.mem_cons, List.not_mem_nil, not_or,
    or_false] at h
  obtain ⟨h1, h2, h3, h4, h5, h6, h7, h8, h9, h10, h11⟩ := h
  simp [Lexeme.extent, hcomment, h1, h2, h3, h4, h5, h6, h7, h8, h9, h10, h11]

/-- What starts a name extends as far as the word. -/
theorem extent_word {c : Char} (h : Named.startsName c = true) (rest : List Char) :
    Lexeme.extent c rest = .ok (Lexeme.wordExtent rest) := by
  have hne : ∀ d : Char, Named.startsName d = false → c ≠ d := by
    rintro d hd rfl
    exact Bool.false_ne_true (hd.symm.trans h)
  have hcomment : Lexeme.opensComment c rest = false := by
    simp [Lexeme.opensComment, hne '#' (by decide), hne '-' (by decide), hne '/' (by decide)]
  have hnumber : Lexeme.opensNumber c rest = false := by
    simp [Lexeme.opensNumber, isDigit_of_startsName h, hne '-' (by decide)]
  rw [extent_cons (not_mem_of_all (by decide) h) hcomment, hnumber, h]
  rfl

/-! ## Numbers -/

/-- What ends a number is neither a digit nor a point. -/
theorem EndsNumber.head? {rest : List Char} (h : EndsNumber rest) :
    rest.head?.any Char.isDigit = false ∧ rest.head? ≠ some '.' := by
  cases rest with
  | nil => exact ⟨rfl, by simp⟩
  | cons c rest =>
      have hc : ¬(c = '.') ∧ Named.inName c = false := by simpa [EndsNumber] using h
      have hdigit : c.isDigit = false := by
        have hin := hc.2
        simp only [Named.inName, Char.isAlphanum, Bool.or_eq_false_iff] at hin
        exact hin.2.2
      exact ⟨hdigit, fun heq => hc.1 (Option.some.inj heq)⟩

/-- The extent of an integer is its digits. -/
theorem numberExtent_int {whole rest : List Char} (h : whole.all Char.isDigit = true)
    (hrest : EndsNumber rest) : Lexeme.numberExtent (whole ++ rest) = .ok whole.length := by
  have hhead := hrest.head?
  rw [Lexeme.numberExtent, Text.takeWhile_run h hhead.1, List.drop_left]
  split
  · exact absurd rfl hhead.2
  · exact if_neg (Bool.eq_false_iff.1 hrest)

/-- The extent of a number with a fraction is its digits and the point. -/
theorem numberExtent_float {whole fraction rest : List Char} (h : whole.all Char.isDigit = true)
    (hfraction : IsDigits fraction) (hrest : EndsNumber rest) :
    Lexeme.numberExtent (whole ++ '.' :: fraction ++ rest) =
      .ok (whole ++ '.' :: fraction).length := by
  have hstop : ('.' :: (fraction ++ rest)).head?.any Char.isDigit = false := rfl
  have hlength : ¬fraction.length = 0 := fun heq => hfraction.1 (List.length_eq_zero_iff.1 heq)
  rw [List.append_assoc, List.cons_append, Lexeme.numberExtent, Text.takeWhile_run h hstop,
    List.drop_left]
  simp only [Text.takeWhile_run hfraction.2 hrest.head?.1, if_neg hlength, List.drop_succ_cons,
    List.drop_left, List.length_append, List.length_cons]
  exact if_neg (Bool.eq_false_iff.1 hrest)

/-- A digit starts no comment, and neither does a sign with a digit after it. -/
theorem opensComment_of_opensNumber {c : Char} {rest : List Char}
    (h : Lexeme.opensNumber c rest = true) : Lexeme.opensComment c rest = false := by
  rw [Lexeme.opensNumber, Bool.or_eq_true, Bool.and_eq_true] at h
  rcases h with hdigit | ⟨hminus, hdigit⟩
  · have hne : ∀ d : Char, d.isDigit = false → c ≠ d := by
      rintro d hd rfl
      exact Bool.false_ne_true (hd.symm.trans hdigit)
    simp [Lexeme.opensComment, hne '#' (by decide), hne '-' (by decide), hne '/' (by decide)]
  · obtain rfl : c = '-' := by simpa using hminus
    cases rest with
    | nil => simp at hdigit
    | cons d rest =>
        have hd : d ≠ '-' := by
          rintro rfl
          exact absurd hdigit (show ¬Char.isDigit '-' = true by decide)
        simp [Lexeme.opensComment, hd]

/-- What opens a number extends as far as the number. -/
theorem extent_number {c : Char} {rest : List Char} (h : Lexeme.opensNumber c rest = true) :
    Lexeme.extent c rest = Lexeme.numberExtent rest := by
  have hsymbol : c ∉ symbols ++ [';', '\x22', '\x60'] :=
    not_mem_of_all (P := fun c => c = '-' || c.isDigit) (by decide) (head_of_opensNumber h)
  rw [extent_cons hsymbol (opensComment_of_opensNumber h), if_pos h]

/-- Digits with a sign are the integer that they spell, if it has 64 bits. -/
theorem ofNumber_int {negative : Bool} {digits : List Char} (h : IsDigits digits) {n : Int64}
    (hn : n.toInt =
      if negative then -(Text.natOfDigits digits : Int) else Text.natOfDigits digits) :
    Token.ofNumber (sign negative ++ digits) = .ok (.int n) := by
  have hhead := h.head? []
  have htake := Text.takeWhile_run h.2
    (show ([] : List Char).head?.any Char.isDigit = false from rfl)
  rw [List.append_nil] at hhead htake
  simp only [Token.ofNumber, head?_sign hhead, body_sign, htake, List.drop_length, ← hn]
  rw [if_pos ⟨n.le_toInt, n.toInt_lt⟩, Int64.ofInt_toInt]

/-- Digits with a point are the float nearest to the decimal number that they spell. -/
theorem ofNumber_float (negative : Bool) {whole : List Char} (h : IsDigits whole)
    (fraction : List Char) :
    Token.ofNumber (sign negative ++ (whole ++ '.' :: fraction)) =
      .ok (.float (Double.ofDecimal negative (Text.natOfDigits (whole ++ fraction))
        (-(fraction.length : Int)))) := by
  have hstop : ('.' :: fraction).head?.any Char.isDigit = false := rfl
  have htake := Text.takeWhile_run h.2 hstop
  simp only [Token.ofNumber, head?_sign (h.head? _), body_sign, htake, List.drop_left]

/-! ## Lexemes -/

/-- A text in front of another one is cut off by itself and read as a token. -/
def FirstOf (cs rest : List Char) (t : Token) : Prop :=
  ∃ c more, cs = c :: more ∧ Text.isBlank c = false ∧
    Lexeme.extent c (more ++ rest) = .ok more.length ∧ Token.read cs = .ok t

/-- A word is cut off where it ends. -/
theorem firstOf_word {cs rest : List Char} (h : ∀ part ∈ Identifier.splitDots cs, IsWord part)
    (hrest : EndsWord rest) {t : Token} (ht : Token.ofWord cs = .ok t) : FirstOf cs rest t := by
  obtain ⟨first, others, hsplit⟩ := List.exists_cons_of_ne_nil (Identifier.splitDots_ne_nil cs)
  rw [hsplit] at h
  obtain ⟨c, tail, rfl, hc, htail⟩ := h first List.mem_cons_self
  obtain ⟨more, rfl⟩ := List.head?_eq_some_iff.1 (head?_of_splitDots hsplit)
  have hmore : Identifier.splitDots more = tail :: others := by
    have hdot : c ≠ '.' := by
      rintro rfl
      exact absurd hc (by decide)
    obtain ⟨next, further, hnext⟩ := List.exists_cons_of_ne_nil (Identifier.splitDots_ne_nil more)
    rw [Identifier.splitDots, if_neg hdot, hnext] at hsplit
    obtain ⟨hfirst, rfl⟩ := List.cons.inj hsplit
    rw [hnext, (List.cons.inj hfirst).2]
  have hnumber : ¬Lexeme.opensNumber c [] = true := by
    simp [Lexeme.opensNumber, isDigit_of_startsName hc]
  refine ⟨c, more, rfl, isBlank_of_startsName hc, ?_, (read_word hc hnumber more).trans ht⟩
  rw [extent_word hc, wordExtent_append hmore htail
    (fun part hpart => h part (List.mem_cons_of_mem _ hpart)) hrest]

/-- Without a dot there is one part. -/
theorem splitDots_of_not_mem {cs : List Char} (h : '.' ∉ cs) : Identifier.splitDots cs = [cs] := by
  induction cs with
  | nil => rfl
  | cons c cs ih =>
      rw [List.mem_cons, not_or] at h
      rw [Identifier.splitDots, if_neg (Ne.symm h.1), ih h.2]

/-- What is a letter in upper case is a letter. -/
theorem isAlpha_of_toUpper {c : Char} (h : c.toUpper.isAlpha = true) : c.isAlpha = true := by
  have halpha : c.isAlpha = (c.isUpper || c.isLower) := rfl
  by_cases hlower : 'a'.val ≤ c.val ∧ c.val ≤ 'z'.val
  · have hcase : c.isLower = true := Bool.and_eq_true_iff.2 (hlower.imp decide_eq_true decide_eq_true)
    rw [halpha, hcase, Bool.or_true]
  · have hsame : c.toUpper = c := dif_neg hlower
    rwa [hsame] at h

/-- A keyword consists of letters, in whichever case it is written. -/
theorem isAlpha_of_keyword {k : Keyword} {cs : List Char}
    (h : String.ofList (cs.map Char.toUpper) = k.word) : ∀ c ∈ cs, c.isAlpha = true := by
  have hword : k.word.toList.all Char.isAlpha = true := by cases k <;> decide
  rw [← h, String.toList_ofList, List.all_map] at hword
  exact fun c hc => isAlpha_of_toUpper (List.all_eq_true.1 hword c hc)

/-- A keyword is cut off where the word ends, in whichever case it is written. -/
theorem firstOf_keyword {k : Keyword} {cs rest : List Char}
    (h : String.ofList (cs.map Char.toUpper) = k.word) (hrest : EndsWord rest) :
    FirstOf cs rest (.keyword k) := by
  have halpha := isAlpha_of_keyword h
  have hne : cs ≠ [] := by
    rintro rfl
    cases k <;> simp [Keyword.word] at h
  have hread : Token.ofWord cs = .ok (.keyword k) := by
    have hk : Keyword.ofWord? k.word = some k := by cases k <;> rfl
    simp only [Token.ofWord, h, hk]
  obtain ⟨c, more, rfl⟩ := List.exists_cons_of_ne_nil hne
  have hword : IsWord (c :: more) := by
    refine ⟨c, more, rfl, ?_, List.all_eq_true.2 fun d hd => ?_⟩
    · simp [Named.startsName, halpha c List.mem_cons_self]
    · simp [Named.inName, Char.isAlphanum, halpha d (List.mem_cons_of_mem _ hd)]
  have hdot : '.' ∉ c :: more := fun hmem => absurd (halpha '.' hmem) (by decide)
  refine firstOf_word (fun part hpart => ?_) hrest hread
  rw [splitDots_of_not_mem hdot, List.mem_singleton] at hpart
  rw [hpart]
  exact hword

/-- No white space opens a number. -/
theorem isBlank_of_opensNumber {c : Char} {rest : List Char}
    (h : Lexeme.opensNumber c rest = true) : Text.isBlank c = false := by
  have hc := head_of_opensNumber h
  simp only [Bool.or_eq_true, decide_eq_true_eq] at hc
  rcases hc with rfl | hdigit
  · decide
  · have hrange := Char.isDigit_iff_toNat.1 hdigit
    simp only [Char.reduceToNat] at hrange
    simp only [Text.isBlank, Bool.or_eq_false_iff, Bool.and_eq_false_iff,
      decide_eq_false_iff_not, beq_eq_false_iff_ne]
    omega

/-- Characters of a number: its sign or first digit, and the rest of them. -/
theorem exists_number_cons (negative : Bool) {digits : List Char} (h : IsDigits digits)
    (tail : List Char) : ∃ c whole, sign negative ++ (digits ++ tail) = c :: (whole ++ tail) ∧
      whole.all Char.isDigit = true ∧
        ∀ rest, Lexeme.opensNumber c (whole ++ tail ++ rest) = true := by
  cases negative with
  | true =>
      refine ⟨'-', digits, rfl, h.2, fun rest => ?_⟩
      rw [Lexeme.opensNumber, List.append_assoc, h.head?]
      rfl
  | false =>
      obtain ⟨c, whole, rfl⟩ := List.exists_cons_of_ne_nil h.1
      obtain ⟨hc, hwhole⟩ := Bool.and_eq_true_iff.1 (List.all_cons.symm.trans h.2)
      exact ⟨c, whole, rfl, hwhole, fun rest => by simp [Lexeme.opensNumber, hc]⟩

/-- A number is cut off where it ends. -/
theorem firstOf_number {c : Char} {more rest : List Char} {t : Token}
    (hopens : Lexeme.opensNumber c (more ++ rest) = true)
    (hextent : Lexeme.numberExtent (more ++ rest) = .ok more.length)
    (ht : Token.ofNumber (c :: more) = .ok t) : FirstOf (c :: more) rest t :=
  ⟨c, more, rfl, isBlank_of_opensNumber hopens, (extent_number hopens).trans hextent,
    (read_number hopens more).trans ht⟩

/-- A string is cut off behind its closing apostrophe, if no other one follows. -/
theorem firstOf_string (s : List Char) {rest : List Char}
    (hrest : rest.head? ≠ some Lexeme.apostrophe) :
    FirstOf (Lexeme.apostrophe :: (doubled s ++ [Lexeme.apostrophe])) rest
      (.string (String.ofList s)) := by
  have hcomment : Lexeme.opensComment Lexeme.apostrophe
      (doubled s ++ [Lexeme.apostrophe] ++ rest) = false := rfl
  refine ⟨_, _, rfl, rfl, ?_, ?_⟩
  · rw [Lexeme.extent, hcomment, if_neg Bool.false_ne_true, if_neg (by decide), if_pos rfl,
      List.append_assoc, List.singleton_append, stringExtent?_doubled s hrest, List.length_append]
    rfl
  · rw [Token.read, if_pos rfl, unquote_doubled]

/-- An operator is cut off, if what follows does not make another one of it. -/
theorem firstOf_comparison {op : Comparison} (h : op ≠ .like) {rest : List Char}
    (hrest : (Token.comparison op).Ends rest) :
    FirstOf op.toSql.toList rest (.comparison op) := by
  cases op with
  | like => exact absurd rfl h
  | eq => exact ⟨'=', [], rfl, rfl, rfl, rfl⟩
  | ne => exact ⟨'!', ['='], rfl, rfl, rfl, rfl⟩
  | le => exact ⟨'<', ['='], rfl, rfl, rfl, rfl⟩
  | ge => exact ⟨'>', ['='], rfl, rfl, rfl, rfl⟩
  | lt =>
      have hextent : Lexeme.extent '<' ([] ++ rest) =
          .ok (if rest.head? = some '=' || rest.head? = some '>' then 1 else 0) := rfl
      refine ⟨'<', [], rfl, rfl, hextent.trans (congrArg Except.ok (if_neg ?_)), rfl⟩
      have hnext : rest.head? ≠ some '=' ∧ rest.head? ≠ some '>' := hrest
      simpa using hnext
  | gt =>
      have hextent : Lexeme.extent '>' ([] ++ rest) =
          .ok (if rest.head? = some '=' then 1 else 0) := rfl
      exact ⟨'>', [], rfl, rfl, hextent.trans (congrArg Except.ok (if_neg hrest)), rfl⟩

/-- **What writes a token is read as it,** where nothing follows that belongs to it. -/
theorem firstOf_writes {cs rest : List Char} {t : Token} (h : Writes cs t) (hrest : t.Ends rest) :
    FirstOf cs rest t := by
  cases h with
  | string s => exact firstOf_string s hrest
  | name cs h hk hs =>
      refine firstOf_word h hrest ?_
      simp only [Token.ofWord, hk, if_neg hs]
  | keyword k cs h => exact firstOf_keyword h hrest
  | int negative digits h n hn =>
      obtain ⟨c, whole, hcs, hwhole, hopens⟩ := exists_number_cons negative h []
      have ht := ofNumber_int h hn
      rw [List.append_nil, List.append_nil] at hcs
      rw [hcs] at ht ⊢
      exact firstOf_number (by simpa using hopens rest) (numberExtent_int hwhole hrest) ht
  | float negative whole fraction h h' =>
      obtain ⟨c, more, hcs, hmore, hopens⟩ := exists_number_cons negative h ('.' :: fraction)
      have ht := ofNumber_float negative h fraction
      rw [hcs] at ht ⊢
      exact firstOf_number (hopens rest) (numberExtent_float hmore h' hrest) ht
  | comparison op h => exact firstOf_comparison h hrest
  | differ => exact ⟨'<', ['>'], rfl, rfl, rfl, rfl⟩
  | «open» => exact ⟨'(', [], rfl, rfl, rfl, rfl⟩
  | close => exact ⟨')', [], rfl, rfl, rfl, rfl⟩
  | comma => exact ⟨',', [], rfl, rfl, rfl, rfl⟩

/-! ## Texts -/

/-- White space has no lexemes. -/
theorem scanFrom_blanks {blanks : List Char} (h : blanks.all Text.isBlank = true) (offset : Nat) :
    Lexed.scanFrom offset blanks = ⟨[], offset + Text.utf8Size blanks, none⟩ := by
  have htake : blanks.takeWhile Text.isBlank = blanks :=
    List.takeWhile_eq_self_iff.2 (List.all_eq_true.1 h)
  have hdrop : blanks.dropWhile Text.isBlank = [] :=
    List.dropWhile_eq_nil_iff.2 (List.all_eq_true.1 h)
  rw [Lexed.scanFrom]
  split
  · rw [htake]
  · rename_i heq
    rw [hdrop] at heq
    simp at heq

/-- A lexeme and the lexemes behind it. -/
def Lexed.cons (l : Lexeme) (later : Lexed) : Lexed :=
  ⟨l :: later.lexemes, later.stop, later.fault?⟩

/-- A token behind white space is cut off at its place. -/
theorem scanFrom_append {blanks text rest : List Char} {t : Token}
    (h : blanks.all Text.isBlank = true) (htext : FirstOf text rest t) (offset : Nat) :
    Lexed.scanFrom offset (blanks ++ text ++ rest) =
      .cons ⟨text, offset + Text.utf8Size blanks, t⟩
        (Lexed.scanFrom (offset + Text.utf8Size blanks + Text.utf8Size text) rest) := by
  obtain ⟨c, more, rfl, hc, hextent, hread⟩ := htext
  have hdrop : (blanks ++ c :: more ++ rest).dropWhile Text.isBlank = c :: (more ++ rest) := by
    rw [List.append_assoc, List.cons_append,
      List.dropWhile_append_of_pos fun b hb => List.all_eq_true.1 h b hb, List.dropWhile_cons, hc]
    rfl
  have htake : (blanks ++ c :: more ++ rest).takeWhile Text.isBlank = blanks := by
    rw [List.append_assoc]
    exact Text.takeWhile_run h (Option.any_some.trans hc)
  rw [Lexed.scanFrom]
  split
  · rename_i heq
    rw [hdrop] at heq
    simp at heq
  · rename_i heq
    rw [hdrop] at heq
    obtain ⟨rfl, rfl⟩ := List.cons.inj heq
    simp only [hextent, List.take_left, hread, List.drop_left, htake]
    rfl

/-- **A text that can be cut is cut into these tokens.** -/
theorem scanFrom_of_cut {cs : List Char} {ls : List Lexeme} (h : Cut cs ls) (offset : Nat) :
    (Lexed.scanFrom offset cs).fault? = none ∧
      (Lexed.scanFrom offset cs).lexemes.map Lexeme.token = ls.map Lexeme.token := by
  induction h generalizing offset with
  | nil h =>
      rw [scanFrom_blanks h]
      exact ⟨rfl, rfl⟩
  | cons h hl hend _ ih =>
      rw [scanFrom_append h (firstOf_writes hl hend) offset]
      obtain ⟨hfault, htokens⟩ := ih _
      exact ⟨hfault, congrArg (_ :: ·) htokens⟩

/-- **There is one way to cut a text:** every cut has the tokens of the scan. -/
theorem tokens_of_cut {text : String} {ls : List Lexeme} (h : Cut text.toList ls) :
    ls.map Lexeme.token = (Lexed.scan text).tokens :=
  (scanFrom_of_cut h 0).2.symm

end ConditionText

end BoundSql
