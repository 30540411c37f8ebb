import BoundSql.ConditionText.Token
import BoundSql.Identifier
import BoundSql.Proofs.Text.Runs

/-!
# Lexemes of condition text

A text that is cut without a fault is a sequence of lexemes with white space before,
between and after them, and the characters of every lexeme write its token: a string
literal is its text in quotes with every quote inside doubled, a name stands for itself,
a keyword may be in any case, a number has the value of its digits.
-/

namespace BoundSql

namespace ConditionText

/-- The tokens of a text. -/
def Lexed.tokens (l : Lexed) : List Token := l.lexemes.map Lexeme.token

/-- A part of a name. -/
def IsWord (cs : List Char) : Prop :=
  ∃ c rest, cs = c :: rest ∧ Named.startsName c = true ∧ rest.all Named.inName = true

/-- The sign of a number. -/
def sign (negative : Bool) : List Char := if negative then ['-'] else []

/-- One or more digits. -/
def IsDigits (ds : List Char) : Prop := ds ≠ [] ∧ ds.all Char.isDigit = true

/-- A text with every quote in it doubled. -/
def doubled (s : List Char) : List Char :=
  s.flatMap fun c => if c = Lexeme.apostrophe then [c, c] else [c]

/-- Characters that write a token. -/
inductive Writes : List Char → Token → Prop
  | string (s : List Char) :
      Writes (Lexeme.apostrophe :: (doubled s ++ [Lexeme.apostrophe])) (.string (String.ofList s))
  /-- Parts with dots between them, all together no keyword and not SELECT. -/
  | name (cs : List Char) (h : ∀ part ∈ Identifier.splitDots cs, IsWord part)
      (hk : Keyword.ofWord? (String.ofList (cs.map Char.toUpper)) = none)
      (hs : String.ofList (cs.map Char.toUpper) ≠ "SELECT") : Writes cs (.name (String.ofList cs))
  | keyword (k : Keyword) (cs : List Char) (h : String.ofList (cs.map Char.toUpper) = k.word) :
      Writes cs (.keyword k)
  | int (negative : Bool) (digits : List Char) (h : IsDigits digits) (n : Int64)
      (hn : n.toInt =
        if negative then -(Text.natOfDigits digits : Int) else Text.natOfDigits digits) :
      Writes (sign negative ++ digits) (.int n)
  | float (negative : Bool) (whole fraction : List Char) (h : IsDigits whole)
      (h' : IsDigits fraction) :
      Writes (sign negative ++ (whole ++ '.' :: fraction))
        (.float (Double.ofDecimal negative (Text.natOfDigits (whole ++ fraction))
          (-(fraction.length : Int))))
  | comparison (op : Comparison) (h : op ≠ .like) : Writes op.toSql.toList (.comparison op)
  /-- Another way to write that two sides differ. -/
  | differ : Writes ['<', '>'] (.comparison .ne)
  | open : Writes ['('] .open
  | close : Writes [')'] .close
  | comma : Writes [','] .comma

/-- What follows does not continue a word: neither its last part nor by another part. -/
def EndsWord (rest : List Char) : Prop :=
  rest.head?.any Named.inName = false ∧
    ∀ c more, rest = '.' :: c :: more → Named.startsName c = false

/-- What follows does not continue a number and is no word. -/
def EndsNumber (rest : List Char) : Prop :=
  rest.head?.any (fun c => c == '.' || Named.inName c) = false

/-- What follows the characters of a token does not belong to it. -/
def Token.Ends : Token → List Char → Prop
  | .string _, rest => rest.head? ≠ some Lexeme.apostrophe
  | .name _, rest | .keyword _, rest => EndsWord rest
  | .int _, rest | .float _, rest => EndsNumber rest
  | .comparison .lt, rest => rest.head? ≠ some '=' ∧ rest.head? ≠ some '>'
  | .comparison .gt, rest => rest.head? ≠ some '='
  | _, _ => True

/-- A text as lexemes, each as long as it can be, with white space around them. -/
inductive Cut : List Char → List Lexeme → Prop
  | nil {blanks : List Char} (h : blanks.all Text.isBlank = true) : Cut blanks []
  | cons {blanks rest : List Char} {l : Lexeme} {ls : List Lexeme}
      (h : blanks.all Text.isBlank = true) (hl : Writes l.text l.token)
      (hend : l.token.Ends rest) (hrest : Cut rest ls) :
      Cut (blanks ++ l.text ++ rest) (l :: ls)

/-! ## Strings -/

/-- Another character than an apostrophe stands for itself. -/
theorem unquote_cons {c : Char} (hc : c ≠ Lexeme.apostrophe) (cs : List Char) :
    Lexeme.unquote (c :: cs) = c :: Lexeme.unquote cs := by
  cases cs with
  | nil => exact if_neg hc
  | cons d cs => exact if_neg hc

/-- The extent of a string literal is its text with quotes doubled, and the quote that
closes it. -/
theorem exists_of_stringExtent? {cs : List Char} {n : Nat}
    (h : Lexeme.stringExtent? cs = some n) :
    ∃ s : List Char, cs.take n = doubled s ++ [Lexeme.apostrophe] ∧
      Lexeme.unquote (cs.take n) = s ∧ (cs.drop n).head? ≠ some Lexeme.apostrophe := by
  fun_induction Lexeme.stringExtent? cs generalizing n
  case case1 | case3 => simp at h
  case case2 =>
      obtain rfl := Option.some.inj h
      exact ⟨[], rfl, rfl, by simp⟩
  case case5 d _ hd =>
      obtain rfl := Option.some.inj h
      exact ⟨[], rfl, rfl, fun hnext => hd (Option.some.inj hnext)⟩
  case case4 rest ih =>
      obtain ⟨m, hm, rfl⟩ := Option.map_eq_some_iff.1 h
      obtain ⟨s, hs, hunquote, hnext⟩ := ih hm
      refine ⟨Lexeme.apostrophe :: s, ?_, ?_, hnext⟩
      · rw [List.take_succ_cons, List.take_succ_cons, hs]
        rfl
      · rw [List.take_succ_cons, List.take_succ_cons, Lexeme.unquote, if_pos rfl, if_pos rfl,
          hunquote]
  case case6 c d rest hc ih =>
      obtain ⟨m, hm, rfl⟩ := Option.map_eq_some_iff.1 h
      obtain ⟨s, hs, hunquote, hnext⟩ := ih hm
      refine ⟨c :: s, ?_, ?_, hnext⟩
      · rw [List.take_succ_cons, hs, doubled, doubled, List.flatMap_cons, if_neg hc]
        rfl
      · rw [List.take_succ_cons, unquote_cons hc, hunquote]

/-! ## Words -/

/-- What belongs to a word after its first character: the rest of its first part, then
further parts. -/
theorem exists_splitDots_wordExtent (cs : List Char) :
    ∃ first others, Identifier.splitDots (cs.take (Lexeme.wordExtent cs)) = first :: others ∧
      first.all Named.inName = true ∧ (∀ part ∈ others, IsWord part) ∧
        (cs.head?.any Named.startsName = true → IsWord first) := by
  induction cs with
  | nil => exact ⟨[], [], rfl, rfl, by simp, by simp⟩
  | cons c rest ih =>
      obtain ⟨first, others, hsplit, hfirst, hothers, hword⟩ := ih
      rw [Lexeme.wordExtent]
      split <;> rename_i hc
      · rw [List.take_succ_cons, Identifier.splitDots]
        split
        · rename_i hdot
          subst hdot
          have hnext : rest.head?.any Named.startsName = true := by
            simpa [show Named.inName '.' = false by decide] using hc
          rw [hsplit]
          refine ⟨[], first :: others, rfl, rfl, ?_,
            fun h => absurd h (show ¬Named.startsName '.' = true by decide)⟩
          intro part hpart
          rcases List.mem_cons.1 hpart with rfl | hpart
          · exact hword hnext
          · exact hothers part hpart
        · rename_i hdot
          have hin : Named.inName c = true := by simpa [hdot] using hc
          rw [hsplit]
          exact ⟨c :: first, others, rfl, by simp [hin, hfirst], hothers,
            fun h => ⟨c, first, rfl, by simpa using h, hfirst⟩⟩
      · refine ⟨[], [], rfl, rfl, by simp, fun h => ?_⟩
        exact absurd (Named.inName_of_startsName (by simpa using h)) fun hin => hc (by simp [hin])

/-- A word and the rest of it are parts with dots between them. -/
theorem isWord_of_mem_splitDots {c : Char} (hc : Named.startsName c = true) (rest : List Char) :
    ∀ part ∈ Identifier.splitDots (c :: rest.take (Lexeme.wordExtent rest)), IsWord part := by
  obtain ⟨first, others, hsplit, hfirst, hothers, -⟩ := exists_splitDots_wordExtent rest
  have hdot : c ≠ '.' := by
    rintro rfl
    exact absurd hc (by decide)
  rw [Identifier.splitDots, if_neg hdot, hsplit]
  intro part hpart
  rcases List.mem_cons.1 hpart with rfl | hpart
  · exact ⟨c, first, rfl, hc, hfirst⟩
  · exact hothers part hpart

/-- A word is as long as it can be. -/
theorem endsWord_drop (cs : List Char) : EndsWord (cs.drop (Lexeme.wordExtent cs)) := by
  induction cs with
  | nil => exact ⟨rfl, fun _ _ h => absurd h (by simp)⟩
  | cons c rest ih =>
      rw [Lexeme.wordExtent]
      split <;> rename_i hc
      · exact ih
      · simp only [Bool.or_eq_true, Bool.and_eq_true, decide_eq_true_eq, not_or, not_and] at hc
        refine ⟨by simpa using hc.1, ?_⟩
        rintro d more heq
        obtain ⟨rfl, rfl⟩ := List.cons.inj heq
        simpa using hc.2 rfl

/-- A word that is cut off writes its keyword or its name, and what follows ends it. -/
theorem writes_ofWord {cs rest : List Char} (h : ∀ part ∈ Identifier.splitDots cs, IsWord part)
    (hrest : EndsWord rest) {t : Token} (ht : Token.ofWord cs = .ok t) :
    Writes cs t ∧ t.Ends rest := by
  rw [Token.ofWord] at ht
  split at ht
  · rename_i k hk
    obtain rfl := Except.ok.inj ht
    have hword : k.word = String.ofList (cs.map Char.toUpper) := by
      simpa using List.find?_some (show Keyword.all.find? _ = some k from hk)
    exact ⟨.keyword k cs hword.symm, hrest⟩
  · rename_i hk
    split at ht
    · simp at ht
    · rename_i hs
      obtain rfl := Except.ok.inj ht
      exact ⟨.name cs h hk hs, hrest⟩

/-! ## Numbers -/

/-- The extent of a number after its first character is a run of digits, or two of them
with a point between. -/
theorem exists_of_numberExtent {cs : List Char} {n : Nat}
    (h : Lexeme.numberExtent cs = .ok n) :
    ∃ whole : List Char, whole.all Char.isDigit = true ∧
      (cs.head?.any Char.isDigit = true → whole ≠ []) ∧
      (cs.take n = whole ∨
        ∃ fraction, IsDigits fraction ∧ cs.take n = whole ++ '.' :: fraction) := by
  obtain ⟨whole, rest, hwhole, rfl, hrest⟩ := Text.exists_run Char.isDigit cs
  have hhead : (whole ++ rest).head?.any Char.isDigit = true → whole ≠ [] := by
    rintro hdigit rfl
    rw [List.nil_append, hrest] at hdigit
    exact Bool.false_ne_true hdigit
  refine ⟨whole, hwhole, hhead, ?_⟩
  rw [Lexeme.numberExtent, Text.takeWhile_run hwhole hrest, List.drop_left] at h
  split at h
  · rename_i more
    split at h
    · simp at h
    · obtain rfl := Except.ok.inj h
      rw [List.take_length_add_append]
      by_cases hlength : (more.takeWhile Char.isDigit).length = 0
      · exact .inl (by simp [hlength])
      · simp only [if_neg hlength]
        have hne : more.takeWhile Char.isDigit ≠ [] :=
          fun h => hlength (List.length_eq_zero_iff.2 h)
        have htake : more.take (more.takeWhile Char.isDigit).length = more.takeWhile Char.isDigit :=
          (List.prefix_iff_eq_take.1 (List.takeWhile_prefix _)).symm
        rw [List.take_succ_cons, htake]
        exact .inr ⟨_, ⟨hne, List.all_takeWhile⟩, rfl⟩
  · split at h
    · simp at h
    · obtain rfl := Except.ok.inj h
      exact .inl (by simp)

/-- A number is as long as it can be. -/
theorem endsNumber_drop {cs : List Char} {n : Nat} (h : Lexeme.numberExtent cs = .ok n) :
    EndsNumber (cs.drop n) := by
  have hchecked : ∀ whole fraction : Nat,
      (if ((cs.drop whole).drop fraction).head?.any (fun c => c == '.' || Named.inName c) then
        .error .invalidNumber
      else .ok (whole + fraction) : Except LexFault Nat) = .ok n → EndsNumber (cs.drop n) := by
    intro whole fraction h
    split at h <;> rename_i hnext
    · simp at h
    · obtain rfl := Except.ok.inj h
      rw [List.drop_drop] at hnext
      exact Bool.eq_false_iff.2 hnext
  exact hchecked _ _ h

/-- A minus sign in front of digits is the sign. -/
theorem head?_sign {negative : Bool} {body : List Char} (h : body.head?.any Char.isDigit = true) :
    ((sign negative ++ body).head? == some '-') = negative := by
  cases negative with
  | true => rfl
  | false =>
      cases body with
      | nil => simp at h
      | cons c body =>
          have hc : c ≠ '-' := by
            rintro rfl
            simp at h
          simpa [sign] using hc

/-- Without its sign a number is its digits. -/
theorem body_sign (negative : Bool) (body : List Char) :
    (if negative then (sign negative ++ body).drop 1 else sign negative ++ body) = body := by
  cases negative <;> rfl

/-- A run of digits starts with a digit, whatever comes behind it. -/
theorem IsDigits.head? {ds : List Char} (h : IsDigits ds) (rest : List Char) :
    (ds ++ rest).head?.any Char.isDigit = true := by
  obtain ⟨hne, hall⟩ := h
  cases ds with
  | nil => exact absurd rfl hne
  | cons c ds => simpa using (Bool.and_eq_true_iff.1 hall).1

/-- The token of a run of digits is its value. -/
theorem writes_ofNumber_int {negative : Bool} {whole : List Char} (hwhole : IsDigits whole)
    {rest : List Char} (hrest : EndsNumber rest) {t : Token}
    (ht : Token.ofNumber (sign negative ++ whole) = .ok t) :
    Writes (sign negative ++ whole) t ∧ t.Ends rest := by
  have hhead := hwhole.head? []
  rw [List.append_nil] at hhead
  have hstop : ([] : List Char).head?.any Char.isDigit = false := rfl
  have htake := Text.takeWhile_run hwhole.2 hstop
  rw [List.append_nil] at htake
  simp only [Token.ofNumber, head?_sign hhead, body_sign, htake, List.drop_length] at ht
  generalize hn : (if negative then -(Text.natOfDigits whole : Int) else Text.natOfDigits whole) = n
    at ht
  split at ht
  · rename_i hrange
    obtain rfl := Except.ok.inj ht
    exact ⟨.int negative whole hwhole _
      ((Int64.toInt_ofInt_of_le hrange.1 hrange.2).trans hn.symm), hrest⟩
  · simp at ht

/-- The token of two runs of digits with a point between is their value. -/
theorem writes_ofNumber_float {negative : Bool} {whole fraction : List Char}
    (hwhole : IsDigits whole) (hfraction : IsDigits fraction) {rest : List Char}
    (hrest : EndsNumber rest) {t : Token}
    (ht : Token.ofNumber (sign negative ++ (whole ++ '.' :: fraction)) = .ok t) :
    Writes (sign negative ++ (whole ++ '.' :: fraction)) t ∧ t.Ends rest := by
  have hstop : ('.' :: fraction).head?.any Char.isDigit = false := rfl
  have htake := Text.takeWhile_run hwhole.2 hstop
  simp only [Token.ofNumber, head?_sign (hwhole.head? _), body_sign, htake, List.drop_left] at ht
  obtain rfl := Except.ok.inj ht
  exact ⟨.float negative whole fraction hwhole hfraction, hrest⟩

/-! ## Lexemes -/

/-- What starts a string, a comparison or a token of one character. -/
def symbols : List Char := [Lexeme.apostrophe, '(', ')', ',', '=', '!', '<', '>']

/-- What does not start with a symbol is a number or a word. -/
theorem read_cons {c : Char} (h : c ∉ symbols) (rest : List Char) :
    Token.read (c :: rest) =
      if c = '-' || c.isDigit then Token.ofNumber (c :: rest) else Token.ofWord (c :: rest) := by
  simp only [symbols, List.mem_cons, List.not_mem_nil, not_or, or_false] at h
  obtain ⟨h1, h2, h3, h4, h5, h6, h7, h8⟩ := h
  simp [Token.read, h1, h2, h3, h4, h5, h6, h7, h8]

/-- What has a property that none of some characters has is none of them. -/
theorem not_mem_of_all {P : Char → Bool} {others : List Char}
    (hothers : others.all (fun c => !P c) = true) {c : Char} (h : P c = true) : c ∉ others := by
  intro hmem
  have hc := List.all_eq_true.1 hothers c hmem
  rw [h] at hc
  exact Bool.false_ne_true hc

/-- A number starts with a minus sign or a digit. -/
theorem head_of_opensNumber {c : Char} {rest : List Char}
    (h : Lexeme.opensNumber c rest = true) : (c = '-' || c.isDigit) = true := by
  simp only [Lexeme.opensNumber, Bool.or_eq_true, Bool.and_eq_true, beq_iff_eq,
    decide_eq_true_eq] at h ⊢
  exact h.symm.imp And.left id

/-- What opens a number is read as one. -/
theorem read_number {c : Char} {rest : List Char} (h : Lexeme.opensNumber c rest = true)
    (more : List Char) : Token.read (c :: more) = Token.ofNumber (c :: more) := by
  have hc := head_of_opensNumber h
  have hsymbol : c ∉ symbols :=
    not_mem_of_all (P := fun c => c = '-' || c.isDigit) (by decide) hc
  rw [read_cons hsymbol, if_pos hc]

/-- What starts a name and opens no number is read as a word. -/
theorem read_word {c : Char} {rest : List Char} (h : Named.startsName c = true)
    (hnumber : ¬Lexeme.opensNumber c rest = true) (more : List Char) :
    Token.read (c :: more) = Token.ofWord (c :: more) := by
  rw [read_cons (not_mem_of_all (by decide) h), if_neg]
  simp only [Bool.or_eq_true, decide_eq_true_eq]
  rintro (rfl | hdigit)
  · exact absurd h (by decide)
  · exact hnumber (by simp [Lexeme.opensNumber, hdigit])

/-- A number that is cut off writes its token, and what follows ends it. -/
theorem writes_number {c : Char} {rest : List Char} {n : Nat} {t : Token}
    (hopens : Lexeme.opensNumber c rest = true) (hn : Lexeme.numberExtent rest = .ok n)
    (ht : Token.ofNumber (c :: rest.take n) = .ok t) :
    Writes (c :: rest.take n) t ∧ t.Ends (rest.drop n) := by
  obtain ⟨whole, hwhole, hne, hextent⟩ := exists_of_numberExtent hn
  -- The first character is a digit of the number or its sign.
  have hparts : ∃ negative digits, IsDigits digits ∧ c :: whole = sign negative ++ digits := by
    rw [Lexeme.opensNumber, Bool.or_eq_true, Bool.and_eq_true] at hopens
    rcases hopens with hdigit | ⟨hminus, hdigit⟩
    · exact ⟨false, c :: whole, ⟨List.cons_ne_nil _ _, by simp [hdigit, hwhole]⟩, rfl⟩
    · obtain rfl : c = '-' := by simpa using hminus
      exact ⟨true, whole, ⟨hne hdigit, hwhole⟩, rfl⟩
  obtain ⟨negative, digits, hdigits, heq⟩ := hparts
  rcases hextent with htake | ⟨fraction, hfraction, htake⟩
  · rw [htake, heq] at ht ⊢
    exact writes_ofNumber_int hdigits (endsNumber_drop hn) ht
  · rw [htake, ← List.cons_append, heq, List.append_assoc] at ht ⊢
    exact writes_ofNumber_float hdigits hfraction (endsNumber_drop hn) ht

/-- A string that is cut off writes its token, and what follows ends it. -/
theorem writes_string {rest : List Char} {n : Nat} {t : Token}
    (hn : Lexeme.stringExtent? rest = some n)
    (ht : Token.read (Lexeme.apostrophe :: rest.take n) = .ok t) :
    Writes (Lexeme.apostrophe :: rest.take n) t ∧ t.Ends (rest.drop n) := by
  obtain ⟨s, hs, hunquote, hnext⟩ := exists_of_stringExtent? hn
  rw [Token.read, if_pos rfl, hunquote] at ht
  obtain rfl := Except.ok.inj ht
  rw [hs]
  exact ⟨.string s, hnext⟩

/-- What is cut off from a less-than sign on writes its comparison, and what follows ends it. -/
theorem writes_less {rest : List Char} {n : Nat} {t : Token}
    (hn : (.ok (if rest.head? = some '=' || rest.head? = some '>' then 1 else 0) :
      Except LexFault Nat) = .ok n)
    (ht : Token.read ('<' :: rest.take n) = .ok t) :
    Writes ('<' :: rest.take n) t ∧ t.Ends (rest.drop n) := by
  obtain rfl := Except.ok.inj hn
  split at ht <;> rename_i hnext
  · rw [if_pos hnext]
    simp only [Bool.or_eq_true, decide_eq_true_eq] at hnext
    rcases hnext with hnext | hnext
    · obtain ⟨more, rfl⟩ := List.head?_eq_some_iff.1 hnext
      obtain rfl := Except.ok.inj ht
      exact ⟨.comparison .le (by simp), trivial⟩
    · obtain ⟨more, rfl⟩ := List.head?_eq_some_iff.1 hnext
      obtain rfl := Except.ok.inj ht
      exact ⟨.differ, trivial⟩
  · rw [if_neg hnext]
    obtain rfl := Except.ok.inj ht
    simp only [Bool.or_eq_true, decide_eq_true_eq, not_or] at hnext
    exact ⟨.comparison .lt (by simp), hnext⟩

/-- What is cut off from a greater-than sign on writes its comparison, and what follows ends it. -/
theorem writes_greater {rest : List Char} {n : Nat} {t : Token}
    (hn : (.ok (if rest.head? = some '=' then 1 else 0) : Except LexFault Nat) = .ok n)
    (ht : Token.read ('>' :: rest.take n) = .ok t) :
    Writes ('>' :: rest.take n) t ∧ t.Ends (rest.drop n) := by
  obtain rfl := Except.ok.inj hn
  split at ht <;> rename_i hnext
  · rw [if_pos hnext]
    obtain ⟨more, rfl⟩ := List.head?_eq_some_iff.1 hnext
    obtain rfl := Except.ok.inj ht
    exact ⟨.comparison .ge (by simp), trivial⟩
  · rw [if_neg hnext]
    obtain rfl := Except.ok.inj ht
    exact ⟨.comparison .gt (by simp), hnext⟩

/-- The characters of a lexeme write its token, and what follows does not belong to it. -/
theorem writes_read {c : Char} {rest : List Char} {n : Nat} {t : Token}
    (hn : Lexeme.extent c rest = .ok n) (ht : Token.read (c :: rest.take n) = .ok t) :
    Writes (c :: rest.take n) t ∧ t.Ends (rest.drop n) := by
  rw [Lexeme.extent] at hn
  split at hn
  · simp at hn
  split at hn
  · simp at hn
  split at hn
  · rename_i hc
    subst hc
    split at hn
    · rename_i m hm
      obtain rfl := Except.ok.inj hn
      exact writes_string hm ht
    · simp at hn
  split at hn
  · simp at hn
  split at hn
  · rename_i hc
    obtain rfl := Except.ok.inj hn
    simp only [Bool.or_eq_true, decide_eq_true_eq] at hc
    obtain (((rfl | rfl) | rfl) | rfl) := hc
    · obtain rfl := Except.ok.inj ht
      exact ⟨.open, trivial⟩
    · obtain rfl := Except.ok.inj ht
      exact ⟨.close, trivial⟩
    · obtain rfl := Except.ok.inj ht
      exact ⟨.comma, trivial⟩
    · obtain rfl := Except.ok.inj ht
      exact ⟨.comparison .eq (by simp), trivial⟩
  split at hn
  · rename_i hc
    obtain rfl := Except.ok.inj hn
    simp only [Bool.and_eq_true, decide_eq_true_eq] at hc
    obtain ⟨rfl, hrest⟩ := hc
    obtain ⟨more, rfl⟩ := List.head?_eq_some_iff.1 hrest
    obtain rfl := Except.ok.inj ht
    exact ⟨.comparison .ne (by simp), trivial⟩
  split at hn
  · rename_i hc
    subst hc
    exact writes_less hn ht
  split at hn
  · rename_i hc
    subst hc
    exact writes_greater hn ht
  split at hn
  · rename_i hopens
    rw [read_number hopens] at ht
    exact writes_number hopens hn ht
  split at hn
  · rename_i hnumber hc
    obtain rfl := Except.ok.inj hn
    rw [read_word hc hnumber] at ht
    exact writes_ofWord (isWord_of_mem_splitDots hc rest) (endsWord_drop rest) ht
  · simp at hn

/-- **A text that is cut without a fault is its lexemes with white space around them.** -/
theorem cut_scanFrom {offset : Nat} {cs : List Char}
    (h : (Lexed.scanFrom offset cs).fault? = none) : Cut cs (Lexed.scanFrom offset cs).lexemes := by
  have hblanks : ∀ cs : List Char, (cs.takeWhile Text.isBlank).all Text.isBlank = true :=
    fun _ => List.all_takeWhile
  have hsplit : ∀ cs : List Char, cs.takeWhile Text.isBlank ++ cs.dropWhile Text.isBlank = cs :=
    fun _ => List.takeWhile_append_dropWhile
  fun_induction Lexed.scanFrom offset cs
  case case1 cs _ heq =>
      rw [← hsplit cs, heq, List.append_nil]
      exact .nil (hblanks cs)
  case case2 | case3 => simp at h
  case case4 cs _ c rest heq n hn text t ht later ih =>
      have hcs : cs = cs.takeWhile Text.isBlank ++ text ++ rest.drop n := by
        rw [List.append_assoc, List.cons_append, List.take_append_drop, ← heq, hsplit]
      rw [hcs]
      obtain ⟨hwrites, hends⟩ := writes_read hn ht
      exact .cons (l := ⟨text, _, t⟩) (hblanks cs) hwrites hends (ih h)

end ConditionText

end BoundSql
