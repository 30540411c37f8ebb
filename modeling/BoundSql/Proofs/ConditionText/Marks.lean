import BoundSql.Proofs.ConditionText.Acceptance
import BoundSql.Proofs.ConditionText.Scanning

/-!
# Marks of comments, statements and quoted names

A mark is refused where it starts a lexeme.  Besides string literals only a negative
number has a character of a mark in it, its sign, and a digit comes next.  White space has
none.  So in a text that can be cut every mark stands in a string literal, between its
quotes; this includes marks of two characters that would belong to lexemes next to each
other.
-/

namespace BoundSql

namespace ConditionText

/-- What separates statements, opens a comment, or quotes a name. -/
def marks : List (List Char) := [[';'], ['#'], ['\x60'], ['\x22'], ['-', '-'], ['/', '*']]

/-- A character that no mark starts with. -/
def isPlain (c : Char) : Bool := marks.all fun mark => mark.head? != some c

/-- A part of a text stands in a string literal, between the quotes.  The text before it
ends in the literal, behind other lexemes, and the text after it starts there. -/
inductive InString (part : List Char) : List Lexeme → List Char → List Char → Prop
  | intro {front back : List Lexeme} {l : Lexeme} {s : String}
      {textBefore opening closing textAfter : List Char} (hs : l.token = .string s)
      (htext : l.text = Lexeme.apostrophe :: (opening ++ part ++ closing ++ [Lexeme.apostrophe]))
      (hfront : Cut textBefore front) (hback : Cut textAfter back) :
      InString part (front ++ l :: back) (textBefore ++ Lexeme.apostrophe :: opening)
        (closing ++ Lexeme.apostrophe :: textAfter)

/-- Wherever a text has a mark, the mark stands in a string literal. -/
def MarksInStrings (cs : List Char) (ls : List Lexeme) : Prop :=
  ∀ mark ∈ marks, ∀ before after, cs = before ++ mark ++ after → InString mark ls before after

variable {cs mark before after rest : List Char}

/-! ## Marks beside plain characters -/

/-- A mark starts with a character that is neither plain nor an apostrophe. -/
theorem exists_head_of_mem_marks (h : mark ∈ marks) :
    ∃ c more, mark = c :: more ∧ isPlain c = false ∧ c ≠ Lexeme.apostrophe := by
  obtain ⟨c, more, rfl⟩ : ∃ c more, mark = c :: more := by
    refine List.exists_cons_of_ne_nil ?_
    rintro rfl
    simp [marks] at h
  refine ⟨c, more, rfl, ?_, ?_⟩
  · rw [isPlain, List.all_eq_false]
    exact ⟨_, h, by simp⟩
  · rintro rfl
    simp [marks, Lexeme.apostrophe] at h

/-- No mark contains an apostrophe. -/
theorem apostrophe_not_mem_mark (h : mark ∈ marks) : Lexeme.apostrophe ∉ mark := by
  have hall : marks.all (fun mark => mark.all (· != Lexeme.apostrophe)) = true := by decide
  intro hmem
  have hmark := List.all_eq_true.1 (List.all_eq_true.1 hall mark h) _ hmem
  exact absurd hmark (by simp)

/-- A mark does not start among plain characters. -/
theorem exists_after_plain (hmark : mark ∈ marks) (hcs : cs.all isPlain = true)
    (h : cs ++ rest = before ++ mark ++ after) :
    ∃ more, before = cs ++ more ∧ rest = more ++ mark ++ after := by
  obtain ⟨c, tail, rfl, hc, -⟩ := exists_head_of_mem_marks hmark
  rw [List.append_assoc] at h
  rcases List.append_eq_append_iff.1 h with ⟨more, rfl, hrest⟩ | ⟨more, rfl, hafter⟩
  · exact ⟨more, rfl, by rw [hrest, List.append_assoc]⟩
  · cases more with
    | nil => exact ⟨[], by simp, by simpa using hafter.symm⟩
    | cons d more =>
        obtain ⟨rfl, -⟩ := List.cons.inj hafter
        have hplain := List.all_eq_true.1 hcs c (by simp)
        rw [hc] at hplain
        exact absurd hplain Bool.false_ne_true

/-- What has a property that no mark starts with is plain. -/
theorem isPlain_of {P : Char → Bool} (hP : marks.all (fun mark => !mark.head?.any P) = true)
    {c : Char} (h : P c = true) : isPlain c = true := by
  refine List.all_eq_true.2 fun mark hmark => bne_iff_ne.2 fun hhead => ?_
  have hnot := List.all_eq_true.1 hP mark hmark
  rw [hhead, Option.any_some, h] at hnot
  exact Bool.false_ne_true hnot

/-- White space is plain. -/
theorem isPlain_of_isBlank {c : Char} (h : Text.isBlank c = true) : isPlain c = true :=
  isPlain_of (by decide) h

/-- The characters of names and the dots between them are plain. -/
theorem isPlain_of_inName {c : Char} (h : (c == '.' || Named.inName c) = true) :
    isPlain c = true :=
  isPlain_of (P := fun c => c == '.' || Named.inName c) (by decide) h

/-! ## Lexemes that are no strings -/

/-- The characters of parts with dots between them. -/
theorem all_of_splitDots (h : ∀ part ∈ Identifier.splitDots cs, IsWord part) :
    cs.all (fun c => c == '.' || Named.inName c) = true := by
  have hparts : ∀ part ∈ Identifier.splitDots cs, part.all Named.inName = true := by
    intro part hpart
    obtain ⟨c, more, rfl, hc, hmore⟩ := h part hpart
    exact List.all_cons.trans (Bool.and_eq_true_iff.2 ⟨Named.inName_of_startsName hc, hmore⟩)
  clear h
  induction cs with
  | nil => rfl
  | cons c cs ih =>
      obtain ⟨first, others, hsplit⟩ :=
        List.exists_cons_of_ne_nil (Identifier.splitDots_ne_nil cs)
      rw [Identifier.splitDots, hsplit] at hparts
      rw [hsplit] at ih
      rw [List.all_cons, Bool.and_eq_true]
      split at hparts <;> rename_i hdot
      · exact ⟨by simp [hdot], ih fun part hpart => hparts part (List.mem_cons_of_mem _ hpart)⟩
      · obtain ⟨hfirst, hothers⟩ := List.forall_mem_cons.1 hparts
        obtain ⟨hc, hmore⟩ := Bool.and_eq_true_iff.1 (List.all_cons.symm.trans hfirst)
        exact ⟨by simp [hc], ih (List.forall_mem_cons.2 ⟨hmore, hothers⟩)⟩

/-- Digits are plain. -/
theorem IsDigits.all_isPlain {digits : List Char} (h : IsDigits digits) :
    digits.all isPlain = true := by
  refine List.all_eq_true.2 fun c hc => isPlain_of_inName ?_
  have hdigit := List.all_eq_true.1 h.2 c hc
  simp [Named.inName, Char.isAlphanum, hdigit]

/-- A lexeme that is no string has plain characters, the sign of a number apart. -/
theorem exists_plain_of_writes {t : Token} (h : Writes cs t) (hs : ∀ s, t ≠ .string s) :
    ∃ negative body, cs = sign negative ++ body ∧ body ≠ [] ∧ body.all isPlain = true := by
  have hunsigned : cs ≠ [] → cs.all isPlain = true →
      ∃ negative body, cs = sign negative ++ body ∧ body ≠ [] ∧ body.all isPlain = true :=
    fun hne hall => ⟨false, cs, rfl, hne, hall⟩
  cases h with
  | string s => exact absurd rfl (hs _)
  | name _ h =>
      refine hunsigned ?_ (List.all_eq_true.2 fun c hc =>
        isPlain_of_inName (List.all_eq_true.1 (all_of_splitDots h) c hc))
      rintro rfl
      obtain ⟨c, more, heq, -⟩ := h [] (List.mem_singleton.2 rfl)
      exact absurd heq (by simp)
  | keyword k _ h =>
      refine hunsigned ?_ (List.all_eq_true.2 fun c hc => isPlain_of_inName ?_)
      · rintro rfl
        cases k <;> simp [Keyword.word] at h
      · simp [Named.inName, Char.isAlphanum, isAlpha_of_keyword h c hc]
  | int negative digits h => exact ⟨negative, digits, rfl, h.1, h.all_isPlain⟩
  | float negative whole fraction h h' =>
      refine ⟨negative, _, rfl, by simp, ?_⟩
      rw [List.all_append, List.all_cons, h.all_isPlain, h'.all_isPlain]
      rfl
  | comparison op h => cases op <;> exact hunsigned (by decide) (by decide)
  | differ | «open» | close | comma => exact hunsigned (by simp) (by decide)

/-- A mark does not start in a lexeme that is no string: the sign of a number is the only
candidate, and a digit comes next. -/
theorem exists_after_lexeme (hmark : mark ∈ marks) {t : Token} (hcs : Writes cs t)
    (hs : ∀ s, t ≠ .string s) (h : cs ++ rest = before ++ mark ++ after) :
    ∃ more, before = cs ++ more ∧ rest = more ++ mark ++ after := by
  obtain ⟨negative, body, rfl, hne, hbody⟩ := exists_plain_of_writes hcs hs
  cases negative with
  | false => exact exists_after_plain hmark hbody h
  | true =>
      cases before with
      | nil =>
          exfalso
          obtain ⟨c, body, rfl⟩ := List.exists_cons_of_ne_nil hne
          have hc : isPlain c = true := (Bool.and_eq_true_iff.1 hbody).1
          simp only [marks, List.mem_cons, List.not_mem_nil, or_false] at hmark
          rcases hmark with rfl | rfl | rfl | rfl | rfl | rfl <;> simp [sign] at h
          rw [h.1] at hc
          exact absurd hc (by decide)
      | cons d before =>
          obtain ⟨rfl, hmore⟩ : '-' = d ∧ body ++ rest = before ++ mark ++ after :=
            List.cons.inj h
          obtain ⟨more, rfl, hrest⟩ := exists_after_plain hmark hbody hmore
          exact ⟨more, rfl, hrest⟩

/-! ## Strings -/

/-- A mark that starts in front of a quote ends in front of it. -/
theorem exists_closing (hmark : mark ∈ marks) {part : List Char}
    (h : mark ++ after = part ++ Lexeme.apostrophe :: rest) :
    ∃ closing, part = mark ++ closing ∧ after = closing ++ Lexeme.apostrophe :: rest := by
  rcases List.append_eq_append_iff.1 h with ⟨closing, rfl, hafter⟩ | ⟨more, hmore, hquote⟩
  · exact ⟨closing, rfl, hafter⟩
  · cases more with
    | nil => exact ⟨[], by simpa using hmore.symm, hquote.symm⟩
    | cons c more =>
        obtain ⟨rfl, -⟩ := List.cons.inj hquote
        exact absurd (by simp [hmore]) (apostrophe_not_mem_mark hmark)

/-- A mark in a string and what follows it stands between the quotes or behind them. -/
theorem exists_in_string (hmark : mark ∈ marks) {inside : List Char}
    (h : Lexeme.apostrophe :: (inside ++ [Lexeme.apostrophe]) ++ rest = before ++ mark ++ after) :
    (∃ opening closing, inside = opening ++ mark ++ closing ∧
      before = Lexeme.apostrophe :: opening ∧ after = closing ++ Lexeme.apostrophe :: rest) ∨
      ∃ more, before = Lexeme.apostrophe :: (inside ++ [Lexeme.apostrophe]) ++ more ∧
        rest = more ++ mark ++ after := by
  obtain ⟨c, tail, hhead, -, hquote⟩ := exists_head_of_mem_marks hmark
  rw [List.cons_append, List.append_assoc, List.append_assoc] at h
  cases before with
  | nil =>
      rw [hhead] at h
      exact absurd (List.cons.inj h).1.symm hquote
  | cons d opening =>
      obtain ⟨rfl, hinside⟩ := List.cons.inj h
      rcases List.append_eq_append_iff.1 hinside with ⟨more, rfl, hrest⟩ | ⟨part, rfl, hafter⟩
      · cases more with
        | nil =>
            rw [hhead] at hrest
            exact absurd (List.cons.inj hrest).1.symm hquote
        | cons d more =>
            obtain ⟨rfl, hrest⟩ := List.cons.inj hrest
            exact .inr ⟨more, by simp, by simpa using hrest⟩
      · obtain ⟨closing, rfl, rfl⟩ := exists_closing hmark hafter
        exact .inl ⟨opening, closing, by simp, rfl, rfl⟩

/-! ## Texts -/

/-- At the end of the text every token ends. -/
theorem Token.ends_nil (t : Token) : t.Ends [] := by
  cases t with
  | name | keyword => exact ⟨rfl, nofun⟩
  | int | float => exact rfl
  | string => exact nofun
  | comparison op =>
      cases op with
      | lt => exact ⟨nofun, nofun⟩
      | gt => exact nofun
      | eq | ne | le | ge | like => exact trivial
  | «open» | close | comma => exact trivial

/-- What follows a token and is cut short does not belong to it either. -/
theorem Token.Ends.of_append {t : Token} (h : t.Ends (cs ++ rest)) : t.Ends cs := by
  cases cs with
  | nil => exact t.ends_nil
  | cons c cs =>
      cases t with
      | name | keyword =>
          refine ⟨h.1, ?_⟩
          rintro d more heq
          obtain ⟨rfl, rfl⟩ := List.cons.inj heq
          exact h.2 d (more ++ rest) rfl
      | int | float | string => exact h
      | comparison op => cases op <;> exact h
      | «open» | close | comma => exact trivial

/-- No token is written without characters. -/
theorem Writes.ne_nil {t : Token} (h : Writes cs t) : cs ≠ [] := by
  obtain ⟨c, more, rfl, -⟩ := firstOf_writes h t.ends_nil
  exact List.cons_ne_nil c more

/-- Characters write one token at most. -/
theorem Writes.unique {t t' : Token} (h : Writes cs t) (h' : Writes cs t') : t = t' := by
  obtain ⟨-, -, -, -, -, hread⟩ := firstOf_writes h t.ends_nil
  obtain ⟨-, -, -, -, -, hread'⟩ := firstOf_writes h' t'.ends_nil
  exact Except.ok.inj (hread.symm.trans hread')

/-- Each lexeme of a text has characters that write its token and no other. -/
theorem Cut.writes_iff {ls : List Lexeme} (h : Cut cs ls) :
    ∀ l ∈ ls, l.text ≠ [] ∧ ∀ t, Writes l.text t ↔ t = l.token := by
  induction h with
  | nil => exact fun l hl => absurd hl List.not_mem_nil
  | cons _ hl _ _ ih =>
      refine List.forall_mem_cons.2 ⟨⟨hl.ne_nil, fun t => ⟨fun ht => ht.unique hl, ?_⟩⟩, ih⟩
      rintro rfl
      exact hl

/-- A lexeme and white space in front do not change what stands in a string behind them. -/
theorem InString.cons {blanks part : List Char} {l : Lexeme} {ls : List Lexeme}
    (h : InString part ls before after) (hblanks : blanks.all Text.isBlank = true)
    (hl : Writes l.text l.token) (hend : l.token.Ends (before ++ rest)) :
    InString part (l :: ls) (blanks ++ l.text ++ before) after := by
  cases h with
  | intro hs htext hfront hback =>
      rw [List.append_assoc] at hend
      rw [← List.append_assoc, ← List.cons_append]
      exact .intro hs htext (.cons hblanks hl hend.of_append hfront) hback

/-- **In a text that can be cut every mark stands in a string literal.** -/
theorem Cut.marksInStrings {ls : List Lexeme} (h : Cut cs ls) : MarksInStrings cs ls := by
  intro mark hmark before after heq
  have hplain : ∀ blanks : List Char, blanks.all Text.isBlank = true →
      blanks.all isPlain = true := fun blanks hblanks =>
    List.all_eq_true.2 fun c hc => isPlain_of_isBlank (List.all_eq_true.1 hblanks c hc)
  induction h generalizing before with
  | nil h =>
      obtain ⟨c, tail, rfl, -⟩ := exists_head_of_mem_marks hmark
      obtain ⟨more, -, hnil⟩ :=
        exists_after_plain hmark (hplain _ h) ((List.append_nil _).trans heq)
      exact absurd hnil (by simp)
  | @cons blanks rest l ls h hl hend hrest ih =>
      rw [List.append_assoc] at heq
      obtain ⟨more, rfl, hmore⟩ := exists_after_plain hmark (hplain _ h) heq
      -- What is behind the lexeme is in a string there.
      have hbehind : ∀ further, rest = further ++ mark ++ after →
          InString mark (l :: ls) (blanks ++ l.text ++ further) after := by
        intro further hfurther
        rw [hfurther, List.append_assoc] at hend
        exact (ih further hfurther).cons h hl hend
      by_cases hs : ∃ s, l.token = .string s
      · obtain ⟨s, hs⟩ := hs
        obtain ⟨inside, htext⟩ : ∃ inside,
            l.text = Lexeme.apostrophe :: (inside ++ [Lexeme.apostrophe]) := by
          rw [hs] at hl
          generalize l.text = text at hl
          cases hl with
          | string s => exact ⟨doubled s, rfl⟩
        rw [htext] at hmore
        rcases exists_in_string hmark hmore with ⟨opening, closing, hinside, rfl, rfl⟩ |
          ⟨further, rfl, hfurther⟩
        · rw [hinside] at htext
          have hhere : InString mark ([] ++ l :: ls) (blanks ++ Lexeme.apostrophe :: opening)
              (closing ++ Lexeme.apostrophe :: rest) := .intro hs htext (.nil h) hrest
          exact hhere
        · rw [← htext, ← List.append_assoc]
          exact hbehind further hfurther
      · obtain ⟨further, rfl, hfurther⟩ :=
          exists_after_lexeme hmark hl (fun s heq => hs ⟨s, heq⟩) hmore
        rw [← List.append_assoc]
        exact hbehind further hfurther

/-- **What is scanned is all there, and marks stand in strings alone.**  A text that is
scanned without a fault, such as one that is accepted as a predicate, is its lexemes with
white space around them; no lexeme is empty, and each writes its token and no other.  Every
mark in the text stands between the quotes of a string literal. -/
theorem scan_marks {text : String}
    (h : (Lexed.scan text).fault? = none ∨ ∃ p, Predicate.ofText text = .ok p) :
    Cut text.toList (Lexed.scan text).lexemes ∧
      (∀ l ∈ (Lexed.scan text).lexemes, l.text ≠ [] ∧ ∀ t, Writes l.text t ↔ t = l.token) ∧
      MarksInStrings text.toList (Lexed.scan text).lexemes := by
  have hfault : (Lexed.scan text).fault? = none := by
    rcases h with hfault | ⟨p, hp⟩
    · exact hfault
    · obtain ⟨d, hd, -, -⟩ := Predicate.ofText_eq_ok.1 hp
      exact hd.cut
  have hcut := cut_scanFrom hfault
  exact ⟨hcut, hcut.writes_iff, hcut.marksInStrings⟩

/-- A text with a mark in a literal, behind a doubled quote, and a negative number. -/
theorem scan_marks_quoted :
    (∃ p, Predicate.ofText "a = 'it''s;--' AND b=-1" = .ok p) ∧
      InString ['-', '-'] (Lexed.scan "a = 'it''s;--' AND b=-1").lexemes "a = 'it''s;".toList
        "' AND b=-1".toList := by
  obtain ⟨p, hp⟩ : ∃ p, Predicate.ofText "a = 'it''s;--' AND b=-1" = .ok p :=
    exists_of_isOk (by decide +kernel)
  obtain ⟨-, -, hmarks⟩ := scan_marks (.inr ⟨_, hp⟩)
  exact ⟨⟨_, hp⟩, hmarks ['-', '-'] (by decide) _ _ (by decide)⟩

end ConditionText

end BoundSql
