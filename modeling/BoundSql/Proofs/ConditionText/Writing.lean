import Mathlib.Data.List.Forall2
import BoundSql.Proofs.ConditionText.Acceptance
import BoundSql.Proofs.ConditionText.Scanning

/-!
# Texts of tokens

A text *writes* tokens if it is cut into them wherever a break follows: a space, a comma, a
closing parenthesis, or the end.  Texts are put together from those of single tokens with
spaces, commas and parentheses, which are breaks themselves, so what a text writes is known
from its parts.  Chains of members are written with AND or OR between them.
-/

namespace BoundSql

namespace ConditionText

/-- What follows starts with a space, a comma or a closing parenthesis, or is nothing. -/
def Breaks (rest : List Char) : Prop :=
  rest.head?.all (fun c => c == ' ' || c == ',' || c == ')') = true

/-- A break belongs to no token. -/
theorem Breaks.ends {rest : List Char} (h : Breaks rest) (t : Token) : t.Ends rest := by
  have hnext : ∀ {P : Char → Bool}, P ' ' = false → P ',' = false → P ')' = false →
      rest.head?.any P = false := by
    intro P hspace hcomma hclose
    cases rest with
    | nil => rfl
    | cons c rest =>
        have hc : (c = ' ' ∨ c = ',') ∨ c = ')' := by simpa [Breaks] using h
        rcases hc with (rfl | rfl) | rfl
        · exact hspace
        · exact hcomma
        · exact hclose
  have hne : ∀ {c : Char}, c ≠ ' ' → c ≠ ',' → c ≠ ')' → rest.head? ≠ some c := by
    intro c hspace hcomma hclose hhead
    have hsame := hnext (P := (· == c)) (beq_false_of_ne hspace.symm)
      (beq_false_of_ne hcomma.symm) (beq_false_of_ne hclose.symm)
    simp [hhead] at hsame
  have hword : EndsWord rest := by
    refine ⟨hnext rfl rfl rfl, fun c more heq => absurd ?_ (hne (c := '.') ?_ ?_ ?_)⟩
    · rw [heq]
      rfl
    all_goals decide
  cases t with
  | string s => exact hne (by decide) (by decide) (by decide)
  | name text => exact hword
  | keyword k => exact hword
  | int n => exact hnext rfl rfl rfl
  | float d => exact hnext rfl rfl rfl
  | comparison op =>
      cases op with
      | lt => exact ⟨hne (by decide) (by decide) (by decide),
          hne (by decide) (by decide) (by decide)⟩
      | gt => exact hne (by decide) (by decide) (by decide)
      | _ => trivial
  | _ => trivial

/-- A text that is cut into tokens in front of a break. -/
def Written (s : String) (ts : List Token) : Prop :=
  ∀ (rest : List Char) (ls : List Lexeme), Breaks rest → Cut rest ls →
    ∃ front : List Lexeme, Cut (s.toList ++ rest) (front ++ ls) ∧ front.map Lexeme.token = ts

/-- White space in front of a text changes no token. -/
theorem Cut.space {cs : List Char} {ls : List Lexeme} (h : Cut cs ls) : Cut (' ' :: cs) ls := by
  cases h with
  | nil h => exact .nil (Bool.and_eq_true_iff.2 ⟨rfl, h⟩)
  | cons h hl hend hrest =>
      rw [← List.cons_append, ← List.cons_append]
      exact .cons (Bool.and_eq_true_iff.2 ⟨rfl, h⟩) hl hend hrest

/-- The characters of a token in front of a text that they do not run into. -/
theorem Cut.token {cs rest : List Char} {t : Token} {ls : List Lexeme} (h : Writes cs t)
    (hend : t.Ends rest) (hrest : Cut rest ls) : Cut (cs ++ rest) (⟨cs, 0, t⟩ :: ls) :=
  have hblanks : ([] : List Char).all Text.isBlank = true := rfl
  .cons (l := ⟨cs, 0, t⟩) hblanks h hend hrest

variable {s s' : String} {ts ts' : List Token}

/-- What writes a token by itself is a text of that token. -/
theorem written_token {t : Token} (h : Writes s.toList t) : Written s [t] :=
  fun _ _ hbreak hrest => ⟨[⟨s.toList, 0, t⟩], Cut.token h (hbreak.ends t) hrest, rfl⟩

/-- A keyword is written as its word. -/
theorem written_keyword (k : Keyword) : Written k.word [.keyword k] :=
  written_token (.keyword k _ (by cases k <;> decide))

/-- Texts with a space between. -/
theorem Written.space (h : Written s ts) (h' : Written s' ts') :
    Written (s ++ " " ++ s') (ts ++ ts') := by
  intro rest ls hbreak hrest
  obtain ⟨back, hback, rfl⟩ := h' rest ls hbreak hrest
  obtain ⟨front, hfront, rfl⟩ := h (' ' :: (s'.toList ++ rest)) _ rfl hback.space
  refine ⟨front ++ back, ?_, List.map_append⟩
  simpa using hfront

/-- Texts with a comma between. -/
theorem Written.comma (h : Written s ts) (h' : Written s' ts') :
    Written (s ++ ", " ++ s') (ts ++ .comma :: ts') := by
  intro rest ls hbreak hrest
  obtain ⟨back, hback, rfl⟩ := h' rest ls hbreak hrest
  have hcomma := Cut.token .comma (show Token.comma.Ends _ from trivial) hback.space
  obtain ⟨front, hfront, rfl⟩ := h (',' :: ' ' :: (s'.toList ++ rest)) _ rfl hcomma
  refine ⟨front ++ ⟨[','], 0, .comma⟩ :: back, ?_, by simp⟩
  simpa using hfront

/-- Texts with a word between. -/
theorem Written.word (k : Keyword) (h : Written s ts) (h' : Written s' ts') :
    Written (s ++ (" " ++ k.word ++ " ") ++ s') (ts ++ .keyword k :: ts') := by
  have hword := (h.space (written_keyword k)).space h'
  simpa [String.append_assoc] using hword

/-- A text in parentheses. -/
theorem Written.parens (h : Written s ts) :
    Written ("(" ++ s ++ ")") (.open :: ts ++ [.close]) := by
  intro rest ls hbreak hrest
  have hclose := Cut.token .close (show Token.close.Ends _ from trivial) hrest
  obtain ⟨front, hfront, rfl⟩ := h (')' :: rest) _ rfl hclose
  have hopen := Cut.token .open (show Token.open.Ends _ from trivial) hfront
  refine ⟨⟨['('], 0, .open⟩ :: front ++ [⟨[')'], 0, .close⟩], ?_, by simp⟩
  simpa using hopen

/-- **A text that writes the tokens of a derivation derives it.** -/
theorem Written.derives {d : Disjunction} (h : Written s d.tokens) : Derives s d := by
  obtain ⟨front, hfront, htokens⟩ := h [] [] rfl (.nil rfl)
  rw [List.append_nil, List.append_nil] at hfront
  obtain ⟨hfault, hscan⟩ := scanFrom_of_cut hfront 0
  exact ⟨hfault, (hscan.trans htokens).symm⟩

/-! ## Chains -/

/-- Members with AND between. -/
def Conjunction.ofList (first : Unary) : List Unary → Conjunction
  | [] => .last first
  | next :: more => .and first (ofList next more)

/-- Members with OR between. -/
def Disjunction.ofList (first : Unary) : List Unary → Disjunction
  | [] => .last (.last first)
  | next :: more => .or (.last first) (ofList next more)

/-- A conjunction that is made of a list has its members. -/
theorem Conjunction.members_ofList (first : Unary) (more : List Unary) :
    (ofList first more).members = (first :: more).map Unary.predicate := by
  induction more generalizing first with
  | nil => rfl
  | cons next more ih =>
      rw [ofList, members, ih]
      rfl

/-- A disjunction that is made of a list has its members. -/
theorem Disjunction.members_ofList (first : Unary) (more : List Unary) :
    (ofList first more).members = (first :: more).map Unary.predicate := by
  induction more generalizing first with
  | nil => rfl
  | cons next more ih =>
      rw [ofList, members, ih]
      rfl

/-- A conjunction that is made of a list is as deep as its members. -/
theorem Conjunction.depth_ofList {bound : Nat} (first : Unary) (more : List Unary)
    (h : ∀ u ∈ first :: more, u.depth ≤ bound) : (ofList first more).depth ≤ bound := by
  induction more generalizing first with
  | nil => exact h first List.mem_cons_self
  | cons next more ih =>
      obtain ⟨hfirst, hmore⟩ := List.forall_mem_cons.1 h
      exact Nat.max_le.2 ⟨hfirst, ih next hmore⟩

/-- A disjunction that is made of a list is as deep as its members. -/
theorem Disjunction.depth_ofList {bound : Nat} (first : Unary) (more : List Unary)
    (h : ∀ u ∈ first :: more, u.depth ≤ bound) : (ofList first more).depth ≤ bound := by
  induction more generalizing first with
  | nil => exact h first List.mem_cons_self
  | cons next more ih =>
      obtain ⟨hfirst, hmore⟩ := List.forall_mem_cons.1 h
      exact Nat.max_le.2 ⟨hfirst, ih next hmore⟩

/-- Texts with AND between write a chain of their members. -/
theorem Conjunction.written_ofList {first : Unary} {more : List Unary} {texts : List String}
    (h : Written s first.tokens)
    (hmore : List.Forall₂ (fun s u => Written s (Unary.tokens u)) texts more) :
    Written (" AND ".intercalate (s :: texts)) (ofList first more).tokens := by
  induction hmore generalizing s first with
  | nil =>
      rw [String.intercalate_singleton]
      exact h
  | cons hnext _ ih =>
      rw [String.intercalate_cons_cons, ofList, tokens]
      exact h.word .and (ih hnext)

/-- Texts with OR between write a chain of their members. -/
theorem Disjunction.written_ofList {first : Unary} {more : List Unary} {texts : List String}
    (h : Written s first.tokens)
    (hmore : List.Forall₂ (fun s u => Written s (Unary.tokens u)) texts more) :
    Written (" OR ".intercalate (s :: texts)) (ofList first more).tokens := by
  induction hmore generalizing s first with
  | nil =>
      rw [String.intercalate_singleton]
      exact h
  | cons hnext _ ih =>
      rw [String.intercalate_cons_cons, ofList, tokens]
      exact h.word .or (ih hnext)

/-- Literals with commas between. -/
theorem written_literals {first : Literal} {more : List Literal} {texts : List String}
    (h : Written s [first.token])
    (hmore : List.Forall₂ (fun s l => Written s [Literal.token l]) texts more) :
    Written (", ".intercalate (s :: texts)) (first.token :: otherTokens more) := by
  induction hmore generalizing s first with
  | nil =>
      rw [String.intercalate_singleton]
      exact h
  | cons hnext _ ih =>
      rw [String.intercalate_cons_cons]
      exact h.comma (ih hnext)

end ConditionText

end BoundSql
