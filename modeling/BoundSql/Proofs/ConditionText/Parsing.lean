import BoundSql.Proofs.ConditionText.Grammar

/-!
# Parsers of tests

A parser reads a result from the front of some lexemes and leaves the others
(`Reads`); the lexemes passed over spell tokens (`Spells`).  What a parser reads is
what the derivations of its part of the grammar spell, and the result is what the
derivation denotes.  Here this is proved for literals, operands, lists of values and
the five forms of a test.

A chain is read by cases: an item that no separator follows, or an item, a separator
and a chain again.
-/

namespace BoundSql

namespace ConditionText

/-- A parser reads a result from the front of some lexemes and leaves others. -/
def Reads {α : Type} (p : Parse α) (all : List Lexeme) (a : α) (rest : List Lexeme) : Prop :=
  ∃ h : rest <:+ all, p all = .ok (a, ⟨rest, h⟩)

/-- The tokens of the lexemes in front of `rest`. -/
def Spells (all : List Lexeme) (tokens : List Token) (rest : List Lexeme) : Prop :=
  ∃ front, all = front ++ rest ∧ front.map Lexeme.token = tokens

/-- The next token, if any. -/
def next? (all : List Lexeme) : Option Token := all.head?.map Lexeme.token

/-- Without tokens nothing is passed over. -/
theorem spells_nil {all rest : List Lexeme} : Spells all [] rest ↔ all = rest := by
  constructor
  · rintro ⟨front, rfl, hfront⟩
    rw [List.map_eq_nil_iff.1 hfront, List.nil_append]
  · rintro rfl
    exact ⟨[], rfl, rfl⟩

/-- The first token is that of the first lexeme. -/
theorem spells_cons {all rest : List Lexeme} {t : Token} {ts : List Token} :
    Spells all (t :: ts) rest ↔ ∃ l more, all = l :: more ∧ l.token = t ∧ Spells more ts rest := by
  constructor
  · rintro ⟨front, rfl, hfront⟩
    obtain ⟨l, more, rfl, rfl, hmore⟩ := List.map_eq_cons_iff.1 hfront
    exact ⟨l, more ++ rest, rfl, rfl, more, rfl, hmore⟩
  · rintro ⟨l, -, rfl, rfl, more, rfl, rfl⟩
    exact ⟨l :: more, rfl, rfl⟩

/-- Tokens one after another are spelled by lexemes one after another. -/
theorem spells_append {all rest : List Lexeme} {ts us : List Token} :
    Spells all (ts ++ us) rest ↔ ∃ mid, Spells all ts mid ∧ Spells mid us rest := by
  constructor
  · rintro ⟨front, rfl, hfront⟩
    obtain ⟨a, b, rfl, rfl, rfl⟩ := List.map_eq_append_iff.1 hfront
    exact ⟨b ++ rest, ⟨a, by rw [List.append_assoc], rfl⟩, b, rfl, rfl⟩
  · rintro ⟨_, ⟨a, rfl, rfl⟩, b, rfl, rfl⟩
    exact ⟨a ++ b, by rw [List.append_assoc], by rw [List.map_append]⟩

/-- One token, and what comes after it. -/
theorem Spells.cons {all mid rest : List Lexeme} {t : Token} {ts : List Token}
    (h : Spells all [t] mid) (hrest : Spells mid ts rest) : Spells all (t :: ts) rest :=
  spells_append.2 ⟨mid, h, hrest⟩

/-- The first token can be split off. -/
theorem Spells.uncons {all rest : List Lexeme} {t : Token} {ts : List Token}
    (h : Spells all (t :: ts) rest) : ∃ mid, Spells all [t] mid ∧ Spells mid ts rest :=
  spells_append.1 (show Spells all ([t] ++ ts) rest from h)

/-- What spells tokens and then others spells them together. -/
theorem Spells.append {all mid rest : List Lexeme} {ts us : List Token}
    (h : Spells all ts mid) (hrest : Spells mid us rest) : Spells all (ts ++ us) rest :=
  spells_append.2 ⟨mid, h, hrest⟩

/-- The first token is the next one. -/
theorem next?_of_spells {all rest : List Lexeme} {t : Token} {ts : List Token}
    (h : Spells all (t :: ts) rest) : next? all = some t := by
  obtain ⟨l, more, rfl, rfl, -⟩ := spells_cons.1 h
  rfl

variable {α β : Type} {all rest : List Lexeme}

/-- A parser that reads nothing gives its result and leaves all. -/
theorem reads_pure {a b : α} : Reads (pure a) all b rest ↔ a = b ∧ all = rest := by
  constructor
  · rintro ⟨h, hp⟩
    have hp := Except.ok.inj hp
    exact ⟨congrArg Prod.fst hp, congrArg (fun r => r.2.lexemes) hp⟩
  · rintro ⟨rfl, rfl⟩
    exact ⟨List.suffix_refl _, rfl⟩

/-- Of two parsers in a row the second reads from where the first one stopped. -/
theorem reads_bind {p : Parse α} {f : α → Parse β} {b : β} :
    Reads (p >>= f) all b rest ↔ ∃ a mid, Reads p all a mid ∧ Reads (f a) mid b rest := by
  constructor
  · rintro ⟨h, hp⟩
    simp only [bind, Parse.bind] at hp
    split at hp
    · simp at hp
    · rename_i a mid hmid
      split at hp
      · simp at hp
      · rename_i b' last hlast
        obtain ⟨rfl, hrest⟩ := Prod.mk.inj (Except.ok.inj hp)
        obtain rfl := congrArg Rest.lexemes hrest
        exact ⟨a, mid.lexemes, ⟨mid.isSuffix, hmid⟩, last.isSuffix, hlast⟩
  · rintro ⟨a, mid, ⟨hmid, hp⟩, hrest, hf⟩
    refine ⟨hrest.trans hmid, ?_⟩
    simp only [bind, Parse.bind, hp, hf]

/-- Looking ahead gives the next token and leaves all. -/
theorem reads_peek {t? : Option Token} : Reads peek all t? rest ↔ next? all = t? ∧ all = rest := by
  constructor
  · rintro ⟨h, hp⟩
    have hp := Except.ok.inj hp
    exact ⟨congrArg Prod.fst hp, congrArg (fun r => r.2.lexemes) hp⟩
  · rintro ⟨rfl, rfl⟩
    exact ⟨List.suffix_refl _, rfl⟩

/-- Looking at the next place gives its offset and leaves all. -/
theorem reads_here {offset? : Option Nat} :
    Reads here all offset? rest ↔ all.head?.map Lexeme.offset = offset? ∧ all = rest := by
  constructor
  · rintro ⟨h, hp⟩
    have hp := Except.ok.inj hp
    exact ⟨congrArg Prod.fst hp, congrArg (fun r => r.2.lexemes) hp⟩
  · rintro ⟨rfl, rfl⟩
    exact ⟨List.suffix_refl _, rfl⟩

/-- One lexeme is passed over, if there is one. -/
theorem reads_skip {u : Unit} : Reads skip all u rest ↔ all.tail = rest := by
  constructor
  · rintro ⟨h, hp⟩
    exact congrArg (fun r => r.2.lexemes) (Except.ok.inj hp)
  · rintro rfl
    exact ⟨List.tail_suffix all, rfl⟩

/-- The token that was seen is passed over. -/
theorem reads_skip_of_next? {t : Token} {u : Unit} (h : next? all = some t) :
    Reads skip all u rest ↔ Spells all [t] rest := by
  rw [reads_skip]
  cases all with
  | nil => simp [next?] at h
  | cons l more =>
      obtain rfl : l.token = t := by simpa [next?] using h
      constructor
      · rintro rfl
        exact ⟨[l], rfl, rfl⟩
      · intro hspells
        obtain ⟨_, _, heq, -, hmore⟩ := spells_cons.1 hspells
        rw [List.tail_cons, (List.cons.inj heq).2, spells_nil.1 hmore]

/-- A failure reads nothing. -/
theorem not_reads_failAt {offset? : Option Nat} {fault : Fault} {a : α} :
    ¬Reads (failAt offset? fault) all a rest := by
  rintro ⟨h, hp⟩
  simp [failAt] at hp

/-- Where something else was expected nothing is read. -/
theorem not_reads_unexpected {what : Expectation} {a : α} :
    ¬Reads (unexpected what) all a rest := by
  rintro ⟨h, hp⟩
  simp [unexpected] at hp

/-- A token is passed over, or it is not the next one and all stays unread. -/
theorem reads_eat {t : Token} {b : Bool} :
    Reads (eat t) all b rest ↔
      if b then ∃ l, all = l :: rest ∧ l.token = t else next? all ≠ some t ∧ all = rest := by
  rw [eat, reads_bind]
  simp only [reads_peek]
  constructor
  · rintro ⟨_, _, ⟨rfl, rfl⟩, h⟩
    split at h
    · rename_i hnext
      obtain ⟨_, mid, hskip, hb⟩ := reads_bind.1 h
      obtain rfl := reads_skip.1 hskip
      obtain ⟨rfl, rfl⟩ := reads_pure.1 hb
      cases all with
      | nil => simp [next?] at hnext
      | cons l more => exact ⟨l, rfl, by simpa [next?] using hnext⟩
    · rename_i hnext
      obtain ⟨rfl, rfl⟩ := reads_pure.1 h
      exact ⟨hnext, rfl⟩
  · intro h
    refine ⟨_, _, ⟨rfl, rfl⟩, ?_⟩
    cases b with
    | true =>
        obtain ⟨l, rfl, rfl⟩ := h
        rw [if_pos (show next? (l :: rest) = some l.token from rfl)]
        exact reads_bind.2 ⟨(), rest, reads_skip.2 rfl, reads_pure.2 ⟨rfl, rfl⟩⟩
    | false =>
        obtain ⟨hnext, rfl⟩ := h
        rw [if_neg hnext]
        exact reads_pure.2 ⟨rfl, rfl⟩

/-- An expected token is read if it comes next. -/
theorem reads_expect {t : Token} {u : Unit} :
    Reads (expect t) all u rest ↔ Spells all [t] rest := by
  rw [expect, reads_bind]
  constructor
  · rintro ⟨b, mid, heat, h⟩
    cases b with
    | true =>
        obtain ⟨l, rfl, rfl⟩ := reads_eat.1 heat
        obtain ⟨-, rfl⟩ := reads_pure.1 h
        exact ⟨[l], rfl, rfl⟩
    | false => exact absurd h not_reads_unexpected
  · intro h
    obtain ⟨l, more, rfl, rfl, hmore⟩ := spells_cons.1 h
    obtain rfl := spells_nil.1 hmore
    exact ⟨true, _, reads_eat.2 ⟨l, rfl, rfl⟩, reads_pure.2 ⟨rfl, rfl⟩⟩

/-- A literal is read with its value. -/
theorem reads_literal {v : Value} :
    Reads literal all v rest ↔ ∃ l : Literal, Spells all [l.token] rest ∧ l.value = v := by
  rw [literal, reads_bind]
  constructor
  · rintro ⟨t?, mid, hpeek, h⟩
    obtain ⟨rfl, rfl⟩ := reads_peek.1 hpeek
    cases all with
    | nil => exact absurd h not_reads_unexpected
    | cons lexeme more =>
        simp only [next?, List.head?_cons, Option.map_some] at h
        split at h
        · rename_i found hfound
          obtain ⟨l, hl, rfl⟩ := Literal.exists_of_literal? hfound
          obtain ⟨_, mid, hskip, hpure⟩ := reads_bind.1 h
          obtain rfl := reads_skip.1 hskip
          obtain ⟨rfl, rfl⟩ := reads_pure.1 hpure
          exact ⟨l, ⟨[lexeme], rfl, by rw [hl]; rfl⟩, rfl⟩
        · exact absurd h not_reads_unexpected
  · rintro ⟨l, hl, rfl⟩
    obtain ⟨lexeme, more, rfl, htoken, hmore⟩ := spells_cons.1 hl
    obtain rfl := spells_nil.1 hmore
    refine ⟨_, _, reads_peek.2 ⟨rfl, rfl⟩, ?_⟩
    simp only [next?, List.head?_cons, Option.map_some, htoken, l.literal?_token]
    exact reads_bind.2 ⟨(), _, reads_skip.2 rfl, reads_pure.2 ⟨rfl, rfl⟩⟩

/-- A term is read as its operand. -/
theorem reads_operand {o : Operand} :
    Reads operand all o rest ↔ ∃ t : Term, Spells all [t.token] rest ∧ t.operand = o := by
  rw [operand, reads_bind]
  constructor
  · rintro ⟨t?, mid, hpeek, h⟩
    obtain ⟨rfl, rfl⟩ := reads_peek.1 hpeek
    split at h
    · rename_i name hname
      obtain ⟨_, mid, hskip, hpure⟩ := reads_bind.1 h
      obtain rfl := reads_skip.1 hskip
      obtain ⟨rfl, rfl⟩ := reads_pure.1 hpure
      cases all with
      | nil => simp [next?] at hname
      | cons lexeme more =>
          exact ⟨.column name, ⟨[lexeme], rfl, by simpa [next?, Term.token] using hname⟩, rfl⟩
    · obtain ⟨v, mid, hliteral, hpure⟩ := reads_bind.1 h
      obtain ⟨rfl, rfl⟩ := reads_pure.1 hpure
      obtain ⟨l, hl, rfl⟩ := reads_literal.1 hliteral
      exact ⟨.literal l, hl, rfl⟩
  · rintro ⟨t, ht, rfl⟩
    refine ⟨_, _, reads_peek.2 ⟨rfl, rfl⟩, ?_⟩
    cases t with
    | column name =>
        obtain ⟨lexeme, more, rfl, htoken, hmore⟩ := spells_cons.1 ht
        obtain rfl := spells_nil.1 hmore
        simp only [next?, List.head?_cons, Option.map_some, htoken, Term.token]
        exact reads_bind.2 ⟨(), _, reads_skip.2 rfl, reads_pure.2 ⟨rfl, rfl⟩⟩
    | literal l =>
        have hread : Reads (do return .value (← literal)) all (Term.literal l).operand rest :=
          reads_bind.2 ⟨l.value, rest, reads_literal.2 ⟨l, ht, rfl⟩, reads_pure.2 ⟨rfl, rfl⟩⟩
        split
        · rename_i name hname
          obtain ⟨lexeme, more, rfl, htoken, -⟩ := spells_cons.1 ht
          rw [next?, List.head?_cons, Option.map_some, htoken] at hname
          exact absurd (Option.some.inj hname) Literal.token_ne_name
        · exact hread

/-- What a chain reads: an item, and a chain after the separator if that follows. -/
theorem exists_of_reads_chain {separator : Token} {item : Parse α} {as : List α}
    (h : Reads (chain separator item) all as rest) :
    ∃ a mid, Reads item all a mid ∧
      ((as = [a] ∧ next? mid ≠ some separator ∧ mid = rest) ∨
        ∃ l more others, mid = l :: more ∧ l.token = separator ∧ as = a :: others ∧
          Reads (chain separator item) more others rest) := by
  obtain ⟨hrest, hp⟩ := h
  rw [chain] at hp
  split at hp
  · simp at hp
  · rename_i first mid hitem
    refine ⟨first, mid.lexemes, ⟨mid.isSuffix, hitem⟩, ?_⟩
    split at hp
    · rename_i hnil
      obtain ⟨rfl, hmid⟩ := Prod.mk.inj (Except.ok.inj hp)
      exact .inl ⟨rfl, by simp [hnil, next?], congrArg Rest.lexemes hmid⟩
    · rename_i l more hcons
      split at hp
      · rename_i htoken
        split at hp
        · simp at hp
        · rename_i others last hchain
          obtain ⟨rfl, hlast⟩ := Prod.mk.inj (Except.ok.inj hp)
          obtain rfl := congrArg Rest.lexemes hlast
          exact .inr ⟨l, more, others, hcons, htoken, rfl, last.isSuffix, hchain⟩
      · rename_i htoken
        obtain ⟨rfl, hmid⟩ := Prod.mk.inj (Except.ok.inj hp)
        refine .inl ⟨rfl, ?_, congrArg Rest.lexemes hmid⟩
        rw [hcons]
        exact fun h => htoken (Option.some.inj h)

/-- A chain ends where no separator follows. -/
theorem reads_chain_last {separator : Token} {item : Parse α} {a : α}
    (hitem : Reads item all a rest) (hnext : next? rest ≠ some separator) :
    Reads (chain separator item) all [a] rest := by
  obtain ⟨hrest, hitem⟩ := hitem
  refine ⟨hrest, ?_⟩
  rw [chain, hitem]
  simp only
  split
  · rfl
  · rename_i l more
    rw [if_neg]
    exact fun h => hnext (congrArg some h)

/-- A chain goes on after its separator. -/
theorem reads_chain_more {separator : Token} {item : Parse α} {a : α} {as : List α} {l : Lexeme}
    {more : List Lexeme} (hitem : Reads item all a (l :: more)) (htoken : l.token = separator)
    (hchain : Reads (chain separator item) more as rest) :
    Reads (chain separator item) all (a :: as) rest := by
  obtain ⟨hmid, hitem⟩ := hitem
  obtain ⟨hrest, hchain⟩ := hchain
  refine ⟨hrest.trans ((List.suffix_cons l more).trans hmid), ?_⟩
  rw [chain, hitem]
  simp only
  rw [if_pos htoken, hchain]

/-- A column is read from an operand that is one. -/
theorem reads_column {form : ColumnForm} {start : Option Nat} {o : Operand} {name : Identifier} :
    Reads (column form start o) all name rest ↔ o = .column name ∧ all = rest := by
  cases o with
  | column found => rw [column, reads_pure, Operand.column.injEq]
  | value v => simp [column, not_reads_failAt]

/-- The word NOT is passed over where it stands. -/
theorem reads_negated {b : Bool} :
    Reads (eat (.keyword .not)) all b rest ↔
      Spells all (notIf b) rest ∧ (b = false → next? all ≠ some (.keyword .not)) := by
  rw [reads_eat]
  cases b with
  | true => simp [notIf, spells_cons, spells_nil]
  | false => simp [notIf, spells_nil, and_comm]

/-- Values with commas between them that were read are those of literals, one at least. -/
theorem exists_of_reads_literals {vs : List Value} (h : Reads (chain .comma literal) all vs rest) :
    ∃ (first : Literal) (others : List Literal),
      Spells all (first.token :: otherTokens others) rest ∧
        (first :: others).map Literal.value = vs := by
  induction vs generalizing all with
  | nil =>
      obtain ⟨v, mid, -, ⟨hnil, -⟩ | ⟨l, more, others, -, -, hnil, -⟩⟩ := exists_of_reads_chain h
      · simp at hnil
      · simp at hnil
  | cons v vs ih =>
      obtain ⟨_, mid, hitem, hmore⟩ := exists_of_reads_chain h
      obtain ⟨first, hfirst, rfl⟩ := reads_literal.1 hitem
      rcases hmore with ⟨heq, -, rfl⟩ | ⟨l, more, others, rfl, hl, heq, hchain⟩
      · obtain ⟨rfl, rfl⟩ := List.cons.inj heq
        exact ⟨first, [], hfirst, rfl⟩
      · obtain ⟨rfl, rfl⟩ := List.cons.inj heq
        obtain ⟨next, rest, hrest, rfl⟩ := ih hchain
        exact ⟨first, next :: rest, hfirst.cons (spells_cons.2 ⟨l, more, rfl, hl, hrest⟩), rfl⟩

/-- Literals with commas between them are read up to where no comma comes next. -/
theorem reads_literals {first : Literal} {others : List Literal}
    (h : Spells all (first.token :: otherTokens others) rest) (hnext : next? rest ≠ some .comma) :
    Reads (chain .comma literal) all ((first :: others).map Literal.value) rest := by
  induction others generalizing all first with
  | nil => exact reads_chain_last (reads_literal.2 ⟨first, h, rfl⟩) hnext
  | cons next others ih =>
      obtain ⟨mid, hfirst, hmore⟩ := h.uncons
      obtain ⟨l, more, rfl, hl, hmore⟩ := spells_cons.1 hmore
      exact reads_chain_more (reads_literal.2 ⟨first, hfirst, rfl⟩) hl (ih hmore)

/-- A list of values is read with its parentheses, and has one value at least. -/
theorem reads_valueList {vs : List Value} :
    Reads valueList all vs rest ↔ ∃ (first : Literal) (others : List Literal),
      Spells all (.open :: first.token :: (otherTokens others ++ [.close])) rest ∧
        (first :: others).map Literal.value = vs := by
  rw [valueList, reads_bind]
  constructor
  · rintro ⟨_, _, hopen, h⟩
    obtain ⟨found, afterList, hlist, h⟩ := reads_bind.1 h
    obtain ⟨_, _, hclose, h⟩ := reads_bind.1 h
    obtain ⟨rfl, rfl⟩ := reads_pure.1 h
    obtain ⟨first, others, hitems, rfl⟩ := exists_of_reads_literals hlist
    exact ⟨first, others, (reads_expect.1 hopen).cons (hitems.append (reads_expect.1 hclose)), rfl⟩
  · rintro ⟨first, others, h, rfl⟩
    obtain ⟨afterOpen, hopen, h⟩ := h.uncons
    obtain ⟨afterList, hitems, hclose⟩ :=
      spells_append.1 (show Spells _ ((first.token :: otherTokens others) ++ [.close]) _ from h)
    have hnext : next? afterList ≠ some .comma := by simp [next?_of_spells hclose]
    exact ⟨(), afterOpen, reads_expect.2 hopen, reads_bind.2 ⟨_, afterList,
      reads_literals hitems hnext, reads_bind.2 ⟨(), rest, reads_expect.2 hclose,
        reads_pure.2 ⟨rfl, rfl⟩⟩⟩⟩

/-! ## Tests -/

/-- A list that is not empty is tested for as it is. -/
theorem among_literals (name : Identifier) (first : Literal) (others : List Literal)
    (negated : Bool) :
    (if negated then Predicate.notAmong name ((first :: others).map Literal.value)
      else Predicate.among name ((first :: others).map Literal.value)) =
      .oneOf name ((first :: others).map Literal.value) negated := by
  cases negated <;> rfl

/-- An operand that is a column was written as its name. -/
theorem Term.eq_column {t : Term} {name : Identifier} (h : t.operand = .column name) :
    ∃ text, t = .column text ∧ Identifier.ofText text = name := by
  cases t with
  | column text => exact ⟨text, rfl, Operand.column.inj h⟩
  | literal l => exact absurd h (by simp [operand])

/-- What is read after the left side of a predicate is the rest of a test. -/
theorem exists_of_reads_predicateTail {start : Option Nat} {left : Term} {negated : Bool}
    {p : Predicate} (h : Reads (predicateTail start left.operand negated) all p rest) :
    ∃ (t : Test) (tail : List Token), t.tokens = left.token :: (notIf negated ++ tail) ∧
      Spells all tail rest ∧ t.predicate = p := by
  rw [predicateTail] at h
  obtain ⟨t?, _, hpeek, hform⟩ := reads_bind.1 h
  obtain ⟨hnext, rfl⟩ := reads_peek.1 hpeek
  split at hform
  · rename_i op
    obtain ⟨_, _, hskip, hform⟩ := reads_bind.1 hform
    obtain ⟨o, _, hoperand, hform⟩ := reads_bind.1 hform
    obtain ⟨right, hright, rfl⟩ := reads_operand.1 hoperand
    obtain ⟨rfl, rfl⟩ := reads_pure.1 hform
    exact ⟨.compare left op right, _, rfl, ((reads_skip_of_next? hnext).1 hskip).cons hright, rfl⟩
  · obtain ⟨_, _, hskip, hform⟩ := reads_bind.1 hform
    obtain ⟨o, _, hoperand, hform⟩ := reads_bind.1 hform
    obtain ⟨right, hright, rfl⟩ := reads_operand.1 hoperand
    obtain ⟨rfl, rfl⟩ := reads_pure.1 hform
    exact ⟨.like left negated right, _, rfl, ((reads_skip_of_next? hnext).1 hskip).cons hright, rfl⟩
  · obtain ⟨_, _, hskip, hform⟩ := reads_bind.1 hform
    obtain ⟨name, _, hcolumn, hform⟩ := reads_bind.1 hform
    obtain ⟨hleft, rfl⟩ := reads_column.1 hcolumn
    obtain ⟨text, rfl, rfl⟩ := Term.eq_column hleft
    obtain ⟨negated, _, hnot, hform⟩ := reads_bind.1 hform
    obtain ⟨_, _, hnull, hform⟩ := reads_bind.1 hform
    obtain ⟨rfl, rfl⟩ := reads_pure.1 hform
    exact ⟨.nullTest text negated, _, rfl, ((reads_skip_of_next? hnext).1 hskip).cons
      ((reads_negated.1 hnot).1.append (reads_expect.1 hnull)), rfl⟩
  · obtain ⟨_, _, hskip, hform⟩ := reads_bind.1 hform
    obtain ⟨name, _, hcolumn, hform⟩ := reads_bind.1 hform
    obtain ⟨hleft, rfl⟩ := reads_column.1 hcolumn
    obtain ⟨text, rfl, rfl⟩ := Term.eq_column hleft
    obtain ⟨values, _, hvalues, hform⟩ := reads_bind.1 hform
    obtain ⟨rfl, rfl⟩ := reads_pure.1 hform
    obtain ⟨first, others, hlist, rfl⟩ := reads_valueList.1 hvalues
    refine ⟨.oneOf text negated first others, _, rfl,
      ((reads_skip_of_next? hnext).1 hskip).cons hlist, ?_⟩
    rw [among_literals]
    rfl
  · obtain ⟨_, _, hskip, hform⟩ := reads_bind.1 hform
    obtain ⟨name, _, hcolumn, hform⟩ := reads_bind.1 hform
    obtain ⟨hleft, rfl⟩ := reads_column.1 hcolumn
    obtain ⟨text, rfl, rfl⟩ := Term.eq_column hleft
    obtain ⟨_, _, hlow, hform⟩ := reads_bind.1 hform
    obtain ⟨_, _, hand, hform⟩ := reads_bind.1 hform
    obtain ⟨_, _, hhigh, hform⟩ := reads_bind.1 hform
    obtain ⟨rfl, rfl⟩ := reads_pure.1 hform
    obtain ⟨low, hlowest, rfl⟩ := reads_literal.1 hlow
    obtain ⟨high, hhighest, rfl⟩ := reads_literal.1 hhigh
    exact ⟨.between text negated low high, _, rfl, ((reads_skip_of_next? hnext).1 hskip).cons
      (hlowest.cons ((reads_expect.1 hand).cons hhighest)), rfl⟩
  · exact absurd hform not_reads_unexpected

/-- A test is read once its left side and the word NOT are. -/
theorem reads_predicate_of_tail {left : Term} {negated : Bool} {tail : List Token} {t : Token}
    {p : Predicate} (h : Spells all (left.token :: (notIf negated ++ t :: tail)) rest)
    (ht : t ≠ .keyword .not)
    (htail : ∀ start mid, Spells mid (t :: tail) rest →
      Reads (predicateTail start left.operand negated) mid p rest) :
    Reads predicate all p rest := by
  obtain ⟨afterLeft, hleft, h⟩ := h.uncons
  obtain ⟨afterNot, hnot, h⟩ := spells_append.1 h
  have hnext : negated = false → next? afterLeft ≠ some (.keyword .not) := by
    rintro rfl
    obtain rfl := spells_nil.1 hnot
    rw [next?_of_spells h]
    exact fun heq => ht (Option.some.inj heq)
  exact reads_bind.2 ⟨_, all, reads_here.2 ⟨rfl, rfl⟩, reads_bind.2 ⟨left.operand, afterLeft,
    reads_operand.2 ⟨left, hleft, rfl⟩, reads_bind.2 ⟨negated, afterNot,
      reads_negated.2 ⟨hnot, hnext⟩, htail _ afterNot h⟩⟩⟩

/-- Every test is read. -/
theorem reads_test {t : Test} (h : Spells all t.tokens rest) :
    Reads predicate all t.predicate rest := by
  cases t with
  | compare left op right =>
      refine reads_predicate_of_tail
        (show Spells all (left.token :: (notIf false ++ _)) rest from h)
        (by simp) fun start mid htail => ?_
      obtain ⟨afterOp, hop, hright⟩ := htail.uncons
      refine reads_bind.2 ⟨_, mid, reads_peek.2 ⟨next?_of_spells hop, rfl⟩, ?_⟩
      exact reads_bind.2 ⟨(), afterOp, (reads_skip_of_next? (next?_of_spells hop)).2 hop,
        reads_bind.2 ⟨right.operand, rest, reads_operand.2 ⟨right, hright, rfl⟩,
          reads_pure.2 ⟨rfl, rfl⟩⟩⟩
  | like left negated pattern =>
      refine reads_predicate_of_tail h (by simp) fun start mid htail => ?_
      obtain ⟨afterOp, hop, hpattern⟩ := htail.uncons
      refine reads_bind.2 ⟨_, mid, reads_peek.2 ⟨next?_of_spells hop, rfl⟩, ?_⟩
      exact reads_bind.2 ⟨(), afterOp, (reads_skip_of_next? (next?_of_spells hop)).2 hop,
        reads_bind.2 ⟨pattern.operand, rest, reads_operand.2 ⟨pattern, hpattern, rfl⟩,
          reads_pure.2 ⟨rfl, rfl⟩⟩⟩
  | nullTest column negated =>
      refine reads_predicate_of_tail
        (show Spells all ((Term.column column).token :: (notIf false ++ _)) rest from h)
        (by simp) fun start mid htail => ?_
      obtain ⟨afterOp, hop, htest⟩ := htail.uncons
      obtain ⟨afterNot, hnot, hnull⟩ := spells_append.1 htest
      have hnext : negated = false → next? afterOp ≠ some (.keyword .not) := by
        rintro rfl
        obtain rfl := spells_nil.1 hnot
        simp [next?_of_spells hnull]
      refine reads_bind.2 ⟨_, mid, reads_peek.2 ⟨next?_of_spells hop, rfl⟩, ?_⟩
      exact reads_bind.2 ⟨(), afterOp, (reads_skip_of_next? (next?_of_spells hop)).2 hop,
        reads_bind.2 ⟨_, afterOp, reads_column.2 ⟨rfl, rfl⟩,
          reads_bind.2 ⟨negated, afterNot, reads_negated.2 ⟨hnot, hnext⟩,
            reads_bind.2 ⟨(), rest, reads_expect.2 hnull, reads_pure.2 ⟨rfl, rfl⟩⟩⟩⟩⟩
  | oneOf column negated first others =>
      refine reads_predicate_of_tail
        (show Spells all ((Term.column column).token :: (notIf negated ++ _)) rest from h)
        (by simp) fun start mid htail => ?_
      obtain ⟨afterOp, hop, hlist⟩ := htail.uncons
      refine reads_bind.2 ⟨_, mid, reads_peek.2 ⟨next?_of_spells hop, rfl⟩, ?_⟩
      exact reads_bind.2 ⟨(), afterOp, (reads_skip_of_next? (next?_of_spells hop)).2 hop,
        reads_bind.2 ⟨_, afterOp, reads_column.2 ⟨rfl, rfl⟩,
          reads_bind.2 ⟨_, rest, reads_valueList.2 ⟨first, others, hlist, rfl⟩,
            reads_pure.2 ⟨among_literals _ first others negated, rfl⟩⟩⟩⟩
  | between column negated low high =>
      refine reads_predicate_of_tail
        (show Spells all ((Term.column column).token :: (notIf negated ++ _)) rest from h)
        (by simp) fun start mid htail => ?_
      obtain ⟨afterOp, hop, hrange⟩ := htail.uncons
      obtain ⟨afterLow, hlow, hrange⟩ := hrange.uncons
      obtain ⟨afterAnd, hand, hhigh⟩ := hrange.uncons
      refine reads_bind.2 ⟨_, mid, reads_peek.2 ⟨next?_of_spells hop, rfl⟩, ?_⟩
      exact reads_bind.2 ⟨(), afterOp, (reads_skip_of_next? (next?_of_spells hop)).2 hop,
        reads_bind.2 ⟨_, afterOp, reads_column.2 ⟨rfl, rfl⟩,
          reads_bind.2 ⟨low.value, afterLow, reads_literal.2 ⟨low, hlow, rfl⟩,
            reads_bind.2 ⟨(), afterAnd, reads_expect.2 hand,
              reads_bind.2 ⟨high.value, rest, reads_literal.2 ⟨high, hhigh, rfl⟩,
                reads_pure.2 ⟨rfl, rfl⟩⟩⟩⟩⟩⟩

/-- **The tests of the grammar are what is read as a predicate.** -/
theorem reads_predicate {p : Predicate} :
    Reads predicate all p rest ↔ ∃ t : Test, Spells all t.tokens rest ∧ t.predicate = p := by
  constructor
  · intro h
    rw [predicate] at h
    obtain ⟨start, _, hstart, h⟩ := reads_bind.1 h
    obtain ⟨-, rfl⟩ := reads_here.1 hstart
    obtain ⟨_, afterLeft, hoperand, h⟩ := reads_bind.1 h
    obtain ⟨left, hleft, rfl⟩ := reads_operand.1 hoperand
    obtain ⟨negated, afterNot, hnot, h⟩ := reads_bind.1 h
    obtain ⟨t, tail, htokens, htail, rfl⟩ := exists_of_reads_predicateTail h
    refine ⟨t, ?_, rfl⟩
    rw [htokens]
    exact hleft.cons ((reads_negated.1 hnot).1.append htail)
  · rintro ⟨t, h, rfl⟩
    exact reads_test h

end ConditionText

end BoundSql
