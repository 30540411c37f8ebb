import BoundSql.Proofs.ConditionText.Parsing
import BoundSql.Proofs.Except

/-!
# The parser accepts the grammar

A chain takes all the members it can, so no separator of its own follows it, and a
member is read in a room that is more than the depth of its derivation.  By induction
on the room, the members read are the derivations of smaller depth.

So a text is accepted as a predicate exactly when all its tokens together are spelled
by a derivation of that predicate, at most 63 deep.  The length of a chain does not
count against the depth, and no token is passed over.
-/

namespace BoundSql

namespace ConditionText

/-- A parser of the members of a conjunction, of a limited depth. -/
def ReadsMembers (room : Nat) (item : Parse Predicate) : Prop :=
  ∀ {all rest : List Lexeme} {p : Predicate}, Reads item all p rest ↔
    ∃ u : Unary, u.depth < room ∧ Spells all u.tokens rest ∧ u.predicate = p

/-- A parser of conjunctions, of a limited depth. -/
def ReadsConjunctions (room : Nat) (item : Parse Predicate) : Prop :=
  ∀ {all rest : List Lexeme} {p : Predicate}, Reads item all p rest ↔
    ∃ c : Conjunction, c.depth < room ∧ Spells all c.tokens rest ∧ c.predicate = p ∧
      next? rest ≠ some (.keyword .and)

variable {all rest : List Lexeme} {room : Nat} {item : Parse Predicate}

/-- Members with AND between them that were read are those of a conjunction, which ends there. -/
theorem exists_of_reads_members (hitem : ReadsMembers room item) {ps : List Predicate}
    (h : Reads (chain (.keyword .and) item) all ps rest) :
    ∃ c : Conjunction, c.depth < room ∧ Spells all c.tokens rest ∧ c.members = ps ∧
      next? rest ≠ some (.keyword .and) := by
  induction ps generalizing all with
  | nil =>
      obtain ⟨p, mid, -, ⟨hnil, -⟩ | ⟨l, more, others, -, -, hnil, -⟩⟩ := exists_of_reads_chain h
      · simp at hnil
      · simp at hnil
  | cons p ps ih =>
      obtain ⟨_, mid, hmember, hmore⟩ := exists_of_reads_chain h
      obtain ⟨u, hdepth, hu, rfl⟩ := hitem.1 hmember
      rcases hmore with ⟨heq, hnext, rfl⟩ | ⟨l, more, others, rfl, hl, heq, hchain⟩
      · obtain ⟨rfl, rfl⟩ := List.cons.inj heq
        exact ⟨.last u, hdepth, hu, rfl, hnext⟩
      · obtain ⟨rfl, rfl⟩ := List.cons.inj heq
        obtain ⟨c, hrest, hc, rfl, hnext⟩ := ih hchain
        exact ⟨.and u c, Nat.max_lt.2 ⟨hdepth, hrest⟩,
          hu.append (spells_cons.2 ⟨l, more, rfl, hl, hc⟩), rfl, hnext⟩

/-- The members of a conjunction are read, one by one. -/
theorem reads_members (hitem : ReadsMembers room item) : ∀ (c : Conjunction) {all : List Lexeme},
    c.depth < room → Spells all c.tokens rest → next? rest ≠ some (.keyword .and) →
      Reads (chain (.keyword .and) item) all c.members rest
  | .last u, _, hdepth, h, hnext => reads_chain_last (hitem.2 ⟨u, hdepth, h, rfl⟩) hnext
  | .and u c, _, hdepth, h, hnext => by
      obtain ⟨hu, hc⟩ := Nat.max_lt.1 hdepth
      obtain ⟨mid, hmember, hmore⟩ := spells_append.1 h
      obtain ⟨l, more, rfl, hl, hmore⟩ := spells_cons.1 hmore
      exact reads_chain_more (hitem.2 ⟨u, hu, hmember, rfl⟩) hl
        (reads_members hitem c hc hmore hnext)

/-- From a parser of members comes one of conjunctions of the same depth. -/
theorem reads_conjunction (hitem : ReadsMembers room item) :
    ReadsConjunctions room (conjunction item) := by
  intro all rest p
  constructor
  · intro h
    obtain ⟨ps, mid, hchain, h⟩ := reads_bind.1 h
    obtain ⟨rfl, rfl⟩ := reads_pure.1 h
    obtain ⟨c, hdepth, hc, rfl, hnext⟩ := exists_of_reads_members hitem hchain
    exact ⟨c, hdepth, hc, rfl, hnext⟩
  · rintro ⟨c, hdepth, hc, rfl, hnext⟩
    exact reads_bind.2 ⟨c.members, rest, reads_members hitem c hdepth hc hnext,
      reads_pure.2 ⟨rfl, rfl⟩⟩

/-- Conjunctions with OR between them that were read are those of a disjunction, which ends
there. -/
theorem exists_of_reads_conjunctions (hitem : ReadsConjunctions room item) {ps : List Predicate}
    (h : Reads (chain (.keyword .or) item) all ps rest) :
    ∃ d : Disjunction, d.depth < room ∧ Spells all d.tokens rest ∧ d.members = ps ∧
      next? rest ≠ some (.keyword .and) ∧ next? rest ≠ some (.keyword .or) := by
  induction ps generalizing all with
  | nil =>
      obtain ⟨p, mid, -, ⟨hnil, -⟩ | ⟨l, more, others, -, -, hnil, -⟩⟩ := exists_of_reads_chain h
      · simp at hnil
      · simp at hnil
  | cons p ps ih =>
      obtain ⟨_, mid, hmember, hmore⟩ := exists_of_reads_chain h
      obtain ⟨c, hdepth, hc, rfl, hand⟩ := hitem.1 hmember
      rcases hmore with ⟨heq, hnext, rfl⟩ | ⟨l, more, others, rfl, hl, heq, hchain⟩
      · obtain ⟨rfl, rfl⟩ := List.cons.inj heq
        exact ⟨.last c, hdepth, hc, rfl, hand, hnext⟩
      · obtain ⟨rfl, rfl⟩ := List.cons.inj heq
        obtain ⟨d, hrest, hd, rfl, hnext⟩ := ih hchain
        exact ⟨.or c d, Nat.max_lt.2 ⟨hdepth, hrest⟩,
          hc.append (spells_cons.2 ⟨l, more, rfl, hl, hd⟩), rfl, hnext⟩

/-- The members of a disjunction are read, one by one. -/
theorem reads_conjunctions (hitem : ReadsConjunctions room item) :
    ∀ (d : Disjunction) {all : List Lexeme}, d.depth < room → Spells all d.tokens rest →
      next? rest ≠ some (.keyword .and) → next? rest ≠ some (.keyword .or) →
        Reads (chain (.keyword .or) item) all d.members rest
  | .last c, _, hdepth, h, hand, hor => reads_chain_last (hitem.2 ⟨c, hdepth, h, rfl, hand⟩) hor
  | .or c d, _, hdepth, h, hand, hor => by
      obtain ⟨hc, hd⟩ := Nat.max_lt.1 hdepth
      obtain ⟨mid, hmember, hmore⟩ := spells_append.1 h
      have hnext : next? mid ≠ some (.keyword .and) := by simp [next?_of_spells hmore]
      obtain ⟨l, more, rfl, hl, hmore⟩ := spells_cons.1 hmore
      exact reads_chain_more (hitem.2 ⟨c, hc, hmember, rfl, hnext⟩) hl
        (reads_conjunctions hitem d hd hmore hand hor)

/-- From a parser of members comes one of disjunctions: it reads one that cannot go on. -/
theorem reads_disjunction (hitem : ReadsMembers room item) {p : Predicate} :
    Reads (disjunction item) all p rest ↔
      ∃ d : Disjunction, d.depth < room ∧ Spells all d.tokens rest ∧ d.predicate = p ∧
        next? rest ≠ some (.keyword .and) ∧ next? rest ≠ some (.keyword .or) := by
  constructor
  · intro h
    obtain ⟨ps, mid, hchain, h⟩ := reads_bind.1 h
    obtain ⟨rfl, rfl⟩ := reads_pure.1 h
    obtain ⟨d, hdepth, hd, rfl, hnext⟩ :=
      exists_of_reads_conjunctions (reads_conjunction hitem) hchain
    exact ⟨d, hdepth, hd, rfl, hnext⟩
  · rintro ⟨d, hdepth, hd, rfl, hand, hor⟩
    exact reads_bind.2 ⟨d.members, rest,
      reads_conjunctions (reads_conjunction hitem) d hdepth hd hand hor, reads_pure.2 ⟨rfl, rfl⟩⟩

/-- A test starts with a column or a literal. -/
theorem next?_ne_of_test {t : Test} {u : Token} (h : Spells all t.tokens rest)
    (hl : u.literal? = none) (hn : ∀ name, u ≠ .name name) : next? all ≠ some u := by
  obtain ⟨first, more, ht⟩ := t.exists_tokens_eq
  rw [ht] at h
  rw [next?_of_spells h]
  exact fun heq => Term.token_ne hl hn (Option.some.inj heq)

/-- What was read with room for one more level is a member of that depth. -/
theorem exists_of_reads_unary (hroom : ReadsMembers room (unary room)) {p : Predicate}
    (h : Reads (unary (room + 1)) all p rest) :
    ∃ u : Unary, u.depth < room + 1 ∧ Spells all u.tokens rest ∧ u.predicate = p := by
  obtain ⟨negated, afterNot, hnot, h⟩ := reads_bind.1 h
  cases negated with
  | true =>
      obtain ⟨_, _, hbody, h⟩ := reads_bind.1 h
      obtain ⟨rfl, rfl⟩ := reads_pure.1 h
      obtain ⟨u, hdepth, hu, rfl⟩ := hroom.1 hbody
      exact ⟨.not u, Nat.succ_lt_succ hdepth, (reads_negated.1 hnot).1.cons hu, rfl⟩
  | false =>
      obtain ⟨hnotNot, rfl⟩ := reads_eat.1 hnot
      obtain ⟨opened, afterOpen, hopen, hbody⟩ := reads_bind.1 h
      cases opened with
      | true =>
          obtain ⟨_, mid, hinner, hend⟩ := reads_bind.1 hbody
          obtain ⟨_, _, hclose, hresult⟩ := reads_bind.1 hend
          obtain ⟨rfl, rfl⟩ := reads_pure.1 hresult
          obtain ⟨l, rfl, hl⟩ := reads_eat.1 hopen
          obtain ⟨d, hdepth, hd, rfl, -⟩ := (reads_disjunction hroom).1 hinner
          exact ⟨.group d, Nat.succ_lt_succ hdepth,
            spells_cons.2 ⟨l, _, rfl, hl, hd.append (reads_expect.1 hclose)⟩, rfl⟩
      | false =>
          obtain ⟨-, rfl⟩ := reads_eat.1 hopen
          obtain ⟨t, ht, rfl⟩ := reads_predicate.1 hbody
          exact ⟨.test t, Nat.succ_pos room, ht, rfl⟩

/-- With room for one more level a member of that depth is read. -/
theorem reads_unary (hroom : ReadsMembers room (unary room)) {u : Unary}
    (hdepth : u.depth < room + 1) (hu : Spells all u.tokens rest) :
    Reads (unary (room + 1)) all u.predicate rest := by
  cases u with
  | not body =>
      obtain ⟨mid, hnot, hbody⟩ := Spells.uncons hu
      exact reads_bind.2 ⟨true, mid, reads_negated.2 ⟨hnot, by simp⟩, reads_bind.2
        ⟨body.predicate, rest, hroom.2 ⟨body, Nat.lt_of_succ_lt_succ hdepth, hbody, rfl⟩,
          reads_pure.2 ⟨rfl, rfl⟩⟩⟩
  | group inner =>
      have hnext : next? all ≠ some (.keyword .not) := by simp [next?_of_spells hu]
      obtain ⟨l, more, rfl, hl, hmore⟩ := spells_cons.1 hu
      obtain ⟨mid, hinner, hclose⟩ := spells_append.1 hmore
      have hend := next?_of_spells hclose
      have hread : Reads (disjunction (unary room)) more inner.predicate mid :=
        (reads_disjunction hroom).2 ⟨inner, Nat.lt_of_succ_lt_succ hdepth, hinner, rfl,
          by simp [hend], by simp [hend]⟩
      exact reads_bind.2 ⟨false, _, reads_eat.2 ⟨hnext, rfl⟩,
        reads_bind.2 ⟨true, more, reads_eat.2 ⟨l, rfl, hl⟩,
          reads_bind.2 ⟨_, mid, hread,
            reads_bind.2 ⟨(), rest, reads_expect.2 hclose, reads_pure.2 ⟨rfl, rfl⟩⟩⟩⟩⟩
  | test t =>
      have hnot : next? all ≠ some (.keyword .not) := next?_ne_of_test hu rfl (by simp)
      have hopen : next? all ≠ some .open := next?_ne_of_test hu rfl (by simp)
      exact reads_bind.2 ⟨false, all, reads_eat.2 ⟨hnot, rfl⟩,
        reads_bind.2 ⟨false, all, reads_eat.2 ⟨hopen, rfl⟩,
          reads_predicate.2 ⟨t, hu, rfl⟩⟩⟩

/-- **The members read are the derivations of less depth than the room.** -/
theorem readsMembers_unary (room : Nat) : ReadsMembers room (unary room) := by
  induction room with
  | zero =>
      intro all rest p
      constructor
      · intro h
        obtain ⟨_, _, -, h⟩ := reads_bind.1 h
        exact absurd h not_reads_failAt
      · rintro ⟨u, hdepth, -⟩
        exact absurd hdepth (Nat.not_lt_zero _)
  | succ room ih =>
      intro all rest p
      constructor
      · exact exists_of_reads_unary ih
      · rintro ⟨u, hdepth, hu, rfl⟩
        exact reads_unary ih hdepth hu

mutual

/-- No member is written without tokens. -/
theorem Unary.tokens_ne_nil : ∀ u : Unary, u.tokens ≠ []
  | .not body => by simp [Unary.tokens]
  | .group inner => by simp [Unary.tokens]
  | .test t => by
      obtain ⟨first, more, ht⟩ := t.exists_tokens_eq
      simp [Unary.tokens, ht]

/-- No conjunction is written without tokens. -/
theorem Conjunction.tokens_ne_nil : ∀ c : Conjunction, c.tokens ≠ []
  | .last member => member.tokens_ne_nil
  | .and member rest => by simp [Conjunction.tokens]

/-- No disjunction is written without tokens. -/
theorem Disjunction.tokens_ne_nil : ∀ d : Disjunction, d.tokens ≠ []
  | .last member => member.tokens_ne_nil
  | .or member rest => by simp [Disjunction.tokens]

end

/-- A text is cut into tokens, and a derivation spells all of them. -/
structure Derives (text : String) (d : Disjunction) : Prop where
  cut : (Lexed.scan text).fault? = none
  spelled : d.tokens = (Lexed.scan text).lexemes.map Lexeme.token

/-- A text has one derivation at most. -/
theorem Derives.unique {text : String} {d d' : Disjunction} (h : Derives text d)
    (h' : Derives text d') : d = d' :=
  Disjunction.tokens_injective (h.spelled.trans h'.spelled.symm)

/-- A text with a derivation is not blank. -/
theorem Derives.lexemes_ne_nil {text : String} {d : Disjunction} (h : Derives text d) :
    (Lexed.scan text).lexemes ≠ [] := by
  intro hnil
  have hspelled := h.spelled
  rw [hnil] at hspelled
  exact d.tokens_ne_nil hspelled

/-- Tokens up to the end are all the tokens there are. -/
theorem spells_all {all : List Lexeme} {tokens : List Token} :
    Spells all tokens [] ↔ tokens = all.map Lexeme.token := by
  constructor
  · rintro ⟨front, rfl, rfl⟩
    rw [List.append_nil]
  · rintro rfl
    exact ⟨all, by rw [List.append_nil], rfl⟩

/-- What is parsed is a disjunction that all the lexemes are used up by. -/
theorem parse_eq_ok {text : String} {p : Predicate} :
    parse text = .ok p ↔ (Lexed.scan text).fault? = none ∧ (Lexed.scan text).lexemes ≠ [] ∧
      Reads (disjunction (unary maxDepth)) (Lexed.scan text).lexemes p [] := by
  constructor
  · intro h
    simp only [parse] at h
    split at h
    · simp at h
    · rename_i hfault
      split at h
      · simp at h
      · rename_i hne
        split at h
        · simp at h
        · rename_i found rest hread
          split at h
          · rename_i hnil
            obtain rfl := Except.ok.inj h
            obtain ⟨lexemes, hrest⟩ := rest
            obtain rfl : lexemes = [] := hnil
            exact ⟨hfault, by simpa using hne, hrest, hread⟩
          · simp at h
  · rintro ⟨hfault, hne, hrest, hread⟩
    simp only [parse, hfault, List.isEmpty_iff, if_neg hne, hread]

end ConditionText

open ConditionText

/-- A text is accepted as a predicate when a derivation of that predicate, at most 63
deep, spells all its tokens. -/
theorem Predicate.ofText_eq_ok {text : String} {p : Predicate} :
    ofText text = .ok p ↔ ∃ d, Derives text d ∧ d.depth ≤ 63 ∧ d.predicate = p := by
  rw [ofText, mapError_eq_ok, parse_eq_ok, reads_disjunction (readsMembers_unary maxDepth)]
  constructor
  · rintro ⟨hcut, -, d, hdepth, hd, hp, -⟩
    exact ⟨d, ⟨hcut, spells_all.1 hd⟩, Nat.le_of_lt_succ hdepth, hp⟩
  · rintro ⟨d, hd, hdepth, hp⟩
    exact ⟨hd.cut, hd.lexemes_ne_nil, d, Nat.lt_succ_of_le hdepth, spells_all.2 hd.spelled, hp,
      by simp [next?], by simp [next?]⟩

/-- A text that is no condition is refused with a message and a byte offset. -/
theorem Predicate.ofText_eq_ok_or_error (text : String) :
    (∃ p, ofText text = .ok p) ∨
      ∃ message offset, ofText text = .error (.unparsable message offset) := by
  cases h : parse text with
  | ok p => exact .inl ⟨p, by rw [ofText, h]; rfl⟩
  | error e => exact .inr ⟨_, _, by rw [ofText, h]; rfl⟩

/-- **The grammar is what is accepted.**  A text is accepted as a predicate exactly
when a derivation of that predicate, at most 63 deep, spells all its tokens.  No text
has two derivations, and a text without one of that depth is refused as no condition. -/
theorem Predicate.ofText_accepts_grammar (text : String) :
    (∀ p, ofText text = .ok p ↔ ∃ d, Derives text d ∧ d.depth ≤ 63 ∧ d.predicate = p) ∧
      (∀ d d', Derives text d → Derives text d' → d = d') ∧
      ((¬∃ d, Derives text d ∧ d.depth ≤ 63) →
        ∃ message offset, ofText text = .error (.unparsable message offset)) := by
  refine ⟨fun p => ofText_eq_ok, fun d d' h h' => h.unique h', fun hnone => ?_⟩
  rcases ofText_eq_ok_or_error text with ⟨p, hp⟩ | herror
  · obtain ⟨d, hd, hdepth, -⟩ := ofText_eq_ok.1 hp
    exact absurd ⟨d, hd, hdepth⟩ hnone
  · exact herror

end BoundSql
