import BoundSql.ConditionText.Parser

/-!
# The grammar of condition text

A derivation of the grammar is a tree of its own: a chain of conjunctions joined by
OR, each a chain of members joined by AND, each member a negation, a group in
parentheses or one of the five forms of a test.  A derivation has the tokens that it
spells, the predicate that it denotes, and a depth, the most negations and
parentheses around one of its tests; a chain adds nothing to the depth.

The grammar is unambiguous: no two derivations spell the same tokens
(`Disjunction.tokens_injective`).  The AND of a range is no obstacle, since the test
that it stands in is longer than what comes before it.
-/

namespace BoundSql

namespace ConditionText

/-- A literal. -/
inductive Literal
  | string (s : String)
  | int (n : Int64)
  | float (d : Double)
  | bool (b : Bool)
  | null

namespace Literal

def token : Literal → Token
  | .string s => .string s
  | .int n => .int n
  | .float d => .float d
  | .bool b => .keyword (if b then .true else .false)
  | .null => .keyword .null

def value : Literal → Value
  | .string s => .text s
  | .int n => .int n
  | .float d => .float d
  | .bool b => .bool b
  | .null => .null

/-- The token of a literal stands for its value. -/
theorem literal?_token (l : Literal) : l.token.literal? = some l.value := by
  rcases l with s | n | d | b | _
  case bool => cases b <;> rfl
  all_goals rfl

/-- A token that stands for a value is the token of a literal. -/
theorem exists_of_literal? {t : Token} {v : Value} (h : t.literal? = some v) :
    ∃ l : Literal, l.token = t ∧ l.value = v := by
  cases t with
  | string s => exact ⟨.string s, rfl, Option.some.inj h⟩
  | int n => exact ⟨.int n, rfl, Option.some.inj h⟩
  | float d => exact ⟨.float d, rfl, Option.some.inj h⟩
  | keyword k =>
      cases k with
      | true => exact ⟨.bool true, rfl, Option.some.inj h⟩
      | false => exact ⟨.bool false, rfl, Option.some.inj h⟩
      | null => exact ⟨.null, rfl, Option.some.inj h⟩
      | _ => exact absurd h (Option.some_ne_none v).symm
  | _ => exact absurd h (Option.some_ne_none v).symm

/-- The token of a literal is none of the other tokens. -/
theorem token_ne_of_literal? {l : Literal} {t : Token} (h : t.literal? = none) : l.token ≠ t := by
  rintro rfl
  rw [literal?_token] at h
  exact Option.some_ne_none _ h

/-- No literal is written as a name. -/
theorem token_ne_name {l : Literal} {name : String} : l.token ≠ .name name :=
  token_ne_of_literal? rfl

/-- A literal is known by its token. -/
theorem token_injective {l l' : Literal} (h : l.token = l'.token) : l = l' := by
  cases l with
  | string s => cases l' with
    | string s' => exact congrArg string (Token.string.inj h)
    | bool b => cases b <;> exact absurd h (by simp [token])
    | _ => exact absurd h (by simp [token])
  | int n => cases l' with
    | int n' => exact congrArg int (Token.int.inj h)
    | bool b => cases b <;> exact absurd h (by simp [token])
    | _ => exact absurd h (by simp [token])
  | float d => cases l' with
    | float d' => exact congrArg float (Token.float.inj h)
    | bool b => cases b <;> exact absurd h (by simp [token])
    | _ => exact absurd h (by simp [token])
  | bool b => cases l' with
    | bool b' => cases b <;> cases b' <;> simp_all [token]
    | _ => cases b <;> exact absurd h (by simp [token])
  | null => cases l' with
    | null => rfl
    | bool b => cases b <;> exact absurd h (by simp [token])
    | _ => exact absurd h (by simp [token])

end Literal

/-- A side of a comparison. -/
inductive Term
  | column (name : String)
  | literal (l : Literal)

namespace Term

def token : Term → Token
  | .column name => .name name
  | .literal l => l.token

def operand : Term → Operand
  | .column name => .column (Identifier.ofText name)
  | .literal l => .value l.value

/-- A term is known by its token. -/
theorem token_injective {t t' : Term} (h : t.token = t'.token) : t = t' := by
  cases t with
  | column name =>
      cases t' with
      | column name' => exact congrArg column (Token.name.inj h)
      | literal l' => exact absurd h.symm Literal.token_ne_name
  | literal l =>
      cases t' with
      | column name' => exact absurd h Literal.token_ne_name
      | literal l' => exact congrArg literal (Literal.token_injective h)

end Term

/-- A test: a predicate without negations and parentheses around it. -/
inductive Test
  | compare (left : Term) (op : Comparison) (right : Term)
  | like (left : Term) (negated : Bool) (pattern : Term)
  | nullTest (column : String) (negated : Bool)
  | oneOf (column : String) (negated : Bool) (first : Literal) (others : List Literal)
  | between (column : String) (negated : Bool) (low high : Literal)

/-- The word NOT, where it stands. -/
def notIf (negated : Bool) : List Token := if negated then [.keyword .not] else []

/-- The items of a list after the first one. -/
def otherTokens (others : List Literal) : List Token :=
  others.flatMap fun l => [.comma, l.token]

/-- A predicate, negated or not. -/
def negateIf (negated : Bool) (p : Predicate) : Predicate := if negated then .not p else p

namespace Test

def tokens : Test → List Token
  | .compare left op right => [left.token, .comparison op, right.token]
  | .like left negated pattern => left.token :: (notIf negated ++ [.keyword .like, pattern.token])
  | .nullTest column negated =>
    .name column :: .keyword .is :: (notIf negated ++ [.keyword .null])
  | .oneOf column negated first others =>
    .name column :: (notIf negated ++
      .keyword .in :: .open :: first.token :: (otherTokens others ++ [.close]))
  | .between column negated low high =>
    .name column :: (notIf negated ++ [.keyword .between, low.token, .keyword .and, high.token])

def predicate : Test → Predicate
  | .compare left op right => .compare left.operand op right.operand
  | .like left negated pattern => negateIf negated (.compare left.operand .like pattern.operand)
  | .nullTest column negated => .nullTest (Identifier.ofText column) negated
  | .oneOf column negated first others =>
    .oneOf (Identifier.ofText column) ((first :: others).map Literal.value) negated
  | .between column negated low high =>
    negateIf negated (.between (Identifier.ofText column) low.value high.value)

end Test

mutual

/-- A member of a conjunction. -/
inductive Unary
  | not (body : Unary)
  | group (inner : Disjunction)
  | test (t : Test)

/-- One member, or more of them with AND between. -/
inductive Conjunction
  | last (member : Unary)
  | and (member : Unary) (rest : Conjunction)

/-- One conjunction, or more of them with OR between. -/
inductive Disjunction
  | last (member : Conjunction)
  | or (member : Conjunction) (rest : Disjunction)

end

mutual

/-- The tokens that a derivation spells. -/
def Unary.tokens : Unary → List Token
  | .not body => .keyword .not :: body.tokens
  | .group inner => .open :: inner.tokens ++ [.close]
  | .test t => t.tokens

def Conjunction.tokens : Conjunction → List Token
  | .last member => member.tokens
  | .and member rest => member.tokens ++ .keyword .and :: rest.tokens

def Disjunction.tokens : Disjunction → List Token
  | .last member => member.tokens
  | .or member rest => member.tokens ++ .keyword .or :: rest.tokens

end

mutual

/-- The predicate that a derivation denotes. -/
def Unary.predicate : Unary → Predicate
  | .not body => .not body.predicate
  | .group inner => collapse .or inner.members
  | .test t => t.predicate

/-- The predicates of the members of a chain. -/
def Conjunction.members : Conjunction → List Predicate
  | .last member => [member.predicate]
  | .and member rest => member.predicate :: rest.members

def Disjunction.members : Disjunction → List Predicate
  | .last member => [collapse .and member.members]
  | .or member rest => collapse .and member.members :: rest.members

end

/-- The members of a chain in one group, a single one by itself. -/
def Conjunction.predicate (c : Conjunction) : Predicate := collapse .and c.members

def Disjunction.predicate (d : Disjunction) : Predicate := collapse .or d.members

mutual

/-- The most negations and parentheses around a test. -/
def Unary.depth : Unary → Nat
  | .not body => body.depth + 1
  | .group inner => inner.depth + 1
  | .test _ => 0

def Conjunction.depth : Conjunction → Nat
  | .last member => member.depth
  | .and member rest => max member.depth rest.depth

def Disjunction.depth : Disjunction → Nat
  | .last member => member.depth
  | .or member rest => max member.depth rest.depth

end

/-! ## Unambiguity -/

/-- A term is written as no token other than a name and those of literals. -/
theorem Term.token_ne {t : Term} {u : Token} (hl : u.literal? = none)
    (hn : ∀ name, u ≠ .name name) : t.token ≠ u := by
  cases t with
  | column name => exact fun h => hn name h.symm
  | literal l => exact Literal.token_ne_of_literal? hl

/-- The items of a list in parentheses, its end, and what follows. -/
theorem others_eq_of_tokens_eq {others others' : List Literal} {r r' : List Token}
    (h : otherTokens others ++ .close :: r = otherTokens others' ++ .close :: r') :
    others = others' ∧ r = r' := by
  induction others generalizing others' with
  | nil =>
      cases others' with
      | nil => exact ⟨rfl, (List.cons.inj h).2⟩
      | cons l' more' => exact absurd (List.cons.inj h).1 (by simp)
  | cons l more ih =>
      cases others' with
      | nil => exact absurd (List.cons.inj h).1 (by simp)
      | cons l' more' =>
          obtain ⟨hl, hmore⟩ := List.cons.inj (List.cons.inj h).2
          obtain ⟨rfl, rfl⟩ := ih hmore
          exact ⟨by rw [Literal.token_injective hl], rfl⟩

/-- The tokens of a test determine it, and where it ends. -/
theorem Test.eq_of_tokens_eq {t t' : Test} {r r' : List Token}
    (h : t.tokens ++ r = t'.tokens ++ r') : t = t' ∧ r = r' := by
  rcases t with ⟨a, op, b⟩ | ⟨a, _ | _, b⟩ | ⟨c, _ | _⟩ | ⟨c, _ | _, f, o⟩ | ⟨c, _ | _, l, u⟩ <;>
    rcases t' with ⟨a', op', b'⟩ | ⟨a', _ | _, b'⟩ | ⟨c', _ | _⟩ | ⟨c', _ | _, f', o'⟩ |
      ⟨c', _ | _, l', u'⟩ <;>
    simp [tokens, notIf] at h
  case compare.compare =>
    obtain ⟨ha, rfl, hb, rfl⟩ := h
    exact ⟨by rw [Term.token_injective ha, Term.token_injective hb], rfl⟩
  case like.false.like.false | like.true.like.true =>
    obtain ⟨ha, hb, rfl⟩ := h
    exact ⟨by rw [Term.token_injective ha, Term.token_injective hb], rfl⟩
  case nullTest.false.nullTest.false | nullTest.true.nullTest.true =>
    obtain ⟨rfl, rfl⟩ := h
    exact ⟨rfl, rfl⟩
  case oneOf.false.oneOf.false | oneOf.true.oneOf.true =>
    obtain ⟨rfl, hf, ho⟩ := h
    obtain ⟨rfl, rfl⟩ := others_eq_of_tokens_eq ho
    exact ⟨by rw [Literal.token_injective hf], rfl⟩
  case between.false.between.false | between.true.between.true =>
    obtain ⟨rfl, hl, hu, rfl⟩ := h
    exact ⟨by rw [Literal.token_injective hl, Literal.token_injective hu], rfl⟩

/-- A test starts with a column or a literal. -/
theorem Test.exists_tokens_eq (t : Test) : ∃ (first : Term) (rest : List Token),
    t.tokens = first.token :: rest := by
  cases t with
  | compare left op right => exact ⟨left, _, rfl⟩
  | like left negated pattern => exact ⟨left, _, rfl⟩
  | nullTest column negated => exact ⟨.column column, _, rfl⟩
  | oneOf column negated first others => exact ⟨.column column, _, rfl⟩
  | between column negated low high => exact ⟨.column column, _, rfl⟩

/-- A test starts with no other token than a term does. -/
theorem Test.tokens_append_ne {t : Test} {r r' : List Token} {u : Token}
    (hl : u.literal? = none) (hn : ∀ name, u ≠ .name name) : t.tokens ++ r ≠ u :: r' := by
  obtain ⟨first, rest, ht⟩ := t.exists_tokens_eq
  rw [ht]
  exact fun h => Term.token_ne hl hn (List.cons.inj h).1

mutual

/-- A member of a conjunction ends by itself. -/
theorem Unary.eq_of_tokens_eq : ∀ (u u' : Unary) {r r' : List Token},
    u.tokens ++ r = u'.tokens ++ r' → u = u' ∧ r = r'
  | .not body, .not body', _, _, h => by
      obtain ⟨rfl, rfl⟩ := Unary.eq_of_tokens_eq body body' (List.cons.inj h).2
      exact ⟨rfl, rfl⟩
  | .group inner, .group inner', r, r', h => by
      simp only [Unary.tokens, List.cons_append, List.append_assoc] at h
      obtain ⟨rfl, hr⟩ := Disjunction.eq_of_tokens_eq inner inner' (by simp) (by simp)
        (by simp) (by simp) (List.cons.inj h).2
      exact ⟨rfl, (List.cons.inj hr).2⟩
  | .test t, .test t', _, _, h => by
      obtain ⟨rfl, rfl⟩ := Test.eq_of_tokens_eq h
      exact ⟨rfl, rfl⟩
  | .not _, .group _, _, _, h => absurd (List.cons.inj h).1 (by simp)
  | .group _, .not _, _, _, h => absurd (List.cons.inj h).1 (by simp)
  | .not _, .test _, _, _, h => absurd h.symm (Test.tokens_append_ne rfl (by simp))
  | .test _, .not _, _, _, h => absurd h (Test.tokens_append_ne rfl (by simp))
  | .group _, .test _, _, _, h => absurd h.symm (Test.tokens_append_ne rfl (by simp))
  | .test _, .group _, _, _, h => absurd h (Test.tokens_append_ne rfl (by simp))

/-- A conjunction ends where no AND follows. -/
theorem Conjunction.eq_of_tokens_eq : ∀ (c c' : Conjunction) {r r' : List Token},
    r.head? ≠ some (.keyword .and) → r'.head? ≠ some (.keyword .and) →
      c.tokens ++ r = c'.tokens ++ r' → c = c' ∧ r = r'
  | .last member, .last member', _, _, _, _, h => by
      obtain ⟨rfl, rfl⟩ := Unary.eq_of_tokens_eq member member' h
      exact ⟨rfl, rfl⟩
  | .and member rest, .and member' rest', _, _, hr, hr', h => by
      simp only [Conjunction.tokens, List.append_assoc, List.cons_append] at h
      obtain ⟨rfl, hmore⟩ := Unary.eq_of_tokens_eq member member' h
      obtain ⟨rfl, rfl⟩ :=
        Conjunction.eq_of_tokens_eq rest rest' hr hr' (List.cons.inj hmore).2
      exact ⟨rfl, rfl⟩
  | .last member, .and member' rest', _, _, hr, _, h => by
      simp only [Conjunction.tokens, List.append_assoc] at h
      obtain ⟨-, rfl⟩ := Unary.eq_of_tokens_eq member member' h
      exact absurd rfl hr
  | .and member rest, .last member', _, _, _, hr', h => by
      simp only [Conjunction.tokens, List.append_assoc] at h
      obtain ⟨-, rfl⟩ := Unary.eq_of_tokens_eq member member' h
      exact absurd rfl hr'

/-- A disjunction ends where neither AND nor OR follows. -/
theorem Disjunction.eq_of_tokens_eq : ∀ (d d' : Disjunction) {r r' : List Token},
    r.head? ≠ some (.keyword .and) → r'.head? ≠ some (.keyword .and) →
      r.head? ≠ some (.keyword .or) → r'.head? ≠ some (.keyword .or) →
        d.tokens ++ r = d'.tokens ++ r' → d = d' ∧ r = r'
  | .last member, .last member', _, _, ha, ha', _, _, h => by
      obtain ⟨rfl, rfl⟩ := Conjunction.eq_of_tokens_eq member member' ha ha' h
      exact ⟨rfl, rfl⟩
  | .or member rest, .or member' rest', _, _, ha, ha', ho, ho', h => by
      simp only [Disjunction.tokens, List.append_assoc, List.cons_append] at h
      obtain ⟨rfl, hmore⟩ := Conjunction.eq_of_tokens_eq member member' (by simp) (by simp) h
      obtain ⟨rfl, rfl⟩ :=
        Disjunction.eq_of_tokens_eq rest rest' ha ha' ho ho' (List.cons.inj hmore).2
      exact ⟨rfl, rfl⟩
  | .last member, .or member' rest', _, _, ha, _, ho, _, h => by
      simp only [Disjunction.tokens, List.append_assoc] at h
      obtain ⟨-, rfl⟩ := Conjunction.eq_of_tokens_eq member member' ha (by simp) h
      exact absurd rfl ho
  | .or member rest, .last member', _, _, _, ha', _, ho', h => by
      simp only [Disjunction.tokens, List.append_assoc] at h
      obtain ⟨-, rfl⟩ := Conjunction.eq_of_tokens_eq member member' (by simp) ha' h
      exact absurd rfl ho'

end

/-- **The grammar is unambiguous.** -/
theorem Disjunction.tokens_injective {d d' : Disjunction} (h : d.tokens = d'.tokens) : d = d' := by
  have hend : ([] : List Token).head? ≠ some (.keyword .and) := by simp
  have hend' : ([] : List Token).head? ≠ some (.keyword .or) := by simp
  exact (Disjunction.eq_of_tokens_eq d d' hend hend hend' hend' (by rw [h])).1

end ConditionText

end BoundSql
