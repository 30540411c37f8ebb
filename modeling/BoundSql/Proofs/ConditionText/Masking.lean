import BoundSql.Proofs.ConditionText.Acceptance
import BoundSql.Proofs.Predicate.Masking

/-!
# Masked condition text

A token that is a literal is masked by the word NULL, which is a literal too.  Masking
the literals of a derivation masks its tokens and its predicate.  As the masked tokens
have only one derivation, two accepted texts that differ in their literals alone have
predicates that differ in their values alone.
-/

namespace BoundSql

namespace ConditionText

/-- The word NULL in the place of a truth value. -/
@[simp]
def Keyword.mask : Keyword → Keyword
  | .true => .null
  | .false => .null
  | k => k

/-- The word NULL in the place of a literal. -/
def Token.mask (t : Token) : Token := if t.literal?.isSome then .keyword .null else t

@[simp]
theorem Token.mask_name (text : String) : (Token.name text).mask = .name text := rfl

@[simp]
theorem Token.mask_comparison (op : Comparison) :
    (Token.comparison op).mask = .comparison op := rfl

@[simp]
theorem Token.mask_open : Token.open.mask = .open := rfl

@[simp]
theorem Token.mask_close : Token.close.mask = .close := rfl

@[simp]
theorem Token.mask_comma : Token.comma.mask = .comma := rfl

/-- A keyword is masked if it stands for a value. -/
@[simp]
theorem Token.mask_keyword (k : Keyword) : (Token.keyword k).mask = .keyword k.mask := by
  cases k <;> rfl

/-- All literals are masked alike. -/
@[simp]
theorem Literal.mask_token (l : Literal) : l.token.mask = Literal.null.token := by
  rw [Token.mask, literal?_token]
  rfl

def Term.mask : Term → Term
  | .column name => .column name
  | .literal _ => .literal .null

/-- A term is masked if it is a literal. -/
@[simp]
theorem Term.mask_token (t : Term) : t.token.mask = t.mask.token := by
  cases t with
  | column name => rfl
  | literal l => exact l.mask_token

/-- A term is masked as the operand that it stands for. -/
theorem Term.mask_operand (t : Term) : t.operand.mask = t.mask.operand := by
  cases t <;> rfl

/-- A test with its literals masked. -/
def Test.mask : Test → Test
  | .compare left op right => .compare left.mask op right.mask
  | .like left negated pattern => .like left.mask negated pattern.mask
  | .nullTest column negated => .nullTest column negated
  | .oneOf column negated _ others => .oneOf column negated .null (others.map fun _ => .null)
  | .between column negated _ _ => .between column negated .null .null

mutual

/-- A derivation with its literals masked. -/
def Unary.mask : Unary → Unary
  | .not body => .not body.mask
  | .group inner => .group inner.mask
  | .test t => .test t.mask

def Conjunction.mask : Conjunction → Conjunction
  | .last member => .last member.mask
  | .and member rest => .and member.mask rest.mask

def Disjunction.mask : Disjunction → Disjunction
  | .last member => .last member.mask
  | .or member rest => .or member.mask rest.mask

end

/-! ## Tokens -/

/-- Negation has no values. -/
@[simp]
theorem mask_notIf (negated : Bool) : (notIf negated).map Token.mask = notIf negated := by
  cases negated <;> rfl

/-- Further literals are masked one by one, with their commas kept. -/
theorem mask_otherTokens (others : List Literal) :
    (otherTokens others).map Token.mask = otherTokens (others.map fun _ => .null) := by
  induction others with
  | nil => rfl
  | cons l more ih =>
      rw [otherTokens] at ih ⊢
      rw [List.flatMap_cons, List.map_append, ih]
      simp [otherTokens]

/-- The tokens of a masked test are its tokens, masked. -/
theorem Test.mask_tokens (t : Test) : t.tokens.map Token.mask = t.mask.tokens := by
  cases t with
  | compare left op right => simp [tokens, mask]
  | like left negated pattern => simp [tokens, mask]
  | nullTest column negated => cases negated <;> rfl
  | oneOf column negated first others =>
      simp [tokens, mask, mask_otherTokens]
  | between column negated low high =>
      simp [tokens, mask]

mutual

/-- The tokens of a masked member are its tokens, masked. -/
theorem Unary.mask_tokens : ∀ u : Unary, u.tokens.map Token.mask = u.mask.tokens
  | .not body => by simp [Unary.tokens, Unary.mask, Unary.mask_tokens body]
  | .group inner => by simp [Unary.tokens, Unary.mask, Disjunction.mask_tokens inner]
  | .test t => t.mask_tokens

/-- The tokens of a masked conjunction are its tokens, masked. -/
theorem Conjunction.mask_tokens : ∀ c : Conjunction, c.tokens.map Token.mask = c.mask.tokens
  | .last member => Unary.mask_tokens member
  | .and member rest => by
      simp [Conjunction.tokens, Conjunction.mask, Unary.mask_tokens member,
        Conjunction.mask_tokens rest]

/-- **The tokens of a masked derivation are the masked tokens of the derivation.** -/
theorem Disjunction.mask_tokens : ∀ d : Disjunction, d.tokens.map Token.mask = d.mask.tokens
  | .last member => Conjunction.mask_tokens member
  | .or member rest => by
      simp [Disjunction.tokens, Disjunction.mask, Conjunction.mask_tokens member,
        Disjunction.mask_tokens rest]

end

/-! ## Predicates -/

/-- Whether a group is collapsed depends on the number of its members alone. -/
theorem mask_collapse {group : List Predicate → Predicate}
    (h : ∀ ps, (group ps).mask = group (ps.map Predicate.mask)) (ps : List Predicate) :
    (collapse group ps).mask = collapse group (ps.map Predicate.mask) := by
  rcases ps with _ | ⟨p, _ | ⟨next, more⟩⟩
  · exact h []
  · rfl
  · exact h _

/-- A conjunction is masked member by member. -/
theorem mask_and (ps : List Predicate) :
    (Predicate.and ps).mask = .and (ps.map Predicate.mask) := by
  rw [Predicate.mask, Predicate.maskAll_eq_map]

/-- A disjunction is masked member by member. -/
theorem mask_or (ps : List Predicate) : (Predicate.or ps).mask = .or (ps.map Predicate.mask) := by
  rw [Predicate.mask, Predicate.maskAll_eq_map]

/-- Negating and masking do not meet. -/
theorem mask_negateIf (negated : Bool) (p : Predicate) :
    (negateIf negated p).mask = negateIf negated p.mask := by
  cases negated <;> rfl

/-- The predicate of a masked test is its predicate, masked. -/
theorem Test.mask_predicate (t : Test) : t.predicate.mask = t.mask.predicate := by
  cases t with
  | compare left op right =>
      rw [predicate, Predicate.mask, left.mask_operand, right.mask_operand]
      rfl
  | like left negated pattern =>
      rw [predicate, mask_negateIf, Predicate.mask, left.mask_operand, pattern.mask_operand]
      rfl
  | nullTest column negated => rfl
  | oneOf column negated first others =>
      have hothers : (others.map Literal.value).map Value.mask =
          (others.map fun _ => Literal.null).map Literal.value := by
        rw [List.map_map, List.map_map]
        rfl
      exact congrArg (fun vs => Predicate.oneOf (Identifier.ofText column) (.null :: vs) negated)
        hothers
  | between column negated low high => exact mask_negateIf negated _

mutual

/-- The predicate of a masked member is its predicate, masked. -/
theorem Unary.mask_predicate : ∀ u : Unary, u.predicate.mask = u.mask.predicate
  | .not body => congrArg Predicate.not (Unary.mask_predicate body)
  | .group inner => by
      rw [Unary.predicate, mask_collapse mask_or, Disjunction.mask_members inner]
      rfl
  | .test t => t.mask_predicate

/-- The members of a masked conjunction are its members, masked. -/
theorem Conjunction.mask_members : ∀ c : Conjunction,
    c.members.map Predicate.mask = c.mask.members
  | .last member => congrArg ([·]) (Unary.mask_predicate member)
  | .and member rest => by
      rw [Conjunction.members, List.map_cons, Unary.mask_predicate member,
        Conjunction.mask_members rest]
      rfl

/-- The members of a masked disjunction are its members, masked. -/
theorem Disjunction.mask_members : ∀ d : Disjunction,
    d.members.map Predicate.mask = d.mask.members
  | .last member => by
      rw [Disjunction.members, List.map_cons, mask_collapse mask_and,
        Conjunction.mask_members member]
      rfl
  | .or member rest => by
      rw [Disjunction.members, List.map_cons, mask_collapse mask_and,
        Conjunction.mask_members member, Disjunction.mask_members rest]
      rfl

end

/-- **The predicate of a masked derivation is the masked predicate.** -/
theorem Disjunction.mask_predicate (d : Disjunction) : d.predicate.mask = d.mask.predicate := by
  rw [predicate, mask_collapse mask_or, mask_members]
  rfl

/-- The tokens of a text with its literals masked. -/
def maskedTokens (text : String) : List Token :=
  (Lexed.scan text).lexemes.map fun l => l.token.mask

end ConditionText

open ConditionText

/-- **Texts that differ in their literals alone have predicates that differ in their
values alone.** -/
theorem Predicate.mask_eq_of_maskedTokens_eq {text text' : String} {p p' : Predicate}
    (h : maskedTokens text = maskedTokens text') (hp : ofText text = .ok p)
    (hp' : ofText text' = .ok p') : p.mask = p'.mask := by
  obtain ⟨d, hd, -, rfl⟩ := ofText_eq_ok.1 hp
  obtain ⟨d', hd', -, rfl⟩ := ofText_eq_ok.1 hp'
  have htokens : ∀ {text : String} {d : Disjunction}, Derives text d →
      d.mask.tokens = maskedTokens text := by
    intro text d hd
    rw [← d.mask_tokens, hd.spelled, List.map_map]
    rfl
  have hmask : d.mask = d'.mask :=
    Disjunction.tokens_injective (by rw [htokens hd, htokens hd', h])
  rw [d.mask_predicate, d'.mask_predicate, hmask]

end BoundSql
