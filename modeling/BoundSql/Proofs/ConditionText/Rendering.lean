import BoundSql.Proofs.ConditionText.Acceptance
import BoundSql.Proofs.ConditionText.Scanning
import BoundSql.Proofs.Predicate.Content

/-!
# Literals and names of condition text

The values of an accepted text are its literals and its columns are its names, in the
order of the text.  Two words have a part in this: NULL is a literal except after IS, and
the name on the left of BETWEEN stands for two columns.
-/

namespace BoundSql

namespace ConditionText

/-- The literals in order; the word NULL of IS NULL and IS NOT NULL is none. -/
def literals : List Token → List Value
  | .keyword .is :: .keyword .null :: rest => literals rest
  | .keyword .is :: .keyword .not :: .keyword .null :: rest => literals rest
  | t :: rest => t.literal?.toList ++ literals rest
  | [] => []

/-- The names in order, the one on the left of BETWEEN and NOT BETWEEN twice. -/
def names : List Token → List String
  | .name n :: .keyword .between :: rest => n :: n :: names rest
  | .name n :: .keyword .not :: .keyword .between :: rest => n :: n :: names rest
  | .name n :: rest => n :: names rest
  | _ :: rest => names rest
  | [] => []

/-- What a group has in common with its members, a chain has too, even if it is a single
member. -/
theorem apply_collapse {α : Type} {f : Predicate → α} {g : List Predicate → α}
    {group : List Predicate → Predicate} (hone : ∀ p, f p = g [p]) (h : ∀ ps, f (group ps) = g ps)
    (ps : List Predicate) : f (collapse group ps) = g ps := by
  rcases ps with _ | ⟨p, _ | ⟨next, more⟩⟩
  · exact h []
  · exact hone p
  · exact h _

/-! ## Literals -/

/-- A token adds its value, if it stands for one. -/
theorem literals_cons {t : Token} (h : t ≠ .keyword .is) (rest : List Token) :
    literals (t :: rest) = t.literal?.toList ++ literals rest := by
  rw [literals]
  · rintro _ rfl
    exact absurd rfl h
  · rintro _ rfl
    exact absurd rfl h

/-- A literal adds its value. -/
theorem literals_literal (l : Literal) (rest : List Token) :
    literals (l.token :: rest) = l.value :: literals rest := by
  rw [literals_cons (Literal.token_ne_of_literal? rfl), l.literal?_token]
  rfl

/-- A term adds its value if it is a literal. -/
theorem literals_term (t : Term) (rest : List Token) :
    literals (t.token :: rest) = Chunk.values [.ofOperand t.operand] ++ literals rest := by
  cases t with
  | column name => exact literals_cons (by simp [Term.token]) rest
  | literal l => exact literals_literal l rest

/-- Negation adds no value. -/
theorem literals_notIf (negated : Bool) (rest : List Token) :
    literals (notIf negated ++ rest) = literals rest := by
  cases negated with
  | false => rfl
  | true => exact literals_cons (by simp) rest

/-- Further literals add their values in order. -/
theorem literals_otherTokens (others : List Literal) (rest : List Token) :
    literals (otherTokens others ++ .close :: rest) =
      others.map Literal.value ++ literals rest := by
  induction others with
  | nil => exact literals_cons (by simp) rest
  | cons l more ih =>
      show literals (.comma :: l.token :: (otherTokens more ++ .close :: rest)) = _
      rw [literals_cons (by simp), literals_literal, ih]
      rfl

/-- Negating changes no values. -/
theorem values_negateIf (negated : Bool) (p : Predicate) :
    (negateIf negated p).values = p.values := by
  cases negated <;> rfl

/-- A comparison has the values of its operands, the left one first. -/
theorem values_compare (left : Operand) (op : Comparison) (right : Operand) :
    (Predicate.compare left op right).values =
      Chunk.values [.ofOperand left] ++ Chunk.values [.ofOperand right] :=
  List.filterMap_append (l := [Chunk.ofOperand left])

/-- A test adds the values of its predicate. -/
theorem Test.literals_tokens (t : Test) (rest : List Token) :
    literals (t.tokens ++ rest) = t.predicate.values ++ literals rest := by
  cases t with
  | compare left op right =>
      show literals (left.token :: .comparison op :: right.token :: rest) = _
      rw [literals_term, literals_cons (by simp), literals_term, predicate, values_compare,
        List.append_assoc]
      rfl
  | like left negated pattern =>
      rw [tokens, List.cons_append, List.append_assoc, literals_term, literals_notIf,
        List.cons_append, literals_cons (by simp), List.singleton_append, literals_term, predicate,
        values_negateIf, values_compare, List.append_assoc]
      rfl
  | nullTest column negated =>
      cases negated with
      | false => exact literals_cons (by simp) (.keyword .is :: .keyword .null :: rest)
      | true =>
          exact literals_cons (by simp) (.keyword .is :: .keyword .not :: .keyword .null :: rest)
  | oneOf column negated first others =>
      rw [tokens, List.cons_append, List.append_assoc, literals_cons (by simp), literals_notIf,
        List.cons_append, literals_cons (by simp), List.cons_append, literals_cons (by simp),
        List.cons_append, literals_literal, List.append_assoc, List.singleton_append,
        literals_otherTokens]
      rfl
  | between column negated low high =>
      rw [tokens, List.cons_append, List.append_assoc, literals_cons (by simp), literals_notIf,
        List.cons_append, literals_cons (by simp), List.cons_append, literals_literal,
        List.cons_append, literals_cons (by simp), List.singleton_append, literals_literal,
        predicate, values_negateIf]
      rfl

/-- Collapsing a group changes no values. -/
theorem values_collapse {group : List Predicate → Predicate}
    (h : ∀ ps, (group ps).values = Predicate.valuesOf ps) (ps : List Predicate) :
    (collapse group ps).values = Predicate.valuesOf ps :=
  apply_collapse (fun p => (List.append_nil p.values).symm) h ps

mutual

/-- A member adds the values of its predicate. -/
theorem Unary.literals_tokens : ∀ (u : Unary) (rest : List Token),
    literals (u.tokens ++ rest) = u.predicate.values ++ literals rest
  | .not body, rest => by
      rw [Unary.tokens, List.cons_append, literals_cons (by simp), Unary.literals_tokens body rest]
      rfl
  | .group inner, rest => by
      rw [Unary.tokens, List.append_assoc, List.cons_append, literals_cons (by simp),
        Disjunction.literals_tokens inner, List.singleton_append, literals_cons (by simp),
        Unary.predicate, values_collapse fun _ => rfl]
      rfl
  | .test t, rest => t.literals_tokens rest

/-- A conjunction adds the values of its members. -/
theorem Conjunction.literals_tokens : ∀ (c : Conjunction) (rest : List Token),
    literals (c.tokens ++ rest) = Predicate.valuesOf c.members ++ literals rest
  | .last member, rest => by
      rw [Conjunction.tokens, Unary.literals_tokens member, Conjunction.members,
        Predicate.valuesOf, Predicate.valuesOf, List.append_nil]
  | .and member others, rest => by
      rw [Conjunction.tokens, List.append_assoc, Unary.literals_tokens member, List.cons_append,
        literals_cons (by simp), Conjunction.literals_tokens others, Conjunction.members,
        Predicate.valuesOf, List.append_assoc]
      rfl

/-- **The values of a derivation are the literals that it spells.** -/
theorem Disjunction.literals_tokens : ∀ (d : Disjunction) (rest : List Token),
    literals (d.tokens ++ rest) = Predicate.valuesOf d.members ++ literals rest
  | .last member, rest => by
      rw [Disjunction.tokens, Conjunction.literals_tokens member, Disjunction.members,
        Predicate.valuesOf, Predicate.valuesOf, List.append_nil, values_collapse fun _ => rfl]
  | .or member others, rest => by
      rw [Disjunction.tokens, List.append_assoc, Conjunction.literals_tokens member,
        List.cons_append, literals_cons (by simp), Disjunction.literals_tokens others,
        Disjunction.members, Predicate.valuesOf, values_collapse fun _ => rfl, List.append_assoc]
      rfl

end

/-! ## Names -/

/-- What comes next does not make a range of a name. -/
def EndsName (rest : List Token) : Prop :=
  (∀ more, rest ≠ .keyword .between :: more) ∧
    ∀ more, rest ≠ .keyword .not :: .keyword .between :: more

theorem endsName_nil : EndsName [] := ⟨by simp, by simp⟩

/-- Any other token than BETWEEN and NOT ends a name. -/
theorem endsName_cons {t : Token} (h : t ≠ .keyword .between) (h' : t ≠ .keyword .not)
    (rest : List Token) : EndsName (t :: rest) :=
  ⟨fun _ heq => h (List.cons.inj heq).1, fun _ heq => h' (List.cons.inj heq).1⟩

/-- Any other test than a range ends a name, negated or not. -/
theorem endsName_notIf (negated : Bool) {k : Keyword} (h : k ≠ .between) (h' : k ≠ .not)
    (rest : List Token) : EndsName (notIf negated ++ .keyword k :: rest) := by
  cases negated with
  | false => exact endsName_cons (by simpa using h) (by simpa using h') rest
  | true => exact ⟨by simp [notIf], by simp [notIf, h]⟩

/-- A token that is no name adds none. -/
theorem names_cons {t : Token} (h : ∀ n, t ≠ .name n) (rest : List Token) :
    names (t :: rest) = names rest := by
  cases t with
  | name n => exact absurd rfl (h n)
  | _ => rfl

/-- A name that no range follows adds itself once. -/
theorem names_name {n : String} {rest : List Token} (h : EndsName rest) :
    names (.name n :: rest) = n :: names rest := by
  rw [names]
  · exact h.1
  · exact h.2

/-- A literal adds no name. -/
theorem names_literal (l : Literal) (rest : List Token) : names (l.token :: rest) = names rest :=
  names_cons (fun _ => Literal.token_ne_name) rest

/-- A term that no range follows adds its name if it is a column. -/
theorem names_term (t : Term) {rest : List Token} (h : EndsName rest) :
    (names (t.token :: rest)).map Identifier.ofText =
      Chunk.columns [.ofOperand t.operand] ++ (names rest).map Identifier.ofText := by
  cases t with
  | column name =>
      rw [Term.token, names_name h]
      rfl
  | literal l =>
      rw [Term.token, names_literal]
      rfl

/-- Negation adds no name. -/
theorem names_notIf (negated : Bool) (rest : List Token) :
    names (notIf negated ++ rest) = names rest := by
  cases negated <;> rfl

/-- Further literals add no names. -/
theorem names_otherTokens (others : List Literal) (rest : List Token) :
    names (otherTokens others ++ .close :: rest) = names rest := by
  induction others with
  | nil => rfl
  | cons l more ih =>
      show names (.comma :: l.token :: (otherTokens more ++ .close :: rest)) = _
      rw [names_cons (by simp), names_literal, ih]

/-- Negating changes no columns. -/
theorem columns_negateIf (negated : Bool) (p : Predicate) :
    (negateIf negated p).columns = p.columns := by
  cases negated <;> rfl

/-- A comparison has the columns of its operands, the left one first. -/
theorem columns_compare (left : Operand) (op : Comparison) (right : Operand) :
    (Predicate.compare left op right).columns =
      Chunk.columns [.ofOperand left] ++ Chunk.columns [.ofOperand right] :=
  List.filterMap_append (l := [Chunk.ofOperand left])

/-- A test adds the columns of its predicate, that of a range twice. -/
theorem Test.names_tokens (t : Test) {rest : List Token} (h : EndsName rest) :
    (names (t.tokens ++ rest)).map Identifier.ofText =
      t.predicate.columns ++ (names rest).map Identifier.ofText := by
  cases t with
  | compare left op right =>
      show (names (left.token :: .comparison op :: right.token :: rest)).map _ = _
      rw [names_term left (endsName_cons (by simp) (by simp) _), names_cons (by simp),
        names_term right h, predicate, columns_compare, List.append_assoc]
  | like left negated pattern =>
      rw [tokens, List.cons_append, List.append_assoc, List.cons_append,
        names_term left (endsName_notIf negated (by simp) (by simp) _), names_notIf,
        names_cons (by simp), List.singleton_append, names_term pattern h, predicate,
        columns_negateIf, columns_compare, List.append_assoc]
  | nullTest column negated => cases negated <;> rfl
  | oneOf column negated first others =>
      rw [tokens, List.cons_append, List.append_assoc, List.cons_append,
        names_name (endsName_notIf negated (by simp) (by simp) _), names_notIf,
        names_cons (by simp), List.cons_append, names_cons (by simp), List.cons_append,
        names_literal, List.append_assoc, List.singleton_append, names_otherTokens]
      rfl
  | between column negated low high =>
      have hrange : names (low.token :: .keyword .and :: high.token :: rest) = names rest := by
        rw [names_literal, names_cons (by simp), names_literal]
      rw [predicate, columns_negateIf]
      cases negated with
      | false => exact congrArg (fun ns => (column :: column :: ns).map Identifier.ofText) hrange
      | true => exact congrArg (fun ns => (column :: column :: ns).map Identifier.ofText) hrange

/-- Collapsing a group changes no columns. -/
theorem columns_collapse {group : List Predicate → Predicate}
    (h : ∀ ps, (group ps).columns = Predicate.columnsOf ps) (ps : List Predicate) :
    (collapse group ps).columns = Predicate.columnsOf ps :=
  apply_collapse (fun p => (List.append_nil p.columns).symm) h ps

mutual

/-- A member adds the columns of its predicate. -/
theorem Unary.names_tokens : ∀ (u : Unary) {rest : List Token}, EndsName rest →
    (names (u.tokens ++ rest)).map Identifier.ofText =
      u.predicate.columns ++ (names rest).map Identifier.ofText
  | .not body, rest, h => by
      rw [Unary.tokens, List.cons_append, names_cons (by simp), Unary.names_tokens body h]
      rfl
  | .group inner, rest, _ => by
      rw [Unary.tokens, List.append_assoc, List.cons_append, names_cons (by simp),
        List.singleton_append,
        Disjunction.names_tokens inner (endsName_cons (by simp) (by simp) rest),
        names_cons (by simp), Unary.predicate, columns_collapse fun _ => rfl]
  | .test t, rest, h => t.names_tokens h

/-- A conjunction adds the columns of its members. -/
theorem Conjunction.names_tokens : ∀ (c : Conjunction) {rest : List Token}, EndsName rest →
    (names (c.tokens ++ rest)).map Identifier.ofText =
      Predicate.columnsOf c.members ++ (names rest).map Identifier.ofText
  | .last member, rest, h => by
      rw [Conjunction.tokens, Unary.names_tokens member h, Conjunction.members,
        Predicate.columnsOf, Predicate.columnsOf, List.append_nil]
  | .and member others, rest, h => by
      rw [Conjunction.tokens, List.append_assoc, List.cons_append,
        Unary.names_tokens member (endsName_cons (by simp) (by simp) _), names_cons (by simp),
        Conjunction.names_tokens others h, Conjunction.members, Predicate.columnsOf,
        List.append_assoc]

/-- **The columns of a derivation are the names that it spells.** -/
theorem Disjunction.names_tokens : ∀ (d : Disjunction) {rest : List Token}, EndsName rest →
    (names (d.tokens ++ rest)).map Identifier.ofText =
      Predicate.columnsOf d.members ++ (names rest).map Identifier.ofText
  | .last member, rest, h => by
      rw [Disjunction.tokens, Conjunction.names_tokens member h, Disjunction.members,
        Predicate.columnsOf, Predicate.columnsOf, List.append_nil, columns_collapse fun _ => rfl]
  | .or member others, rest, h => by
      rw [Disjunction.tokens, List.append_assoc, List.cons_append,
        Conjunction.names_tokens member (endsName_cons (by simp) (by simp) _), names_cons (by simp),
        Disjunction.names_tokens others h, Disjunction.members, Predicate.columnsOf,
        columns_collapse fun _ => rfl, List.append_assoc]

end

/-! ## Raw SQL -/

/-- A test has no raw SQL. -/
theorem Test.rawTexts_predicate (t : Test) : t.predicate.rawTexts = [] := by
  cases t with
  | compare left op right => rfl
  | like left negated pattern => cases negated <;> rfl
  | nullTest column negated => rfl
  | oneOf column negated first others => rfl
  | between column negated low high => cases negated <;> rfl

/-- Collapsing a group adds no raw SQL. -/
theorem rawTexts_collapse {group : List Predicate → Predicate}
    (h : ∀ ps, (group ps).rawTexts = Predicate.rawTextsOf ps) (ps : List Predicate) :
    (collapse group ps).rawTexts = Predicate.rawTextsOf ps :=
  apply_collapse (fun p => (List.append_nil p.rawTexts).symm) h ps

mutual

/-- A member has no raw SQL. -/
theorem Unary.rawTexts_predicate : ∀ u : Unary, u.predicate.rawTexts = []
  | .not body => Unary.rawTexts_predicate body
  | .group inner =>
      (rawTexts_collapse (fun _ => rfl) _).trans (Disjunction.rawTextsOf_members inner)
  | .test t => t.rawTexts_predicate

/-- The members of a conjunction have no raw SQL. -/
theorem Conjunction.rawTextsOf_members : ∀ c : Conjunction, Predicate.rawTextsOf c.members = []
  | .last member => by
      rw [Conjunction.members, Predicate.rawTextsOf, Unary.rawTexts_predicate member]
      rfl
  | .and member rest => by
      rw [Conjunction.members, Predicate.rawTextsOf, Unary.rawTexts_predicate member,
        Conjunction.rawTextsOf_members rest]
      rfl

/-- The members of a disjunction have no raw SQL. -/
theorem Disjunction.rawTextsOf_members : ∀ d : Disjunction, Predicate.rawTextsOf d.members = []
  | .last member => by
      rw [Disjunction.members, Predicate.rawTextsOf, rawTexts_collapse fun _ => rfl,
        Conjunction.rawTextsOf_members member]
      rfl
  | .or member rest => by
      rw [Disjunction.members, Predicate.rawTextsOf, rawTexts_collapse fun _ => rfl,
        Conjunction.rawTextsOf_members member, Disjunction.rawTextsOf_members rest]
      rfl

end

/-- No text becomes raw SQL. -/
theorem Disjunction.rawTexts_predicate (d : Disjunction) : d.predicate.rawTexts = [] :=
  (rawTexts_collapse (fun _ => rfl) _).trans (Disjunction.rawTextsOf_members d)

end ConditionText

open ConditionText

/-! ## Accepted text -/

namespace Predicate

variable {text : String} {p : Predicate}

/-- What is read from a text has no raw SQL. -/
theorem rawTexts_ofText (h : ofText text = .ok p) : p.rawTexts = [] := by
  obtain ⟨d, -, -, rfl⟩ := ofText_eq_ok.1 h
  exact d.rawTexts_predicate

/-- What is read from a text has the values of its literals in order. -/
theorem values_ofText (h : ofText text = .ok p) :
    p.values = literals (Lexed.scan text).tokens := by
  obtain ⟨d, hd, -, rfl⟩ := ofText_eq_ok.1 h
  have hliterals := d.literals_tokens []
  rw [List.append_nil, hd.spelled, literals, List.append_nil] at hliterals
  rw [Lexed.tokens, hliterals, Disjunction.predicate, values_collapse fun _ => rfl]

/-- What is read from a text has the columns that its names stand for, in order. -/
theorem columns_ofText (h : ofText text = .ok p) :
    p.columns = (names (Lexed.scan text).tokens).map Identifier.ofText := by
  obtain ⟨d, hd, -, rfl⟩ := ofText_eq_ok.1 h
  have hnames := d.names_tokens endsName_nil
  rw [List.append_nil, hd.spelled, names, List.map_nil, List.append_nil] at hnames
  rw [Lexed.tokens, hnames, Disjunction.predicate, columns_collapse fun _ => rfl]

/-- **Literals are data and names are identifiers.**  An accepted text can be cut into
lexemes, in one way.  Under every dialect its predicate binds the literals of the text in
order, and is written with words of SQL, the names of the text in order and a place for
each literal.  Where the quote character has no other use, a reader finds these names in
the SQL, each with the parts between its dots. -/
theorem ofText_keeps_data (h : ofText text = .ok p) :
    (∃ ls, Cut text.toList ls) ∧
      ∀ ls, Cut text.toList ls → ∀ tokens, tokens = ls.map Lexeme.token →
        (∀ d, (p.toSql d).params = literals tokens) ∧
          (∃ chunks : List Chunk,
            (∀ d, p.toSql d = Template.emit (chunks.map (Chunk.piece d.quote)) d.placeholder) ∧
            Chunk.values chunks = literals tokens ∧
            Chunk.columns chunks = (names tokens).map Identifier.ofText ∧
            ∀ s, .word s ∈ chunks → s ∈ Chunk.vocabulary) ∧
          ∀ d, d.Legible → Identifier.namesIn d.quote (p.toSql d).sql.toList =
            (names tokens).map fun name => Identifier.splitDots name.toList := by
  have hraw := rawTexts_ofText h
  have hfault := fault?_of_rawTexts p hraw
  have hvalues := values_ofText h
  have hcolumns := columns_ofText h
  constructor
  · obtain ⟨derivation, hderives, -, -⟩ := ofText_eq_ok.1 h
    exact ⟨_, cut_scanFrom hderives.cut⟩
  · intro ls hls tokens htokens
    obtain rfl : tokens = (Lexed.scan text).tokens := htokens.trans (tokens_of_cut hls)
    refine ⟨fun d => ?_, ⟨p.chunks, fun d => ?_, ?_, ?_, fun _ => mem_vocabulary_of_mem_chunks hraw⟩,
      fun d hd => ?_⟩
    · rw [params_toSql hfault, hvalues]
    · rw [toSql_of_rawTexts hraw, template_eq_map]
    · rw [values_chunks hfault, hvalues]
    · rw [columns_chunks, hcolumns]
    · have hparts : ∀ name : String, (Identifier.ofText name).parts.map String.toList =
          Identifier.splitDots name.toList := fun name => by
        simp [Identifier.ofText, Function.comp_def]
      rw [namesIn_toSql hraw hd, hcolumns, List.map_map]
      exact List.map_congr_left fun name _ => hparts name

/-- A text with a quote in a literal, a dotted name, a range and NULL in both roles. -/
theorem ofText_keeps_data_quoted : ∃ p,
    ofText "t.a = 'it''s' AND b BETWEEN 1 AND NULL OR c IS NULL" = .ok p ∧
      (∀ d, (p.toSql d).params = [.text "it's", .int 1, .null]) ∧
      Identifier.namesIn Dialect.postgres.quote (p.toSql Dialect.postgres).sql.toList =
        [[['t'], ['a']], [['b']], [['b']], [['c']]] := by
  obtain ⟨p, hp⟩ : ∃ p, ofText "t.a = 'it''s' AND b BETWEEN 1 AND NULL OR c IS NULL" = .ok p :=
    exists_of_isOk (by decide +kernel)
  have htokens : (Lexed.scan "t.a = 'it''s' AND b BETWEEN 1 AND NULL OR c IS NULL").tokens =
      [.name "t.a", .comparison .eq, .string "it's", .keyword .and, .name "b", .keyword .between,
        .int 1, .keyword .and, .keyword .null, .keyword .or, .name "c", .keyword .is,
        .keyword .null] := by
    decide +kernel
  obtain ⟨⟨ls, hls⟩, hdata⟩ := ofText_keeps_data hp
  obtain ⟨hparams, -, hread⟩ := hdata ls hls _ rfl
  rw [tokens_of_cut hls, htokens] at hparams hread
  exact ⟨_, hp, hparams, hread _ (Dialect.legible_presets _ (by simp))⟩

end Predicate

end BoundSql
