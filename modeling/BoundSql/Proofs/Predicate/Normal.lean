import BoundSql.Proofs.Predicate.Reading

/-!
# What the SQL of a predicate says

Parts of a tree without content are rendered as nothing, and a group of one member is
rendered as this member.  Apart from these the tree is in its SQL: what is read back is the
tree without them (`Predicate.read_toSql`), so no operator binds across a group or a
negation, and two trees with the same SQL are the same but for such parts.
-/

namespace BoundSql

open ConditionText (collapse)

namespace Predicate

mutual

/-- No raw fragment, and no membership in an empty list. -/
def structured : Predicate → Bool
  | .and members => allStructured members
  | .or members => allStructured members
  | .not body => body.structured
  | .compare .. => true
  | .nullTest .. => true
  | .oneOf _ values _ => !values.isEmpty
  | .raw .. => false

def allStructured : List Predicate → Bool
  | [] => true
  | p :: rest => p.structured && allStructured rest

end

/-- A group of some members: nothing without members, and an only member by itself. -/
def regroup (group : List Predicate → Predicate) : List Predicate → Option Predicate
  | [] => none
  | [only] => some only
  | several => some (group several)

mutual

/-- The tree without parts that have no content and groups of one member, unless nothing is
left of it. -/
def normal : Predicate → Option Predicate
  | .and members => regroup .and (normals members)
  | .or members => regroup .or (normals members)
  | .not body => body.normal.map .not
  | .compare left op right => some (.compare left op right)
  | .nullTest column negated => some (.nullTest column negated)
  | .oneOf column values negated => some (.oneOf column values negated)
  | .raw sql values => if Text.allBlank sql then none else some (.raw sql values)

def normals : List Predicate → List Predicate
  | [] => []
  | p :: rest => p.normal.toList ++ normals rest

end

mutual

/-- A structured predicate has no raw SQL. -/
theorem rawTexts_of_structured : ∀ p : Predicate, p.structured = true → p.rawTexts = []
  | .and members, h => rawTextsOf_of_structured members h
  | .or members, h => rawTextsOf_of_structured members h
  | .not body, h => rawTexts_of_structured body h
  | .compare .., _ => rfl
  | .nullTest .., _ => rfl
  | .oneOf .., _ => rfl
  | .raw .., h => absurd h Bool.false_ne_true

/-- Structured members have no raw SQL. -/
theorem rawTextsOf_of_structured : ∀ ps : List Predicate, allStructured ps = true →
    rawTextsOf ps = []
  | [], _ => rfl
  | p :: rest, h => by
      obtain ⟨hp, hrest⟩ := Bool.and_eq_true_iff.1 h
      rw [rawTextsOf, rawTexts_of_structured p hp, rawTextsOf_of_structured rest hrest,
        List.append_nil]

end

/-- Nothing is left of a group just when it has no members. -/
theorem regroup_isNone (group : List Predicate → Predicate) (ps : List Predicate) :
    (regroup group ps).isNone = ps.isEmpty := by
  rcases ps with _ | ⟨p, _ | ⟨next, more⟩⟩ <;> rfl

mutual

/-- Nothing is left of a tree just when it has no content. -/
theorem normal_isNone : ∀ p : Predicate, p.normal.isNone = p.isEmpty
  | .and members => (regroup_isNone _ _).trans (normals_isEmpty members)
  | .or members => (regroup_isNone _ _).trans (normals_isEmpty members)
  | .not body => (Option.isNone_map).trans (normal_isNone body)
  | .compare .. => rfl
  | .nullTest .. => rfl
  | .oneOf .. => rfl
  | .raw sql values => by
      rw [normal, isEmpty]
      cases Text.allBlank sql <;> rfl

/-- No normal form is left of members just when none has content. -/
theorem normals_isEmpty : ∀ ps : List Predicate, (normals ps).isEmpty = allEmpty ps
  | [] => rfl
  | p :: rest => by
      have hp := normal_isNone p
      have hrest := normals_isEmpty rest
      rw [normals, allEmpty, ← hp, ← hrest]
      cases p.normal <;> rfl

end

mutual

/-- A tree without content has no pieces. -/
theorem chunks_eq_nil : ∀ p : Predicate, p.structured = true → p.isEmpty = true → p.chunks = []
  | .and members, _, hempty => by rw [chunks_and, chunksOf_eq_nil members hempty]; rfl
  | .or members, _, hempty => by rw [chunks_or, chunksOf_eq_nil members hempty]; rfl
  | .not body, h, hempty => by rw [chunks_not, chunks_eq_nil body h hempty]; rfl
  | .compare .., _, hempty => absurd hempty Bool.false_ne_true
  | .nullTest .., _, hempty => absurd hempty Bool.false_ne_true
  | .oneOf .., _, hempty => absurd hempty Bool.false_ne_true
  | .raw .., h, _ => absurd h Bool.false_ne_true

/-- Members without content have no sequences. -/
theorem chunksOf_eq_nil : ∀ ps : List Predicate, allEmpty ps = true → chunksOf ps = []
  | [], _ => rfl
  | p :: rest, hempty => by
      obtain ⟨hp, hrest⟩ := Bool.and_eq_true_iff.1 hempty
      rw [chunksOf, if_pos hp, chunksOf_eq_nil rest hrest]

end

/-- A group is read as its members, where these are read as factors. -/
theorem reads_group {separator : String} {group : List Predicate → Predicate}
    {members : List (List Chunk)} {qs : List Predicate} {q : Predicate}
    (hinside : List.Forall₂ Reads members qs → members ≠ [] →
      ReadsInside (Chunk.join separator members) (collapse group qs))
    (h : List.Forall₂ Reads members qs) (hq : regroup group qs = some q) :
    Reads (Chunk.group separator members) q := by
  rcases h with _ | ⟨hfirst, _ | ⟨hnext, hmore⟩⟩
  · exact absurd hq.symm (Option.some_ne_none q)
  · rw [← Option.some.inj hq]
    exact hfirst
  · rw [← Option.some.inj hq]
    exact (hinside (.cons hfirst (.cons hnext hmore)) (List.cons_ne_nil _ _)).parens

mutual

/-- **A predicate with content is a factor,** however the pieces around it bind. -/
theorem reads_chunks : ∀ (p q : Predicate), p.structured = true → p.normal = some q →
    Reads p.chunks q
  | .and members, _, h, hq => by
      rw [chunks_and]
      exact reads_group readsInside_and (reads_chunksOf members h) hq
  | .or members, _, h, hq => by
      rw [chunks_or]
      exact reads_group readsInside_or (reads_chunksOf members h) hq
  | .not body, q, h, hq => by
      obtain ⟨inner, hinner, rfl⟩ := Option.map_eq_some_iff.1 hq
      have hbody : body.isEmpty = false := by
        rw [← normal_isNone, hinner]
        rfl
      rw [chunks_not, Chunk.negation, isBlank_chunks body hbody]
      exact (reads_chunks body inner h hinner).inside.negation
  | .compare left op right, q, _, hq => by
      rw [← Option.some.inj hq]
      exact reads_compare left op right
  | .nullTest column negated, q, _, hq => by
      rw [← Option.some.inj hq]
      exact reads_nullTest column negated
  | .oneOf column values negated, q, h, hq => by
      have hne : values ≠ [] := by
        rintro rfl
        exact absurd h Bool.false_ne_true
      rw [← Option.some.inj hq]
      exact reads_oneOf column hne negated
  | .raw .., _, h, _ => absurd h Bool.false_ne_true

/-- The sequences of structured members are read as their normal forms, one by one. -/
theorem reads_chunksOf : ∀ ps : List Predicate, allStructured ps = true →
    List.Forall₂ Reads (chunksOf ps) (normals ps)
  | [], _ => .nil
  | p :: rest, h => by
      obtain ⟨hp, hrest⟩ := Bool.and_eq_true_iff.1 h
      have hempty := normal_isNone p
      rw [chunksOf, normals]
      cases hq : p.normal with
      | none =>
          rw [hq] at hempty
          rw [if_pos (show p.isEmpty = true from hempty.symm)]
          exact reads_chunksOf rest hrest
      | some q =>
          rw [hq] at hempty
          rw [if_neg (show ¬p.isEmpty = true by rw [← hempty]; exact Bool.false_ne_true)]
          exact .cons (reads_chunks p q hp hq) (reads_chunksOf rest hrest)

end

/-- The text of a predicate is scanned as the tokens of its pieces. -/
theorem scan_toSql {d : Dialect} (hd : d.Standard) {p : Predicate} (h : p.structured = true) :
    SqlToken.scan d (p.toSql d).params 0 (p.toSql d).sql.toList =
      some (p.chunks.flatMap Chunk.tokens) := by
  have hraw := rawTexts_of_structured p h
  have hfault := fault?_of_rawTexts p hraw
  have hparams : (p.toSql d).params = Chunk.values p.chunks := by
    rw [params_toSql hfault, values_chunks hfault]
  have htext : (p.toSql d).sql.toList = Chunk.text d 0 p.chunks := by
    rw [toSql_of_rawTexts hraw, Template.emit, template_eq_map]
    rfl
  have hscan := scans_chunks hd p hraw (p.toSql d).params 0 [] Chunk.stops_nil
    (by rw [hparams]; exact List.prefix_refl _)
  rw [List.append_nil, SqlToken.scan_nil, Option.map_some, List.append_nil] at hscan
  rw [htext, hscan]

/-- What is read from the SQL of a predicate is what is left of it. -/
theorem read_eq_normal {d : Dialect} (hd : d.Standard) {p : Predicate} (h : p.structured = true) :
    read d (p.toSql d) = some p.normal := by
  rw [read, scan_toSql hd h, Option.bind_some]
  cases hq : p.normal with
  | none =>
      have hempty : p.isEmpty = true := by
        rw [← normal_isNone, hq]
        rfl
      rw [chunks_eq_nil p h hempty]
      rfl
  | some q =>
      have hreads := reads_chunks p q h hq
      have hdisjunction : readDisjunction _ _ (p.chunks.flatMap Chunk.tokens ++ []) = some (q, []) :=
        hreads.readDisjunction_eq (Nat.le_refl _) rfl rfl
      have hne : ¬(p.chunks.flatMap Chunk.tokens).isEmpty = true :=
        fun hempty => absurd hreads.length_pos (by simp [List.isEmpty_iff.1 hempty])
      rw [List.append_nil] at hdisjunction
      rw [if_neg hne, hdisjunction]

/-- **What is read from the SQL of a predicate is the predicate,** apart from parts without
content and groups of one member; so trees with the same SQL are the same apart from these. -/
theorem read_toSql {d : Dialect} (hd : d.Standard) {p : Predicate} (h : p.structured = true) :
    read d (p.toSql d) = some p.normal ∧
      ∀ q : Predicate, q.structured = true → q.toSql d = p.toSql d → q.normal = p.normal := by
  refine ⟨read_eq_normal hd h, fun q hq heq => ?_⟩
  have hsame := read_eq_normal hd hq
  rw [heq, read_eq_normal hd h] at hsame
  exact (Option.some.inj hsame).symm

/-- A quote and an OR in a name, groups of no and of one member, and a group in a negation. -/
theorem read_toSql_nested : Dialect.postgres.Standard ∧
    structured (.and [.or [], .or [.nullTest (.ofText "a\" OR \"b") false],
      .not (.or [columnIs (.ofText "x") .eq (.int 1), .oneOf (.ofText "y") [.null] true])]) = true ∧
    (toSql (.and [.or [], .or [.nullTest (.ofText "a\" OR \"b") false],
      .not (.or [columnIs (.ofText "x") .eq (.int 1), .oneOf (.ofText "y") [.null] true])])
        .postgres).sql =
      "(\"a\"\" OR \"\"b\" IS NULL AND NOT ((\"x\" = $1 OR \"y\" NOT IN ($2))))" ∧
    read .postgres (toSql (.and [.or [], .or [.nullTest (.ofText "a\" OR \"b") false],
      .not (.or [columnIs (.ofText "x") .eq (.int 1), .oneOf (.ofText "y") [.null] true])])
        .postgres) =
      some (some (.and [.nullTest (.ofText "a\" OR \"b") false,
        .not (.or [columnIs (.ofText "x") .eq (.int 1), .oneOf (.ofText "y") [.null] true])])) := by
  have hstandard : Dialect.postgres.Standard := ⟨.inr rfl, .inr (.inl rfl)⟩
  exact ⟨hstandard, rfl, by decide, (read_toSql hstandard rfl).1⟩

end Predicate

end BoundSql
