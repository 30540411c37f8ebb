import BoundSql.Proofs.Clause.Resolution
import BoundSql.Proofs.Statement.Builder

/-!
# Markers and parameters of a statement

Raw fragments enter a statement only after a count of their markers, so a statement
reached by any calls has a value for every marker of its fragments (`MarkersFit`,
preserved by every accepted call).  If the fragments also leave the quoted sections
that they enter, the whole template is plain, from the projection to OFFSET and from
the columns to ON DUPLICATE KEY UPDATE.  Then the text built with `?` has exactly
one marker for each parameter, and the text built in any other style is the one
with the `k`-th marker replaced by the `k`-th placeholder
(`Builder.build_eq_filled`).  A custom style may write a placeholder as nothing; then a
clause made of it is left out (`Builder.empty_placeholder_drops_clause`).
-/

namespace BoundSql

namespace Select

/-- The raw fragments of a statement. -/
def rawTexts (q : Select) : List String :=
  (match q.projection with
    | .raw sql => [sql]
    | _ => []) ++
    Predicate.rawTextsOf q.restrictions ++ (q.groupBy?.map ColumnClause.rawTexts).getD [] ++
    Predicate.rawTextsOf q.groupRestrictions ++ (q.orderBy?.map ColumnClause.rawTexts).getD []

/-- Every raw fragment of a statement has as many values as markers. -/
structure MarkersFit (q : Select) : Prop where
  projection : ∀ sql, q.projection = .raw sql → Marker.count sql = 0
  restrictions : ∀ p ∈ q.restrictions, p.fault? = none
  groupBy : ∀ c ∈ q.groupBy?, c.MarkersFit
  groupRestrictions : ∀ p ∈ q.groupRestrictions, p.fault? = none
  orderBy : ∀ c ∈ q.orderBy?, c.MarkersFit

/-- A SELECT without clauses has no marker that could lack a value. -/
theorem markersFit_ofTable (table : Identifier) : (ofTable table).MarkersFit := by
  constructor <;> simp [ofTable]

/-- Conditions added to checked ones. -/
theorem fault?_of_mem_append {ps : List Predicate} (hps : ∀ p ∈ ps, p.fault? = none)
    {clause : String} {c : Condition} {p? : Option Predicate}
    (h : c.resolve clause = .ok p?) : ∀ p ∈ ps ++ p?.toList, p.fault? = none := by
  intro p hp
  rcases List.mem_append.1 hp with hp | hp
  · exact hps p hp
  · obtain rfl : p? = some p := by simpa using hp
    exact Condition.fault?_of_resolve h

/-- A clause that is kept was checked. -/
theorem markersFit_of_mem_kept {clause : String} {c kept : ColumnClause}
    (h : c.validate clause = .ok ()) (hkept : kept ∈ if c.isEmpty then none else some c) :
    kept.MarkersFit := by
  split at hkept
  · simp at hkept
  · obtain rfl : c = kept := by simpa using hkept
    exact ColumnClause.markersFit_of_validate h

/-- **Every accepted call keeps markers and values in number.** -/
theorem markersFit_apply (q : Select) (c : Call) (r : Select) (hq : q.MarkersFit)
    (h : q.apply c = .ok r) : r.MarkersFit := by
  cases c with
  | settings s | dialect d | tag t | distinct =>
      obtain rfl := Except.ok.inj h
      exact ⟨hq.projection, hq.restrictions, hq.groupBy, hq.groupRestrictions, hq.orderBy⟩
  | «alias» name =>
      obtain ⟨-, rfl⟩ := apply_alias_eq_ok.1 h
      exact ⟨hq.projection, hq.restrictions, hq.groupBy, hq.groupRestrictions, hq.orderBy⟩
  | columns names =>
      obtain ⟨-, rfl⟩ := apply_columns_eq_ok.1 h
      refine ⟨fun sql hsql => ?_, hq.restrictions, hq.groupBy, hq.groupRestrictions, hq.orderBy⟩
      simp only at hsql
      split at hsql <;> simp at hsql
  | columnsRaw sql =>
      obtain ⟨hcount, rfl⟩ := apply_columnsRaw_eq_ok.1 h
      refine ⟨fun raw hraw => ?_, hq.restrictions, hq.groupBy, hq.groupRestrictions, hq.orderBy⟩
      simp only at hraw
      split at hraw
      · simp at hraw
      · obtain rfl := Projection.raw.inj hraw
        exact hcount
  | restrict c =>
      obtain ⟨p?, hp, h⟩ := bind_eq_ok.1 h
      obtain rfl := pure_eq_ok.1 h
      exact ⟨hq.projection, fault?_of_mem_append hq.restrictions hp, hq.groupBy,
        hq.groupRestrictions, hq.orderBy⟩
  | restrictGroups c =>
      obtain ⟨p?, hp, h⟩ := bind_eq_ok.1 h
      obtain rfl := pure_eq_ok.1 h
      exact ⟨hq.projection, hq.restrictions, hq.groupBy,
        fault?_of_mem_append hq.groupRestrictions hp, hq.orderBy⟩
  | groupBy clause =>
      obtain ⟨hvalid, rfl⟩ := apply_groupBy_eq_ok.1 h
      exact ⟨hq.projection, hq.restrictions, fun c hc => markersFit_of_mem_kept hvalid hc,
        hq.groupRestrictions, hq.orderBy⟩
  | orderBy clause =>
      obtain ⟨hvalid, rfl⟩ := apply_orderBy_eq_ok.1 h
      exact ⟨hq.projection, hq.restrictions, hq.groupBy, hq.groupRestrictions,
        fun c hc => markersFit_of_mem_kept hvalid hc⟩
  | limit n =>
      obtain ⟨-, rfl⟩ := apply_limit_eq_ok.1 h
      exact ⟨hq.projection, hq.restrictions, hq.groupBy, hq.groupRestrictions, hq.orderBy⟩
  | offset n =>
      obtain ⟨-, rfl⟩ := apply_offset_eq_ok.1 h
      exact ⟨hq.projection, hq.restrictions, hq.groupBy, hq.groupRestrictions, hq.orderBy⟩
  | paginate page perPage =>
      obtain ⟨-, -, rfl⟩ := apply_paginate_eq_ok.1 h
      exact ⟨hq.projection, hq.restrictions, hq.groupBy, hq.groupRestrictions, hq.orderBy⟩

/-! ## Words -/

/-- The commas of a list of identifiers are passed over. -/
theorem passes_list {names : List Identifier} {s : String} (hs : .word s ∈ Chunk.list names) :
    Marker.passes none s.toList = true := by
  rcases Chunk.mem_join hs with rfl | ⟨cs, hcs, hmem⟩
  · rfl
  · obtain ⟨name, -, rfl⟩ := List.mem_map.1 hcs
    exact absurd hmem (by simp)

/-- The words of a projection without markers are passed over. -/
theorem passes_projection {projection : Projection}
    (hcount : ∀ sql, projection = .raw sql → Marker.count sql = 0)
    (hclosed : ∀ sql, projection = .raw sql → Quoting.Closed sql) {s : String}
    (hs : .word s ∈ projection.chunks) : Marker.passes none s.toList = true := by
  cases projection with
  | all =>
      obtain rfl := Chunk.word.inj (List.mem_singleton.1 hs)
      rfl
  | columns names => exact passes_list hs
  | raw sql =>
      obtain rfl := Chunk.word.inj (List.mem_singleton.1 hs)
      exact Marker.passes_of_count (hcount s rfl) (hclosed s rfl)

/-- The words in front of the clauses are passed over, if those of the projection are. -/
theorem passes_opening {q : Select} {projection : Projection}
    (hprojection : ∀ s, .word s ∈ projection.chunks → Marker.passes none s.toList = true)
    {s : String} (hs : .word s ∈ q.openingChunks projection) :
    Marker.passes none s.toList = true := by
  simp only [openingChunks, List.mem_append, List.mem_cons, List.not_mem_nil, or_false] at hs
  rcases hs with (((hs | hs) | hs) | hs | hs) | hs
  · rw [Chunk.word.inj hs]
    rfl
  · split at hs
    · rw [Chunk.word.inj (List.mem_singleton.1 hs)]
      rfl
    · exact absurd hs List.not_mem_nil
  · exact hprojection s hs
  · rw [Chunk.word.inj hs]
    rfl
  · exact absurd hs (by simp)
  · cases halias : q.alias? with
    | none =>
        rw [halias] at hs
        exact absurd hs List.not_mem_nil
    | some name =>
        rw [halias, aliasChunks, List.mem_cons] at hs
        rcases hs with hs | hs
        · rw [Chunk.word.inj hs]
          rfl
        · exact absurd hs (by simp)

/-- The words of a clause are passed over, if its keyword and those of its body are. -/
theorem passes_clause {keyword : String} {body : Layout}
    (hkeyword : Marker.passes none keyword.toList = true)
    (hbody : ∀ s ∈ body.words, Marker.passes none s.toList = true) :
    ∀ s ∈ (clauseLayout keyword body).words, Marker.passes none s.toList = true := by
  rw [clauseLayout, Layout.words, Option.toList_none, List.append_nil]
  exact List.forall_mem_cons.2 ⟨hkeyword, hbody⟩

/-- The words of a column clause leave no quote open if its raw SQL does not. -/
theorem passes_columnClause {keyword : String}
    (hkeyword : Marker.passes none keyword.toList = true) {c? : Option ColumnClause}
    (hf : ∀ c ∈ c?, c.MarkersFit)
    (hc : ∀ s ∈ (c?.map ColumnClause.rawTexts).getD [], Quoting.Closed s) :
    ∀ s ∈ (columnLayout keyword c?).words, Marker.passes none s.toList = true := by
  cases c? with
  | none => exact fun s hs => absurd hs List.not_mem_nil
  | some c => exact passes_clause hkeyword (c.passes_words (hf c rfl) hc)

/-- The keyword of a count leaves no quote open. -/
theorem passes_count {keyword : String} (hkeyword : Marker.passes none keyword.toList = true)
    {n? : Option Int64} {s : String} (hs : .word s ∈ countChunks keyword n?) :
    Marker.passes none s.toList = true := by
  cases n? with
  | none => exact absurd hs List.not_mem_nil
  | some n =>
      rcases List.mem_cons.1 hs with hs | hs
      · rw [Chunk.word.inj hs]
        exact hkeyword
      · exact absurd hs (by simp)

/-- **The words of a SELECT are passed over** if its raw fragments leave their quoted
sections. -/
theorem passes_words {q : Select} (hq : q.MarkersFit) (hc : ∀ s ∈ q.rawTexts, Quoting.Closed s) :
    ∀ s ∈ (q.layout q.projection).words, Marker.passes none s.toList = true := by
  simp only [rawTexts, List.mem_append] at hc
  have hprojection : ∀ s, .word s ∈ q.projection.chunks → Marker.passes none s.toList = true :=
    fun s => passes_projection hq.projection fun sql hsql =>
      hc sql (.inl (.inl (.inl (.inl (by rw [hsql]; exact List.mem_singleton_self sql)))))
  have hwhere := Predicate.passes_conjunction hq.restrictions fun s hs =>
    hc s (.inl (.inl (.inl (.inr hs))))
  have hhaving := Predicate.passes_conjunction hq.groupRestrictions fun s hs =>
    hc s (.inl (.inr hs))
  simp only [layout, Layout.words, List.forall_mem_append]
  refine ⟨fun s hs => passes_opening hprojection (Layout.mem_words_chunks.1 hs),
    passes_clause rfl hwhere,
    passes_columnClause rfl hq.groupBy fun s hs => hc s (.inl (.inl (.inr hs))),
    passes_clause rfl hhaving,
    passes_columnClause rfl hq.orderBy fun s hs => hc s (.inr hs), fun s hs => ?_⟩
  rcases List.mem_append.1 (Layout.mem_words_chunks.1 hs) with hs | hs
  · exact passes_count rfl hs
  · exact passes_count rfl hs

/-- **A SELECT is plain** if its raw fragments leave their quoted sections. -/
theorem plain_template {q : Select} (hquote : Quoting.opens q.settings.dialect.quote = true)
    (hq : q.MarkersFit) (hc : ∀ s ∈ q.rawTexts, Quoting.Closed s) :
    (q.template q.projection).Plain :=
  Chunk.plain_map_piece hquote fun s hs => passes_words hq hc s (Layout.mem_words _ 0 hs)

end Select

namespace Insert

/-- The raw expressions of ON DUPLICATE KEY UPDATE. -/
def rawTexts (q : Insert) : List String :=
  q.assignments.filterMap fun a =>
    match a.assigned with
    | .raw sql => some sql
    | .value _ => none

/-- No raw expression has a marker. -/
def MarkersFit (q : Insert) : Prop :=
  ∀ a ∈ q.assignments, ∀ sql, a.assigned = .raw sql → Marker.count sql = 0

/-- Raw SQL that is assigned has no marker, since no value comes with it. -/
theorem count_of_validateAssignment {a : Assignment} (h : validateAssignment a = .ok ())
    {sql : String} (hsql : a.assigned = .raw sql) : Marker.count sql = 0 := by
  obtain ⟨_, -, h⟩ := bind_eq_ok.1 h
  rw [hsql] at h
  simp only at h
  split at h
  · exact absurd h (by simp [throw, throwThe, MonadExceptOf.throw])
  · split at h
    · exact absurd h (by simp [throw, throwThe, MonadExceptOf.throw])
    · rename_i hcount
      exact Decidable.not_not.1 hcount

/-- **Every accepted call keeps raw expressions without markers.** -/
theorem markersFit_apply (q : Insert) (c : Call) (r : Insert) (hq : q.MarkersFit)
    (h : q.apply c = .ok r) : r.MarkersFit := by
  cases c with
  | settings s | dialect d | tag t =>
      obtain rfl := Except.ok.inj h
      exact hq
  | rows rows | maps maps | records records =>
      obtain ⟨_, -, h⟩ := bind_eq_ok.1 h
      obtain rfl := pure_eq_ok.1 h
      exact hq
  | columns names =>
      obtain ⟨-, rfl⟩ := apply_columns_eq_ok.1 h
      exact hq
  | ignore =>
      obtain ⟨-, rfl⟩ := apply_ignore_eq_ok.1 h
      exact hq
  | priority p =>
      obtain ⟨-, rfl⟩ := apply_priority_eq_ok.1 h
      exact hq
  | replace =>
      obtain ⟨-, -, -, rfl⟩ := apply_replace_eq_ok.1 h
      exact hq
  | update column assigned =>
      obtain ⟨-, hvalid, rfl⟩ := apply_update_eq_ok.1 h
      intro a ha sql hsql
      rcases List.mem_append.1 ha with ha | ha
      · exact hq a ha sql hsql
      · obtain rfl := List.mem_singleton.1 ha
        exact count_of_validateAssignment hvalid hsql

/-- A list of columns has no marker outside the quotes. -/
theorem plain_columnList {quote : Char} (hquote : Quoting.opens quote = true)
    (names : List Identifier) : (columnList quote names).Plain := by
  refine Template.plain_join rfl fun t ht => ?_
  obtain ⟨name, -, rfl⟩ := List.mem_map.1 ht
  exact (Identifier.plain_toSql hquote name).2 Template.plain_nil

/-- What stands in front of the rows has no marker outside the quotes. -/
theorem plain_head {q : Insert} (hquote : Quoting.opens q.settings.dialect.quote = true)
    (columns : List Identifier) : (q.head columns).Plain := by
  have hmode : Marker.passes none q.mode.toSql.toList = true := by cases q.mode <;> rfl
  have hignore : (if q.ignore then [.text " IGNORE"] else [] : Template).Plain := by
    cases q.ignore
    · exact Template.plain_nil
    · exact Template.plain_text.2 ⟨rfl, Template.plain_nil⟩
  simp only [head, List.cons_append, Template.plain_text, Template.plain_append]
  refine ⟨hmode, ⟨⟨⟨?_, hignore⟩, rfl, Identifier.passes_toSql hquote q.table, rfl,
    Template.plain_nil⟩, plain_columnList hquote columns⟩, rfl, Template.plain_nil⟩
  cases q.priority? with
  | none => exact Template.plain_nil
  | some p => cases p <;> exact Template.plain_text.2 ⟨rfl, Template.plain_nil⟩

/-- A row has no marker but its placeholders. -/
theorem plain_rowTemplate (row : List Value) : (rowTemplate row).Plain := by
  rw [rowTemplate, List.cons_append, Template.plain_text, Template.plain_append]
  refine ⟨rfl, Template.plain_join rfl fun t ht => ?_,
    Template.plain_text.2 ⟨rfl, Template.plain_nil⟩⟩
  obtain ⟨v, -, rfl⟩ := List.mem_map.1 ht
  exact Template.plain_bind.2 Template.plain_nil

/-- An assignment has no marker but the placeholder of its value. -/
theorem plain_assignmentTemplate {quote : Char} (hquote : Quoting.opens quote = true)
    {a : Assignment} (hcount : ∀ sql, a.assigned = .raw sql → Marker.count sql = 0)
    (hclosed : ∀ sql, a.assigned = .raw sql → Quoting.Closed sql) :
    (assignmentTemplate quote a).Plain := by
  refine (Identifier.plain_toSql hquote a.column).2 (Template.plain_text.2 ⟨rfl, ?_⟩)
  cases hassigned : a.assigned with
  | value v => exact Template.plain_bind.2 Template.plain_nil
  | raw sql =>
      exact Template.plain_text.2 ⟨Marker.passes_of_count (hcount sql hassigned)
        (hclosed sql hassigned), Template.plain_nil⟩

/-- Assignments have no marker but the placeholders of their values. -/
theorem plain_updateTemplate {q : Insert} (hquote : Quoting.opens q.settings.dialect.quote = true)
    (hq : q.MarkersFit) (hc : ∀ s ∈ q.rawTexts, Quoting.Closed s) : q.updateTemplate.Plain := by
  rw [updateTemplate]
  split
  · exact Template.plain_nil
  · refine Template.plain_text.2 ⟨rfl, Template.plain_join rfl fun t ht => ?_⟩
    obtain ⟨a, ha, rfl⟩ := List.mem_map.1 ht
    exact plain_assignmentTemplate hquote (hq a ha) fun sql hsql =>
      hc sql (List.mem_filterMap.2 ⟨a, ha, by rw [hsql]⟩)

/-- **An INSERT is plain** if its raw expressions leave their quoted sections. -/
theorem plain_template {q : Insert} (hquote : Quoting.opens q.settings.dialect.quote = true)
    (hq : q.MarkersFit) (hc : ∀ s ∈ q.rawTexts, Quoting.Closed s) (columns : List Identifier)
    (rows : List (List Value)) : (q.template columns rows).Plain := by
  rw [template, Template.plain_append, Template.plain_append]
  refine ⟨⟨plain_head hquote columns, Template.plain_join rfl fun t ht => ?_⟩,
    plain_updateTemplate hquote hq hc⟩
  obtain ⟨row, -, rfl⟩ := List.mem_map.1 ht
  exact plain_rowTemplate row

end Insert

namespace Builder

/-- The raw fragments of the statement. -/
def rawTexts : Builder → List String
  | .select table calls => (SelectDraft.ofCalls table calls).state.rawTexts
  | .insert mode table calls => (InsertDraft.ofCalls mode table calls).state.rawTexts

/-- A SELECT is written in full in a style without empty placeholders, an INSERT in every
style. -/
def InFull (b : Builder) (p : Placeholder) : Prop :=
  match b with
  | .select .. => p.NeverEmpty
  | .insert .. => True

/-- Where every placeholder has a text, no part of a statement is left out for want of one. -/
theorem inFull_of_neverEmpty (b : Builder) {p : Placeholder} (hp : p.NeverEmpty) : b.InFull p := by
  cases b with
  | select => exact hp
  | insert => trivial

/-- The style of placeholders comes in only when the template is emitted, unless a
placeholder is empty.  The parameters are the same in every style. -/
theorem exists_plain_template {b : Builder}
    (hquote : Quoting.opens b.settings.dialect.quote = true)
    (hraw : ∀ s ∈ b.rawTexts, Quoting.Closed s) {st : Statement} (hb : b.build = .ok st) :
    ∃ t : Template, t.Plain ∧ ∀ p, ∃ built, (b.withPlaceholder p).build = .ok built ∧
      built.params = t.params ∧ (b.InFull p → built = t.emit p) := by
  cases b with
  | select table calls =>
      obtain ⟨q, hq, -⟩ := bind_eq_ok.1 hb
      obtain ⟨herror, rfl⟩ := Draft.get_eq_ok.1 hq
      have hfit := SelectDraft.ofCalls_preserves Select.markersFit_ofTable
        Select.markersFit_apply table calls
      let q := (SelectDraft.ofCalls table calls).state
      refine ⟨_, Select.plain_template hquote hfit hraw, fun p => ?_⟩
      let d : Dialect := { q.settings.dialect with placeholder := p }
      refine ⟨(q.layout q.projection).write d, ?_, ?_, ?_⟩
      · rw [withPlaceholder, withDialect, build, SelectDraft.ofCalls_dialect herror]
        rfl
      · exact (Layout.params_write _ _).trans (Layout.params_template _ _).symm
      · intro hp
        have hd : d.placeholder.NeverEmpty := hp
        exact Layout.write_of_neverEmpty hd _
  | insert mode table calls =>
      obtain ⟨q, hq, hst⟩ := bind_eq_ok.1 hb
      obtain ⟨herror, rfl⟩ := Draft.get_eq_ok.1 hq
      obtain ⟨⟨columns, rows⟩, hresolve, -⟩ := bind_eq_ok.1 hst
      have hfit : (InsertDraft.ofCalls mode table calls).state.MarkersFit :=
        InsertDraft.ofCalls_preserves (fun _ _ _ ha => absurd ha List.not_mem_nil)
          Insert.markersFit_apply mode table calls
      refine ⟨_, Insert.plain_template hquote hfit hraw columns rows,
        fun p => ⟨_, ?_, rfl, fun _ => rfl⟩⟩
      rw [withPlaceholder, withDialect, build, InsertDraft.ofCalls_dialect herror]
      exact bind_eq_ok.2 ⟨_, rfl, bind_eq_ok.2 ⟨(columns, rows), hresolve, rfl⟩⟩

/-- **Markers and parameters agree.**  A statement that can be built, whose raw
fragments leave the quoted sections that they enter, has with `?` exactly one marker
for each parameter.  Its parameters are the same in every style, and its text is the
text with `?` filled by the parameters in order: the `k`-th marker always stands for the
`k`-th parameter.  For a SELECT the style must have no empty placeholder, as a clause
without a text is left out with its keyword. -/
theorem build_eq_filled {b : Builder} (hquote : Quoting.opens b.settings.dialect.quote = true)
    (hraw : ∀ s ∈ b.rawTexts, Quoting.Closed s) {st : Statement} (hb : b.build = .ok st) :
    ∃ marked : Statement, (b.withPlaceholder .question).build = .ok marked ∧
      Marker.count marked.sql = marked.params.length ∧
      ∀ p : Placeholder, ∃ built : Statement, (b.withPlaceholder p).build = .ok built ∧
        built.params = marked.params ∧
        (b.InFull p →
          built.sql = ((Template.ofRaw marked.sql marked.params).emit p).sql) := by
  obtain ⟨t, ht, hbuild⟩ := exists_plain_template hquote hraw hb
  have hmarked : (b.withPlaceholder .question).build = .ok (t.emit .question) := by
    obtain ⟨built, hbuilt, -, hfull⟩ := hbuild .question
    rw [hbuilt, hfull (b.inFull_of_neverEmpty (Placeholder.neverEmpty_presets _ (by simp)))]
  refine ⟨t.emit .question, hmarked, Template.count_sql ht, fun p => ?_⟩
  obtain ⟨built, hbuilt, hparams, hfull⟩ := hbuild p
  refine ⟨built, hbuilt, hparams, fun hp => ?_⟩
  rw [hfull hp, show (t.emit .question).params = t.params from rfl]
  exact (congrArg Statement.sql (Template.emit_ofRaw ht p)).symm

/-- The hypotheses of `build_eq_filled` are satisfiable: a table with a marker and a
quote character in its name, a fragment with a marker in a literal, and values in
WHERE, ORDER BY and LIMIT. -/
theorem build_eq_filled_quoted :
    let b : Builder := .select "a?\x60b"
      [.restrict (.raw "x = ? OR y = '?'" [.int 1]),
        .restrict (.equalities (.ofList [("c", .null)])), .orderBy (.raw "f(?)" [.bool true]),
        .limit 10]
    Quoting.opens b.settings.dialect.quote = true ∧ (∀ s ∈ b.rawTexts, Quoting.Closed s) ∧
      b.InFull .atP ∧
      ∃ marked : Statement, (b.withPlaceholder .question).build = .ok marked ∧
        Marker.count marked.sql = marked.params.length ∧
        ∀ p : Placeholder, ∃ built : Statement, (b.withPlaceholder p).build = .ok built ∧
          built.params = marked.params ∧
          (b.InFull p →
            built.sql = ((Template.ofRaw marked.sql marked.params).emit p).sql) :=
  ⟨by decide, by decide, Placeholder.neverEmpty_presets .atP (by simp),
    build_eq_filled (by decide) (by decide) rfl⟩

/-- With a placeholder that is written as nothing, a condition that is a placeholder alone has
no text, so WHERE is left out, but it stands in the text with `?`. -/
theorem empty_placeholder_drops_clause :
    let b : Builder := .select "t" [.restrict (.raw "?" [.int 1])]
    let p : Placeholder := .custom fun _ => ""
    Quoting.opens b.settings.dialect.quote = true ∧ (∀ s ∈ b.rawTexts, Quoting.Closed s) ∧
      ∃ marked built : Statement, (b.withPlaceholder .question).build = .ok marked ∧
        (b.withPlaceholder p).build = .ok built ∧
        ((Template.ofRaw marked.sql marked.params).emit p).sql = "SELECT * FROM \x60t\x60 WHERE " ∧
        built.sql = "SELECT * FROM \x60t\x60" ∧ built.params = marked.params :=
  ⟨by decide, by decide, _, _, rfl, rfl, by decide, by decide, rfl⟩

end Builder

end BoundSql
