import BoundSql.Proofs.Predicate.Visible
import BoundSql.Proofs.Statement.Aspects
import BoundSql.Proofs.Statement.InsertPlaces
import BoundSql.Proofs.Statement.Markers
import BoundSql.Proofs.Statement.Pieces

/-!
# Clauses of a SELECT

WHERE, GROUP BY, HAVING and ORDER BY are in the text of a SELECT just when they have
something to say: a condition with content was added, or the columns that were set last are
not empty.  What follows the keyword is then not blank, and neither is anything beside an
AND or an OR or inside a NOT (`SelectDraft.clauses_stand`).  What is dropped binds nothing:
the parameters are the values of the conditions and clauses that are there.
-/

namespace BoundSql

/-- One of the conditions has content. -/
def Condition.SomeEffective (clause : String) (cs : List Condition) : Prop :=
  ∃ c ∈ cs, ∃ p, c.resolve clause = .ok (some p)

/-- What is blank binds nothing. -/
theorem Template.params_of_isBlank {t : Template} (h : t.isBlank = true) : t.params = [] := by
  induction t with
  | nil => rfl
  | cons piece rest ih =>
      obtain ⟨hpiece, hrest⟩ := Bool.and_eq_true_iff.1 h
      cases piece with
      | text s => exact ih hrest
      | bind v => exact absurd hpiece Bool.false_ne_true

namespace Predicate

/-- How a condition is written among those of a clause: as it is by itself, and a raw fragment
in parentheses beside others. -/
def standing (quote : Char) (alone : Bool) (p : Predicate) : Template :=
  if alone then p.template quote else p.isolated quote

variable {quote : Char} {ps : List Predicate}

/-- Isolating a predicate adds parentheses or nothing. -/
theorem isolated_eq (quote : Char) (p : Predicate) :
    p.isolated quote = p.template quote ∨ p.isolated quote = enclosed (p.template quote) := by
  cases p with
  | raw sql values =>
      rw [isolated_raw, template_raw]
      exact .inr rfl
  | _ => exact .inl rfl

/-- Conditions as they stand, with AND between them. -/
def joined (quote : Char) (ps : List Predicate) : Template :=
  Template.join " AND " (ps.map (standing quote (ps.length == 1)))

/-- **All conditions with content are joined.** -/
theorem conjoin_eq_joined (h : ∀ p ∈ ps, p.isEmpty = false) :
    conjoin quote ps = joined quote ps := by
  rcases ps with _ | ⟨only, _ | ⟨next, more⟩⟩
  · rfl
  · rfl
  · exact conjoin_several (Nat.le_add_left 2 _) h

/-- A predicate with content is seen, in parentheses or without. -/
theorem visible_standing (alone : Bool) {p : Predicate} (h : p.isEmpty = false) :
    (standing quote alone p).isInvisible = false := by
  have htemplate := visible_template quote h
  cases alone
  · rcases isolated_eq quote p with hp | hp
    · exact (congrArg _ hp).trans htemplate
    · exact (congrArg _ hp).trans (visible_enclosed _)
  · exact htemplate

/-- Predicates with content are seen when they are joined. -/
theorem visible_joined (h : ∀ p ∈ ps, p.isEmpty = false) (hne : ps ≠ []) :
    (joined quote ps).isInvisible = false := by
  obtain ⟨p, hp⟩ := List.exists_mem_of_ne_nil ps hne
  exact Template.isInvisible_join (List.mem_map_of_mem hp) (visible_standing _ (h p hp))

/-- A predicate whose markers fit its values binds just these. -/
theorem params_template {p : Predicate} (h : p.fault? = none) :
    (p.template quote).params = p.values :=
  (p.layout.params_template quote).trans (values_layout p h)

/-- Parentheses bind nothing. -/
theorem params_standing (alone : Bool) {p : Predicate} (h : p.fault? = none) :
    (standing quote alone p).params = p.values := by
  have htemplate : (p.template quote).params = p.values := params_template h
  cases alone
  · rcases isolated_eq quote p with hp | hp
    · exact (congrArg _ hp).trans htemplate
    · refine (congrArg _ hp).trans ?_
      rw [enclosed, List.cons_append, Template.params, Template.params_append, htemplate]
      exact List.append_nil _
  · exact htemplate

/-- Conditions bind their values, one condition after another. -/
theorem params_joined (hfault : ∀ p ∈ ps, p.fault? = none) :
    (joined quote ps).params = ps.flatMap values := by
  rw [joined, Template.params_join, List.flatMap_map]
  exact List.flatMap_congr fun p hp => params_standing _ (hfault p hp)

end Predicate

namespace ColumnClause

/-- The values of a clause. -/
def values : ColumnClause → List Value
  | .columns _ => []
  | .raw _ values => values
  | .predicate p _ => p.values

/-- Columns with their directions and commas between them. -/
theorem template_columns (quote : Char) (items : List OrderItem) :
    (columns items).template quote = Template.join ", " (items.map fun item =>
      .text (item.column.toSql quote) ::
        (directionChunks item.direction?).map (Chunk.piece quote)) := by
  rw [template, layout, Layout.template, Layout.full_chunks, Chunk.map_join, List.map_map]
  rfl

/-- The raw SQL of a clause is what it is in a predicate. -/
theorem template_raw (quote : Char) (sql : String) (values : List Value) :
    (raw sql values).template quote = Template.ofRaw sql values :=
  Predicate.template_raw quote sql values

/-- A direction follows the predicate that is ordered by. -/
theorem template_predicate (quote : Char) (p : Predicate) (direction? : Option Direction) :
    (predicate p direction?).template quote =
      p.template quote ++ (directionChunks direction?).map (Chunk.piece quote) :=
  Layout.template_append quote p.layout (.chunks (directionChunks direction?))

/-- An order item is seen, since its column has quotes. -/
theorem visible_directed {quote : Char} (hquote : Text.isBlank quote = false) (item : OrderItem) :
    Template.isInvisible (.text (item.column.toSql quote) ::
      (directionChunks item.direction?).map (Chunk.piece quote)) = false := by
  refine Template.isInvisible_of_mem List.mem_cons_self ?_
  obtain ⟨parts, hparts⟩ := item.column
  obtain ⟨part, more, rfl⟩ := List.exists_cons_of_ne_nil hparts
  obtain ⟨rest, hrest⟩ := Identifier.exists_quoteParts_cons quote part more
  simp [Piece.isInvisible, Identifier.toSql, Text.allBlank, hrest, hquote]

/-- A clause with content is seen. -/
theorem visible_template {quote : Char} (hquote : Text.isBlank quote = false) {c : ColumnClause}
    (h : c.isEmpty = false) : (c.template quote).isInvisible = false := by
  cases c with
  | columns items =>
      obtain ⟨item, hitem⟩ := List.exists_mem_of_ne_nil items (by simpa [isEmpty] using h)
      rw [template_columns]
      exact Template.isInvisible_join (List.mem_map_of_mem hitem) (visible_directed hquote item)
  | raw sql values =>
      rw [template_raw]
      exact Template.isInvisible_ofRaw h values
  | predicate p direction? =>
      rw [template_predicate, Template.isInvisible_append, Predicate.visible_template quote h]
      rfl

/-- A direction binds nothing. -/
theorem values_directionChunks (direction? : Option Direction) :
    Chunk.values (directionChunks direction?) = [] := by
  cases direction? <;> rfl

/-- The body of a clause that may be missing. -/
def body (quote : Char) (clause? : Option ColumnClause) : Template :=
  (clause?.map (·.template quote)).getD []

/-- An accepted clause binds its values. -/
theorem params_template {quote : Char} {c : ColumnClause} (h : c.MarkersFit) :
    (c.template quote).params = c.values := by
  cases c with
  | columns items =>
      refine (Layout.params_template quote _).trans ?_
      refine (Chunk.filterMap_join (fun _ => rfl) ", " _).trans ?_
      rw [List.flatMap_map]
      exact List.flatMap_eq_nil_iff.2 fun item _ => values_directionChunks item.direction?
  | raw sql values =>
      rw [template_raw]
      refine Marker.params_fill ?_
      rw [Marker.length_segments, h]
  | predicate p direction? =>
      rw [template_predicate, Template.params_append, Chunk.params_map_piece,
        values_directionChunks, List.append_nil]
      exact Predicate.params_template h

end ColumnClause

namespace Select

/-- The clause was set, and has content. -/
def Effective (clause? : Option ColumnClause) : Prop :=
  ∃ clause, clause? = some clause ∧ clause.isEmpty = false

/-- A clause with its keyword, unless its body is blank. -/
def clauseTemplate (keyword : String) (body : Template) : Template :=
  if body.isBlank then [] else .text keyword :: body

/-- A clause in a text: if it is present its keyword and a body that is not blank, and else
nothing. -/
structure ClauseText (p : Placeholder) (keyword : String) (body : Template) (present : Prop)
    (text : String) : Prop where
  there : present → ∃ index, text = keyword ++ Template.sqlFrom p index body ∧
    Text.allBlank (Template.sqlFrom p index body) = false
  absent : ¬present → text = ""

/-- A clause whose body is seen when the clause is present, and which has none otherwise. -/
theorem clauseText_of_visible {p : Placeholder}
    (hp : ∀ index, Text.allBlank (p.render index) = false) {body : Template} {present : Prop}
    (hpresent : present → body.isInvisible = false) (habsent : ¬present → body = [])
    (keyword : String) (index : Nat) :
    ClauseText p keyword body present
      (Template.sqlFrom p index (clauseTemplate keyword body)) := by
  constructor
  · intro h
    have hvisible := hpresent h
    have hbody : ¬body.isBlank = true := by
      intro hblank
      rw [Template.isInvisible_of_isBlank hblank] at hvisible
      exact absurd hvisible Bool.noConfusion
    refine ⟨index, ?_, ?_⟩
    · rw [clauseTemplate, if_neg hbody, Template.sqlFrom]
    · rw [Template.allBlank_sqlFrom hp, hvisible]
  · intro h
    rw [habsent h]
    rfl

/-- A clause binds what its body binds. -/
theorem params_clauseTemplate (keyword : String) (body : Template) :
    (clauseTemplate keyword body).params = body.params := by
  rw [clauseTemplate]
  split
  · rename_i hblank
    exact (Template.params_of_isBlank hblank).symm
  · rfl

/-- The text of a projection. -/
def projectionText (quote : Char) : Projection → String
  | .all => "*"
  | .columns names => ", ".intercalate (names.map (·.toSql quote))
  | .raw sql => sql

/-- The text up to the clauses. -/
def openingText (q : Select) (projection : Projection) : String :=
  let quote := q.settings.dialect.quote
  "SELECT " ++ (if q.distinct then "DISTINCT " else "") ++ projectionText quote projection ++
    " FROM " ++ q.table.toSql quote ++
    ((q.alias?.map fun name => " AS " ++ name.toSql quote).getD "")

/-- LIMIT and OFFSET, their placeholders numbered from an index. -/
def countsText (p : Placeholder) (index : Nat) : Option Int64 → Option Int64 → String
  | none, none => ""
  | some _, none => " LIMIT " ++ p.render index
  | none, some _ => " OFFSET " ++ p.render index
  | some _, some _ => " LIMIT " ++ p.render index ++ " OFFSET " ++ p.render (index + 1)

/-- The template up to the clauses. -/
def opening (q : Select) (projection : Projection) : Template :=
  (q.openingChunks projection).map (Chunk.piece q.settings.dialect.quote)

/-- The template of LIMIT and OFFSET. -/
def counts (quote : Char) (limit? offset? : Option Int64) : Template :=
  (countChunks " LIMIT " limit? ++ countChunks " OFFSET " offset?).map (Chunk.piece quote)

/-- Up to the clauses nothing is bound. -/
theorem params_opening (q : Select) (projection : Projection) :
    (q.opening projection).params = [] := by
  have hprojection : Chunk.values projection.chunks = [] := by
    cases projection with
    | columns names =>
        refine (Chunk.filterMap_join (fun _ => rfl) ", " _).trans ?_
        rw [List.flatMap_map]
        exact List.flatMap_eq_nil_iff.2 fun _ _ => rfl
    | _ => rfl
  rw [Chunk.values] at hprojection
  rw [opening, Chunk.params_map_piece, openingChunks, Chunk.values]
  simp only [List.cons_append, List.filterMap_cons, List.filterMap_append, hprojection]
  cases q.alias? <;> cases q.distinct <;> rfl

/-- The text of a projection binds nothing, so no index shows in it. -/
theorem sqlFrom_projection (p : Placeholder) (index : Nat) (quote : Char)
    (projection : Projection) :
    Template.sqlFrom p index (projection.chunks.map (Chunk.piece quote)) =
      projectionText quote projection := by
  cases projection with
  | all => rfl
  | columns names =>
      rw [Projection.chunks, Chunk.map_list]
      exact Insert.sqlFrom_columnList p quote names index
  | raw sql => exact String.append_empty

/-- The text of an opening is that of its words and identifiers. -/
theorem sqlFrom_opening (p : Placeholder) (q : Select) (projection : Projection) :
    Template.sqlFrom p 0 (q.opening projection) = q.openingText projection := by
  rw [opening, openingChunks, openingText]
  simp only [List.map_append, List.map_cons, Template.sqlFrom_append, sqlFrom_projection]
  cases q.alias? <;> cases q.distinct <;>
    simp [aliasChunks, Chunk.piece, Template.sqlFrom, String.append_assoc, -String.reduceAppend]

/-- LIMIT and OFFSET are written with the placeholders that come next. -/
theorem sqlFrom_counts (p : Placeholder) (quote : Char) (index : Nat)
    (limit? offset? : Option Int64) :
    Template.sqlFrom p index (counts quote limit? offset?) = countsText p index limit? offset? := by
  cases limit? <;> cases offset? <;>
    simp [counts, countChunks, countsText, Chunk.piece, Template.sqlFrom, String.append_assoc]

/-- The template of a clause. -/
theorem template_clauseLayout (quote : Char) (keyword : String) (body : Layout) :
    (clauseLayout keyword body).template quote = clauseTemplate keyword (body.template quote) := by
  have hblank := Chunk.isBlank_map_piece quote body.full
  rw [Layout.template, clauseLayout, Layout.full_framed, clauseTemplate, Layout.template, hblank]
  split
  · rfl
  · simp [Chunk.piece]

/-- The template of a clause that may be missing. -/
theorem template_columnLayout (quote : Char) (keyword : String) (clause? : Option ColumnClause) :
    (columnLayout keyword clause?).template quote =
      clauseTemplate keyword (ColumnClause.body quote clause?) := by
  cases clause? with
  | none => rfl
  | some clause => exact template_clauseLayout quote keyword clause.layout

/-- The template from the opening on. -/
theorem template_eq_opening (q : Select) (projection : Projection) :
    let quote := q.settings.dialect.quote
    q.template projection = q.opening projection ++
      (clauseTemplate " WHERE " (Predicate.conjoin quote q.restrictions) ++
        (clauseTemplate " GROUP BY " (ColumnClause.body quote q.groupBy?) ++
          (clauseTemplate " HAVING " (Predicate.conjoin quote q.groupRestrictions) ++
            (clauseTemplate " ORDER BY " (ColumnClause.body quote q.orderBy?) ++
              counts quote q.limit? q.offset?)))) := by
  intro quote
  rw [template, layout]
  simp only [Layout.template_append, template_clauseLayout, template_columnLayout]
  rfl

/-- The text from the opening on, the placeholders of each clause numbered behind those of
the clauses in front of it. -/
theorem sqlFrom_bodies (p : Placeholder) (quote : Char) (q : Select) (projection : Projection)
    (w g k o : Template) :
    Template.sqlFrom p 0 (q.opening projection ++
      (clauseTemplate " WHERE " w ++ (clauseTemplate " GROUP BY " g ++
        (clauseTemplate " HAVING " k ++ (clauseTemplate " ORDER BY " o ++
          counts quote q.limit? q.offset?))))) =
      q.openingText projection ++
        (Template.sqlFrom p 0 (clauseTemplate " WHERE " w) ++
          (Template.sqlFrom p w.params.length (clauseTemplate " GROUP BY " g) ++
            (Template.sqlFrom p (w.params.length + g.params.length)
                (clauseTemplate " HAVING " k) ++
              (Template.sqlFrom p (w.params.length + g.params.length + k.params.length)
                  (clauseTemplate " ORDER BY " o) ++
                countsText p (w.params ++ (g.params ++ (k.params ++ o.params))).length
                  q.limit? q.offset?)))) := by
  simp only [Template.sqlFrom_append p, sqlFrom_opening, params_opening, params_clauseTemplate,
    List.length_nil, List.length_append, Nat.zero_add, Nat.add_assoc, ← sqlFrom_counts p quote]

/-! ## What the calls leave -/

/-- What a condition is resolved into is what it resolves to. -/
theorem resolve_of_mem_resolved {clause : String} {c : Condition} {p : Predicate}
    (h : p ∈ resolved clause c) : c.resolve clause = .ok (some p) := by
  rw [resolved] at h
  split at h
  · rename_i p? hp
    rw [hp, Option.mem_toList.1 h]
  · exact absurd h List.not_mem_nil

/-- What conditions are resolved into comes from one of them. -/
theorem resolve_of_mem_flatMap {clause : String} {cs : List Condition} {p : Predicate}
    (h : p ∈ cs.flatMap (resolved clause)) : ∃ c ∈ cs, c.resolve clause = .ok (some p) := by
  obtain ⟨c, hc, hp⟩ := List.mem_flatMap.1 h
  exact ⟨c, hc, resolve_of_mem_resolved hp⟩

/-- Some condition has content just when a predicate is left of the conditions. -/
theorem someEffective_iff {clause : String} {cs : List Condition} :
    Condition.SomeEffective clause cs ↔ cs.flatMap (resolved clause) ≠ [] := by
  constructor
  · rintro ⟨c, hc, p, hp⟩
    have hmem : p ∈ resolved clause c := by
      rw [resolved_of_ok hp]
      exact List.mem_singleton_self p
    exact List.ne_nil_of_mem (List.mem_flatMap.2 ⟨c, hc, hmem⟩)
  · intro h
    obtain ⟨p, hp⟩ := List.exists_mem_of_ne_nil _ h
    obtain ⟨c, hc, hp⟩ := resolve_of_mem_flatMap hp
    exact ⟨c, hc, p, hp⟩

/-- Conditions are never resolved into predicates without content. -/
theorem isEmpty_of_mem_flatMap {clause : String} {cs : List Condition} :
    ∀ p ∈ cs.flatMap (resolved clause), p.isEmpty = false := by
  intro p hp
  obtain ⟨c, -, hc⟩ := resolve_of_mem_flatMap hp
  exact Condition.isEmpty_of_resolve hc

/-- Conditions are never resolved into predicates with a fault. -/
theorem fault?_of_mem_flatMap {clause : String} {cs : List Condition} :
    ∀ p ∈ cs.flatMap (resolved clause), p.fault? = none := by
  intro p hp
  obtain ⟨c, -, hc⟩ := resolve_of_mem_flatMap hp
  exact Condition.fault?_of_resolve hc

/-- The clause of conditions. -/
theorem clauseText_conditions {d : Dialect} (hd : d.Visible) (clause : String)
    (cs : List Condition) (keyword : String) (index : Nat) :
    let body := Predicate.joined d.quote (cs.flatMap (resolved clause))
    ClauseText d.placeholder keyword body (Condition.SomeEffective clause cs)
      (Template.sqlFrom d.placeholder index (clauseTemplate keyword body)) := by
  intro body
  refine clauseText_of_visible hd.placeholder (fun h => ?_) (fun h => ?_) keyword index
  · exact Predicate.visible_joined isEmpty_of_mem_flatMap (someEffective_iff.1 h)
  · rw [someEffective_iff, not_not] at h
    rw [show body = Predicate.joined d.quote [] from congrArg (Predicate.joined d.quote) h]
    rfl

/-- The clause of columns. -/
theorem clauseText_columns {d : Dialect} (hd : d.Visible) (clause? : Option ColumnClause)
    (keyword : String) (index : Nat) :
    let body := ColumnClause.body d.quote (clause?.filter (!·.isEmpty))
    ClauseText d.placeholder keyword body (Effective clause?)
      (Template.sqlFrom d.placeholder index (clauseTemplate keyword body)) := by
  intro body
  refine clauseText_of_visible hd.placeholder (fun h => ?_) (fun h => ?_) keyword index
  · obtain ⟨clause, rfl, hclause⟩ := h
    have hbody : body = clause.template d.quote := by
      simp only [body]
      rw [filter_clause, hclause]
      rfl
    rw [hbody]
    exact ColumnClause.visible_template hd.quote hclause
  · cases clause? with
    | none => rfl
    | some clause =>
        have hclause : clause.isEmpty = true := by
          by_contra hne
          exact h ⟨clause, rfl, by simpa using hne⟩
        simp only [body]
        rw [filter_clause, hclause]
        rfl

/-- The body of a column clause binds the values of the clause, if its markers fit these. -/
theorem params_columns (quote : Char) {clause? : Option ColumnClause}
    (h : ∀ clause ∈ clause?, clause.MarkersFit) :
    (ColumnClause.body quote clause?).params = (clause?.map ColumnClause.values).getD [] := by
  cases clause? with
  | none => rfl
  | some clause => exact ColumnClause.params_template (h clause rfl)

/-- LIMIT binds its count before OFFSET does. -/
theorem params_counts (quote : Char) (limit? offset? : Option Int64) :
    (counts quote limit? offset?).params = (limit?.toList ++ offset?.toList).map Value.int := by
  cases limit? <;> cases offset? <;> rfl

end Select

namespace SelectDraft

open BoundSql.Select

/-- **A SELECT has no dangling clause.**  Whatever calls have led to it without an error, under
a dialect that is visible, as the presets are, and for every projection: the text is its
opening, the clauses of WHERE, GROUP BY, HAVING and ORDER BY, and the counts.  A clause is
there just when one of its conditions has content, or the columns that were set last have; what
follows its keyword is not blank, and else it has no text at all.  The predicates left of the
conditions are joined by AND as they stand, none of them blank, and each is written as its
normal form with all its parts, of which none is blank.  The parameters are the values of
these predicates, of the columns that have content, and the counts. -/
theorem clauses_stand {table : String} {calls : List Select.Call}
    (h : (ofCalls table calls).error? = none)
    (hd : (ofCalls table calls).state.settings.dialect.Visible) :
    let q := (ofCalls table calls).state
    let d := q.settings.dialect
    let p := d.placeholder
    let wheres := (settingsOf .restriction calls).flatMap (resolved "WHERE")
    let havings := (settingsOf .groupRestriction calls).flatMap (resolved "HAVING")
    let groupBy? := (last? .groupBy calls).filter (!·.isEmpty)
    let orderBy? := (last? .orderBy calls).filter (!·.isEmpty)
    let bound := wheres.flatMap Predicate.values ++
      ((groupBy?.map ColumnClause.values).getD [] ++ (havings.flatMap Predicate.values ++
        (orderBy?.map ColumnClause.values).getD []))
    (∀ preset ∈ [Dialect.mysql, Dialect.postgres, Dialect.sqlite], preset.Visible) ∧
      (∀ c ∈ wheres ++ havings, (∃ n, c.Shown d n) ∧ ∀ alone index,
        Text.allBlank (Template.sqlFrom p index (c.standing d.quote alone)) = false) ∧
      build (ofCalls table calls) = .ok (q.statement q.projection) ∧
      (∀ {α : Type} (t : RecordType α) (st : Statement),
        buildFor (ofCalls table calls) t = .ok st → ∃ projection, st = q.statement projection) ∧
      ∀ projection,
        let st := q.statement projection
        (∃ w g k o, st.sql = q.openingText projection ++
            (w ++ (g ++ (k ++ (o ++ countsText p bound.length q.limit? q.offset?)))) ∧
          ClauseText p " WHERE " (Predicate.joined d.quote wheres)
            (Condition.SomeEffective "WHERE" (settingsOf .restriction calls)) w ∧
          ClauseText p " GROUP BY " (ColumnClause.body d.quote groupBy?)
            (Effective (last? .groupBy calls)) g ∧
          ClauseText p " HAVING " (Predicate.joined d.quote havings)
            (Condition.SomeEffective "HAVING" (settingsOf .groupRestriction calls)) k ∧
          ClauseText p " ORDER BY " (ColumnClause.body d.quote orderBy?)
            (Effective (last? .orderBy calls)) o) ∧
        st.params = bound ++ (q.limit?.toList ++ q.offset?.toList).map Value.int := by
  intro q d p wheres havings groupBy? orderBy? bound
  have hq : q = Select.described (.ofText table) calls :=
    congrArg Draft.state (ofCalls_eq_described h)
  have hfit : q.MarkersFit := ofCalls_preserves markersFit_ofTable markersFit_apply table calls
  have hwheres : q.restrictions = wheres := by rw [hq]; rfl
  have hhavings : q.groupRestrictions = havings := by rw [hq]; rfl
  have hgroupBy : q.groupBy? = groupBy? := by rw [hq]; rfl
  have horderBy : q.orderBy? = orderBy? := by rw [hq]; rfl
  have hbuild : build (ofCalls table calls) = .ok (q.statement q.projection) := by
    rw [SelectDraft.build, Draft.eq_of_error? h]
    rfl
  have hemit : ∀ projection, q.statement projection = (q.template projection).emit p :=
    fun projection => Layout.write_of_neverEmpty hd.neverEmpty _
  have htemplate : ∀ projection, q.template projection = q.opening projection ++
      (clauseTemplate " WHERE " (Predicate.joined d.quote wheres) ++
        (clauseTemplate " GROUP BY " (ColumnClause.body d.quote groupBy?) ++
          (clauseTemplate " HAVING " (Predicate.joined d.quote havings) ++
            (clauseTemplate " ORDER BY " (ColumnClause.body d.quote orderBy?) ++
              counts d.quote q.limit? q.offset?)))) := by
    intro projection
    rw [template_eq_opening, hwheres, hhavings, hgroupBy, horderBy,
      Predicate.conjoin_eq_joined isEmpty_of_mem_flatMap,
      Predicate.conjoin_eq_joined isEmpty_of_mem_flatMap]
  have hw : (Predicate.joined d.quote wheres).params = wheres.flatMap Predicate.values :=
    Predicate.params_joined fault?_of_mem_flatMap
  have hg : (ColumnClause.body d.quote groupBy?).params =
      (groupBy?.map ColumnClause.values).getD [] :=
    params_columns d.quote (hgroupBy ▸ hfit.groupBy)
  have hk : (Predicate.joined d.quote havings).params = havings.flatMap Predicate.values :=
    Predicate.params_joined fault?_of_mem_flatMap
  have ho : (ColumnClause.body d.quote orderBy?).params =
      (orderBy?.map ColumnClause.values).getD [] :=
    params_columns d.quote (horderBy ▸ hfit.orderBy)
  refine ⟨Dialect.visible_presets, fun c hc => ?_, hbuild, fun t st hst => ?_,
    fun projection => ⟨?_, ?_⟩⟩
  · have hcontent : c.isEmpty = false :=
      (List.mem_append.1 hc).elim (isEmpty_of_mem_flatMap c) (isEmpty_of_mem_flatMap c)
    refine ⟨Predicate.exists_shown hd hcontent, fun alone index => ?_⟩
    rw [Template.allBlank_sqlFrom hd.placeholder]
    exact Predicate.visible_standing alone hcontent
  · obtain ⟨found, hfound, hst⟩ := bind_eq_ok.1 hst
    obtain ⟨-, rfl⟩ := Draft.get_eq_ok.1 hfound
    rw [statementFor_eq_map] at hst
    obtain ⟨projection, -, rfl⟩ := map_eq_ok.1 hst
    exact ⟨projection, rfl⟩
  · have hsql : (q.statement projection).sql = Template.sqlFrom p 0 (q.template projection) :=
      congrArg Statement.sql (hemit projection)
    rw [hsql, htemplate, sqlFrom_bodies, hw, hg, hk, ho]
    exact ⟨_, _, _, _, rfl, clauseText_conditions hd .., clauseText_columns hd ..,
      clauseText_conditions hd .., clauseText_columns hd ..⟩
  · have hparams : (q.statement projection).params = (q.template projection).params :=
      congrArg Statement.params (hemit projection)
    rw [hparams, htemplate]
    simp only [Template.params_append, params_opening, params_clauseTemplate, List.nil_append,
      hw, hg, hk, ho, ← params_counts d.quote, List.append_assoc, bound]

/-- Of four conditions two have no content, and of two members of a group one; the columns are
set to none, and the order to white space. -/
theorem clauses_stand_dropped :
    let calls : List Select.Call := [
      .dialect .postgres,
      .restrict (.predicate (.and [.raw " " [], .not (.or [])])),
      .restrict (.raw "a = ? OR b" [.int 1]),
      .restrict (.predicate (.not (.or [.raw " " [], .nullTest (.single "x") false]))),
      .restrictGroups (.raw "\t" []),
      .groupBy (.columns [⟨.single "y", none⟩]),
      .groupBy (.columns []),
      .orderBy (.raw " " []),
      .limit 5]
    let q := (ofCalls "t" calls).state
    (q.statement .all).sql =
        "SELECT * FROM \"t\" WHERE (a = $1 OR b) AND NOT (\"x\" IS NULL) LIMIT $2" ∧
      (q.statement .all).params = [.int 1, .int 5] ∧
      ¬Effective (last? .groupBy calls) ∧
      ∃ n, Predicate.Shown .postgres
        (.not (.or [.raw " " [], .nullTest (.single "x") false])) n := by
  intro calls q
  have herror : (ofCalls "t" calls).error? = none := rfl
  have hvisible : (ofCalls "t" calls).state.settings.dialect.Visible :=
    Dialect.visible_presets .postgres (by simp)
  obtain ⟨-, hshown, -, -, hstatement⟩ := clauses_stand herror hvisible
  refine ⟨by decide +kernel, (hstatement .all).2, ?_, ?_⟩
  · rintro ⟨clause, hlast, hclause⟩
    obtain rfl := Option.some.inj hlast
    exact absurd hclause (by decide)
  · exact (hshown _ (List.mem_cons_of_mem _ List.mem_cons_self)).1

end SelectDraft

end BoundSql
