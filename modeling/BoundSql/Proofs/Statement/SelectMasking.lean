import BoundSql.Proofs.Clause.Resolution
import BoundSql.Proofs.ConditionText.Masking
import BoundSql.Proofs.Filter.Masking
import BoundSql.Proofs.Statement.Builder

/-!
# Masked SELECT statements

Two conditions are alike if they differ in their values alone, whichever of the five
forms they have.  Alike calls on SELECT statements that are the same when masked have
statements that are the same when masked, and these have the same text.  The numbers
of LIMIT, OFFSET and pages are values too.
-/

namespace BoundSql

/-- Conditions that differ in their values alone. -/
inductive Condition.Alike : Condition → Condition → Prop
  | raw (sql : String) {values values' : List Value}
      (h : values.map Value.mask = values'.map Value.mask) :
      Alike (.raw sql values) (.raw sql values')
  | predicate {p p' : Predicate} (h : p.mask = p'.mask) : Alike (.predicate p) (.predicate p')
  | equalities {m m' : ValueMap} (h : m.mask = m'.mask) : Alike (.equalities m) (.equalities m')
  /-- Texts that differ in their literals. -/
  | text {s s' : String} (h : ConditionText.maskedTokens s = ConditionText.maskedTokens s') :
      Alike (.text s) (.text s')
  | filter {f f' : Filter} (h : f.mask = f'.mask) : Alike (.filter f) (.filter f')

namespace Condition

/-- Every condition is like itself. -/
theorem Alike.refl (c : Condition) : c.Alike c := by
  cases c with
  | raw sql values => exact .raw sql rfl
  | predicate p => exact .predicate rfl
  | equalities m => exact .equalities rfl
  | text s => exact .text rfl
  | filter f => exact .filter rfl

/-- Conditions that are alike have the same masked predicate where both have one. -/
theorem Alike.mask_predicate? {c c' : Condition} (h : c.Alike c') {clause : String}
    {p? p'? : Option Predicate} (hp : c.predicate? clause = .ok p?)
    (hp' : c'.predicate? clause = .ok p'?) : p?.map Predicate.mask = p'?.map Predicate.mask := by
  cases h with
  | raw sql h =>
      rw [predicate?] at hp hp'
      split at hp <;> rename_i hblank
      · rw [if_pos hblank] at hp'
        split at hp <;> split at hp'
        · obtain rfl := Except.ok.inj hp
          obtain rfl := Except.ok.inj hp'
          rfl
        all_goals contradiction
      · rw [if_neg hblank] at hp'
        obtain rfl := Except.ok.inj hp
        obtain rfl := Except.ok.inj hp'
        exact congrArg (fun values => some (Predicate.raw sql values)) h
  | predicate h =>
      obtain rfl := Except.ok.inj hp
      obtain rfl := Except.ok.inj hp'
      exact congrArg some h
  | equalities h =>
      obtain rfl := Except.ok.inj hp
      obtain rfl := Except.ok.inj hp'
      rw [Predicate.mask_ofEqualities, Predicate.mask_ofEqualities, h]
  | text h =>
      obtain ⟨p, htext, rfl⟩ := map_eq_ok.1 hp
      obtain ⟨p', htext', rfl⟩ := map_eq_ok.1 hp'
      exact congrArg some (Predicate.mask_eq_of_maskedTokens_eq h htext htext')
  | @filter f f' h =>
      have hf := f.toPredicate_mask
      have hf' := f'.toPredicate_mask
      rw [h, hf', show f'.toPredicate = .ok p'? from hp', show f.toPredicate = .ok p? from hp] at hf
      exact (Except.ok.inj hf).symm

/-- **Alike conditions resolve to predicates that are the same when masked.** -/
theorem Alike.mask_resolve {c c' : Condition} (h : c.Alike c') {clause : String}
    {r? r'? : Option Predicate} (hr : c.resolve clause = .ok r?)
    (hr' : c'.resolve clause = .ok r'?) : r?.map Predicate.mask = r'?.map Predicate.mask := by
  have hfilter : ∀ p? : Option Predicate, (p?.filter (!·.isEmpty)).map Predicate.mask =
      (p?.map Predicate.mask).filter (!·.isEmpty) := by
    rintro (_ | p)
    · rfl
    · rw [Option.map_some, Option.filter_some, Option.filter_some, p.isEmpty_mask]
      split <;> rfl
  obtain ⟨p?, hp, rfl, -⟩ := resolve_eq_ok.1 hr
  obtain ⟨p'?, hp', rfl, -⟩ := resolve_eq_ok.1 hr'
  rw [hfilter, hfilter, h.mask_predicate? hp hp']

end Condition

namespace Select

/-- A statement with its values masked. -/
def mask (q : Select) : Select :=
  { q with
    restrictions := q.restrictions.map Predicate.mask
    groupBy? := q.groupBy?.map ColumnClause.mask
    groupRestrictions := q.groupRestrictions.map Predicate.mask
    orderBy? := q.orderBy?.map ColumnClause.mask
    limit? := q.limit?.map fun _ => 0
    offset? := q.offset?.map fun _ => 0 }

/-- Calls that differ in their values alone. -/
inductive Call.Alike : Call → Call → Prop
  | same (c : Call) : Alike c c
  | restrict {c c' : Condition} (h : c.Alike c') : Alike (.restrict c) (.restrict c')
  | restrictGroups {c c' : Condition} (h : c.Alike c') :
      Alike (.restrictGroups c) (.restrictGroups c')
  | groupBy {clause clause' : ColumnClause} (h : clause.mask = clause'.mask) :
      Alike (.groupBy clause) (.groupBy clause')
  | orderBy {clause clause' : ColumnClause} (h : clause.mask = clause'.mask) :
      Alike (.orderBy clause) (.orderBy clause')
  | limit (n n' : Int64) : Alike (.limit n) (.limit n')
  | offset (n n' : Int64) : Alike (.offset n) (.offset n')
  | paginate (page perPage page' perPage' : Int64) :
      Alike (.paginate page perPage) (.paginate page' perPage')

variable {q q' r r' : Select}

/-- Adding a predicate and masking gives what adding the masked predicate gives. -/
theorem mask_restrict (q : Select) (p? : Option Predicate) :
    mask { q with restrictions := q.restrictions ++ p?.toList } =
      { q.mask with restrictions := q.mask.restrictions ++ (p?.map Predicate.mask).toList } := by
  rw [mask, List.map_append]
  cases p? <;> rfl

/-- Adding a predicate for groups and masking gives what adding the masked one gives. -/
theorem mask_restrictGroups (q : Select) (p? : Option Predicate) :
    mask { q with groupRestrictions := q.groupRestrictions ++ p?.toList } =
      { q.mask with
        groupRestrictions := q.mask.groupRestrictions ++ (p?.map Predicate.mask).toList } := by
  rw [mask, List.map_append]
  cases p? <;> rfl

/-- Clauses that are alike are there or not there together. -/
theorem mask_if_isEmpty {clause clause' : ColumnClause} (h : clause.mask = clause'.mask) :
    (if clause.isEmpty then none else some clause).map ColumnClause.mask =
      (if clause'.isEmpty then none else some clause').map ColumnClause.mask := by
  rw [← clause.isEmpty_mask, ← clause'.isEmpty_mask, h]
  split
  · rfl
  · exact congrArg some h

/-- Conditions that are alike lead to statements that are alike. -/
theorem apply_restrict_masked {c c' : Condition} (h : q.mask = q'.mask) (hc : c.Alike c')
    (hr : q.apply (.restrict c) = .ok r) (hr' : q'.apply (.restrict c') = .ok r') :
    r.mask = r'.mask := by
  obtain ⟨p?, hp, hr⟩ := bind_eq_ok.1 hr
  obtain ⟨p'?, hp', hr'⟩ := bind_eq_ok.1 hr'
  rw [← pure_eq_ok.1 hr, ← pure_eq_ok.1 hr', mask_restrict, mask_restrict, h,
    hc.mask_resolve hp hp']

/-- Conditions on groups that are alike lead to statements that are alike. -/
theorem apply_restrictGroups_masked {c c' : Condition} (h : q.mask = q'.mask) (hc : c.Alike c')
    (hr : q.apply (.restrictGroups c) = .ok r) (hr' : q'.apply (.restrictGroups c') = .ok r') :
    r.mask = r'.mask := by
  obtain ⟨p?, hp, hr⟩ := bind_eq_ok.1 hr
  obtain ⟨p'?, hp', hr'⟩ := bind_eq_ok.1 hr'
  rw [← pure_eq_ok.1 hr, ← pure_eq_ok.1 hr', mask_restrictGroups, mask_restrictGroups, h,
    hc.mask_resolve hp hp']

/-- Groupings that are alike lead to statements that are alike. -/
theorem apply_groupBy_masked {clause clause' : ColumnClause} (h : q.mask = q'.mask)
    (hc : clause.mask = clause'.mask) (hr : q.apply (.groupBy clause) = .ok r)
    (hr' : q'.apply (.groupBy clause') = .ok r') : r.mask = r'.mask := by
  obtain ⟨-, rfl⟩ := apply_groupBy_eq_ok.1 hr
  obtain ⟨-, rfl⟩ := apply_groupBy_eq_ok.1 hr'
  calc
    _ = { q.mask with
          groupBy? := (if clause.isEmpty then none else some clause).map ColumnClause.mask } := rfl
    _ = { q'.mask with
          groupBy? := (if clause'.isEmpty then none else some clause').map ColumnClause.mask } := by
      rw [h, mask_if_isEmpty hc]

/-- Orders that are alike lead to statements that are alike. -/
theorem apply_orderBy_masked {clause clause' : ColumnClause} (h : q.mask = q'.mask)
    (hc : clause.mask = clause'.mask) (hr : q.apply (.orderBy clause) = .ok r)
    (hr' : q'.apply (.orderBy clause') = .ok r') : r.mask = r'.mask := by
  obtain ⟨-, rfl⟩ := apply_orderBy_eq_ok.1 hr
  obtain ⟨-, rfl⟩ := apply_orderBy_eq_ok.1 hr'
  calc
    _ = { q.mask with
          orderBy? := (if clause.isEmpty then none else some clause).map ColumnClause.mask } := rfl
    _ = { q'.mask with
          orderBy? := (if clause'.isEmpty then none else some clause').map ColumnClause.mask } := by
      rw [h, mask_if_isEmpty hc]

/-- Limits are values, so any two of them lead to statements that are alike. -/
theorem apply_limit_masked {n n' : Int64} (h : q.mask = q'.mask)
    (hr : q.apply (.limit n) = .ok r) (hr' : q'.apply (.limit n') = .ok r') : r.mask = r'.mask := by
  obtain ⟨-, rfl⟩ := apply_limit_eq_ok.1 hr
  obtain ⟨-, rfl⟩ := apply_limit_eq_ok.1 hr'
  exact congrArg (fun q : Select => { q with limit? := some 0 }) h

/-- Offsets are values, so any two of them lead to statements that are alike. -/
theorem apply_offset_masked {n n' : Int64} (h : q.mask = q'.mask)
    (hr : q.apply (.offset n) = .ok r) (hr' : q'.apply (.offset n') = .ok r') :
    r.mask = r'.mask := by
  obtain ⟨-, rfl⟩ := apply_offset_eq_ok.1 hr
  obtain ⟨-, rfl⟩ := apply_offset_eq_ok.1 hr'
  exact congrArg (fun q : Select => { q with offset? := some 0 }) h

/-- Pages and their sizes are values, so any two lead to statements that are alike. -/
theorem apply_paginate_masked {page perPage page' perPage' : Int64} (h : q.mask = q'.mask)
    (hr : q.apply (.paginate page perPage) = .ok r)
    (hr' : q'.apply (.paginate page' perPage') = .ok r') : r.mask = r'.mask := by
  obtain ⟨-, -, rfl⟩ := apply_paginate_eq_ok.1 hr
  obtain ⟨-, -, rfl⟩ := apply_paginate_eq_ok.1 hr'
  exact congrArg (fun q : Select => { q with limit? := some 0, offset? := some 0 }) h

/-- **Alike calls keep statements the same when masked.** -/
theorem apply_masked {c c' : Call} (h : q.mask = q'.mask) (hc : c.Alike c')
    (hr : q.apply c = .ok r) (hr' : q'.apply c' = .ok r') : r.mask = r'.mask := by
  cases hc with
  | restrict hc => exact apply_restrict_masked h hc hr hr'
  | restrictGroups hc => exact apply_restrictGroups_masked h hc hr hr'
  | groupBy hc => exact apply_groupBy_masked h hc hr hr'
  | orderBy hc => exact apply_orderBy_masked h hc hr hr'
  | limit n n' => exact apply_limit_masked h hr hr'
  | offset n n' => exact apply_offset_masked h hr hr'
  | paginate page perPage page' perPage' => exact apply_paginate_masked h hr hr'
  | same c =>
      cases c with
      | restrict c => exact apply_restrict_masked h (.refl c) hr hr'
      | restrictGroups c => exact apply_restrictGroups_masked h (.refl c) hr hr'
      | groupBy clause => exact apply_groupBy_masked h rfl hr hr'
      | orderBy clause => exact apply_orderBy_masked h rfl hr hr'
      | limit n => exact apply_limit_masked h hr hr'
      | offset n => exact apply_offset_masked h hr hr'
      | paginate page perPage => exact apply_paginate_masked h hr hr'
      | settings s =>
          rw [← Except.ok.inj hr, ← Except.ok.inj hr']
          exact congrArg (fun q : Select => { q with settings := s }) h
      | dialect d =>
          rw [← Except.ok.inj hr, ← Except.ok.inj hr']
          exact congrArg (fun q : Select => { q with settings := q.settings.withDialect d }) h
      | tag tag =>
          rw [← Except.ok.inj hr, ← Except.ok.inj hr']
          exact congrArg (fun q : Select => { q with settings := q.settings.withTag tag }) h
      | «alias» name =>
          obtain ⟨-, rfl⟩ := apply_alias_eq_ok.1 hr
          obtain ⟨-, rfl⟩ := apply_alias_eq_ok.1 hr'
          exact congrArg (fun q : Select => { q with alias? := some (.single name) }) h
      | distinct =>
          rw [← Except.ok.inj hr, ← Except.ok.inj hr']
          exact congrArg (fun q : Select => { q with distinct := true }) h
      | columns names =>
          obtain ⟨-, rfl⟩ := apply_columns_eq_ok.1 hr
          obtain ⟨-, rfl⟩ := apply_columns_eq_ok.1 hr'
          exact congrArg (fun q : Select =>
            { q with projection := if names.isEmpty then .all else .columns names }) h
      | columnsRaw sql =>
          obtain ⟨-, rfl⟩ := apply_columnsRaw_eq_ok.1 hr
          obtain ⟨-, rfl⟩ := apply_columnsRaw_eq_ok.1 hr'
          exact congrArg (fun q : Select =>
            { q with
              projection := if (Text.trim sql).isEmpty then .all else .raw (Text.trim sql) }) h

/-! ## Text -/

/-- Masking a conjunction in a clause masks the predicates that it joins. -/
theorem clauseLayout_conjunction_mask (keyword : String) (ps : List Predicate) :
    (clauseLayout keyword (Predicate.conjunction ps)).mask =
      clauseLayout keyword (Predicate.conjunction (ps.map Predicate.mask)) := by
  rw [Predicate.conjunction_mask]
  rfl

/-- Masking a clause of columns masks the clause that it was made of. -/
theorem columnLayout_mask (keyword : String) (clause? : Option ColumnClause) :
    (columnLayout keyword clause?).mask =
      columnLayout keyword (clause?.map ColumnClause.mask) := by
  cases clause? with
  | none => rfl
  | some clause => exact congrArg (clauseLayout keyword) clause.layout_mask.symm

/-- Counts are masked alike, for one of them is there just when the other is. -/
theorem mask_countChunks {n? n'? : Option Int64}
    (h : n?.map (fun _ => (0 : Int64)) = n'?.map fun _ => 0) (keyword : String) :
    (countChunks keyword n?).map Chunk.mask = (countChunks keyword n'?).map Chunk.mask := by
  cases n? <;> cases n'?
  · rfl
  · contradiction
  · contradiction
  · rfl

/-- Statements that are the same when masked have layouts that are the same when masked. -/
theorem mask_layout (h : q.mask = q'.mask) :
    (q.layout q.projection).mask = (q'.layout q'.projection).mask := by
  simp only [mask, mk.injEq] at h
  obtain ⟨htable, halias, -, hdistinct, hprojection, hwhere, hgroup, hhaving, horder, hlimit,
    hoffset⟩ := h
  have hopening : q.openingChunks q.projection = q'.openingChunks q'.projection := by
    rw [openingChunks, openingChunks, htable, halias, hdistinct, hprojection]
  have hcounts : (countChunks " LIMIT " q.limit? ++ countChunks " OFFSET " q.offset?).map
        Chunk.mask =
      (countChunks " LIMIT " q'.limit? ++ countChunks " OFFSET " q'.offset?).map Chunk.mask := by
    rw [List.map_append, List.map_append, mask_countChunks hlimit, mask_countChunks hoffset]
  rw [layout, layout]
  simp only [Layout.mask, clauseLayout_conjunction_mask, columnLayout_mask, hopening, hwhere,
    hgroup, hhaving, horder, hcounts]

/-- **Statements that are the same when masked have the same text.** -/
theorem mask_statement (h : q.mask = q'.mask) :
    (q.statement q.projection).mask = (q'.statement q'.projection).mask := by
  have hsettings : q.settings = q'.settings := by
    simpa only [mask] using congrArg settings h
  rw [statement, statement, Layout.mask_write, Layout.mask_write, mask_layout h, hsettings]

end Select

/-- **Alike calls on a table build SELECT statements that are the same when masked.** -/
theorem SelectDraft.mask_build {table : String} {calls calls' : List Select.Call}
    (hcalls : List.Forall₂ Select.Call.Alike calls calls')
    (h : (ofCalls table calls).error? = none) (h' : (ofCalls table calls').error? = none) :
    (build (ofCalls table calls)).map Statement.mask =
      (build (ofCalls table calls')).map Statement.mask := by
  have hstate : (ofCalls table calls).state.mask = (ofCalls table calls').state.mask :=
    ofCalls_related (R := fun q q' => q.mask = q'.mask) (fun _ => rfl) Select.apply_masked
      hcalls h h'
  rw [build, build, Draft.get_eq_ok.2 ⟨h, rfl⟩, Draft.get_eq_ok.2 ⟨h', rfl⟩]
  exact congrArg Except.ok (Select.mask_statement hstate)

end BoundSql
