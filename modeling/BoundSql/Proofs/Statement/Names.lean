import BoundSql.Proofs.ConditionText.Marks
import BoundSql.Proofs.ConditionText.Rendering
import BoundSql.Proofs.Identifier.Accepted
import BoundSql.Proofs.Statement.InsertPlaces
import BoundSql.Proofs.Statement.Pieces

/-!
# Names of a statement

The identifiers that are written in a finished statement come from its calls, and a call is
accepted only if the names that it checks are.  Checked are the table, the alias, the columns
that are projected, grouped by, ordered by, inserted or assigned by their names, and the names
in condition text.  Unchecked are the columns of predicates, whether they were given as trees,
as equalities or as filter documents, and the columns that are inferred from a record type or
from the first entry of an INSERT; so an empty name may be written there
(`Compilation.names_accepted_empty`).  Named markers check the inferred columns as well.
-/

namespace BoundSql

/-! ## Condition text -/

namespace ConditionText

/-- A name of a text is one of its tokens. -/
theorem name_mem_of_mem_names {n : String} {ts : List Token} (h : n ∈ names ts) :
    .name n ∈ ts := by
  fun_induction names ts with
  | case1 m rest ih | case2 m rest ih =>
      rcases List.mem_cons.1 h with rfl | h
      · exact List.mem_cons_self
      · rcases List.mem_cons.1 h with rfl | h
        · exact List.mem_cons_self
        · simp [ih h]
  | case3 m rest _ _ ih =>
      rcases List.mem_cons.1 h with rfl | h
      · exact List.mem_cons_self
      · exact List.mem_cons_of_mem _ (ih h)
  | case4 t rest _ _ _ ih => exact List.mem_cons_of_mem t (ih h)
  | case5 => exact absurd h List.not_mem_nil

/-- A name that a text can write has words for its parts. -/
theorem validate_of_writes {cs : List Char} {n : String} (h : Writes cs (.name n)) :
    (Identifier.ofText n).validate = .ok () := by
  cases h with
  | name _ hwords _ _ =>
      refine Identifier.validate_eq_ok.2 fun part hpart => ?_
      obtain ⟨word, hword, rfl⟩ := List.mem_map.1 hpart
      rw [String.toList_ofList] at hword
      obtain ⟨c, rest, rfl, hc, hrest⟩ := hwords word hword
      refine ⟨by simp, fun hnul => ?_⟩
      rw [String.toList_ofList] at hnul
      have hinName : ∀ d ∈ c :: rest, Named.inName d = true :=
        List.forall_mem_cons.2 ⟨Named.inName_of_startsName hc, List.all_eq_true.1 hrest⟩
      exact absurd (hinName _ hnul) (by decide)

end ConditionText

open ConditionText in
/-- **The names of condition text are accepted.** -/
theorem Predicate.validate_of_ofText {text : String} {p : Predicate} (h : ofText text = .ok p) :
    ∀ i ∈ p.columns, i.validate = .ok () := by
  intro i hi
  rw [columns_ofText h] at hi
  obtain ⟨n, hn, rfl⟩ := List.mem_map.1 hi
  obtain ⟨d, hd, -, -⟩ := ofText_eq_ok.1 h
  obtain ⟨l, hl, htoken⟩ := List.mem_map.1 (name_mem_of_mem_names hn)
  obtain ⟨-, hwrites⟩ := (cut_scanFrom hd.cut).writes_iff l hl
  exact validate_of_writes ((hwrites _).2 htoken.symm)

/-! ## Conditions and clauses -/

namespace Condition

/-- The names that a condition checks. -/
def checked : Condition → List Identifier
  | .text s =>
    match Predicate.ofText s with
    | .ok p => p.columns
    | .error _ => []
  | _ => []

/-- The names that a condition brings in unchecked. -/
def unchecked : Condition → List Identifier
  | .predicate p => p.columns
  | .equalities m => m.keys.map Identifier.ofText
  | .filter f =>
    match f.toPredicate with
    | .ok (some p) => p.columns
    | _ => []
  | _ => []

/-- The identifiers that a condition checks are valid once it is accepted. -/
theorem validate_of_checked {c : Condition} : ∀ i ∈ c.checked, i.validate = .ok () := by
  intro i hi
  cases c with
  | text s =>
      rw [checked] at hi
      split at hi
      · rename_i p hp
        exact Predicate.validate_of_ofText hp i hi
      · exact absurd hi List.not_mem_nil
  | _ => exact absurd hi List.not_mem_nil

/-- The condition of a map has its keys for columns. -/
theorem columns_ofEqualities {m : ValueMap} {p : Predicate}
    (h : Predicate.ofEqualities m = some p) : p.columns = m.keys.map Identifier.ofText := by
  have hcolumns : ∀ entries : List (String × Value),
      Predicate.columnsOf (entries.map fun entry =>
        Predicate.columnIs (Identifier.ofText entry.1) .eq entry.2) =
          (entries.map Prod.fst).map Identifier.ofText := by
    intro entries
    induction entries with
    | nil => rfl
    | cons entry rest ih => exact congrArg (Identifier.ofText entry.1 :: ·) ih
  rw [KeyMap.keys, ← hcolumns]
  rw [Predicate.ofEqualities] at h
  split at h
  · exact absurd h (by simp)
  · rename_i only honly
    obtain rfl := Option.some.inj h
    exact (List.append_nil _).symm.trans (congrArg Predicate.columnsOf honly).symm
  · obtain rfl := Option.some.inj h
    rfl

/-- **What a condition adds:** names that it checks and names that it does not. -/
theorem columns_of_resolve {clause : String} {c : Condition} {p : Predicate}
    (h : c.resolve clause = .ok (some p)) : p.columns ⊆ c.checked ++ c.unchecked := by
  have hp : c.predicate? clause = .ok (some p) := by
    obtain ⟨found?, hfound, h⟩ := bind_eq_ok.1 h
    rw [hfound]
    cases found? with
    | none => exact absurd (pure_eq_ok.1 h) (by simp)
    | some found =>
        simp only at h
        split at h
        · exact absurd (pure_eq_ok.1 h) (by simp)
        · obtain ⟨-, h⟩ := bind_unit_eq_ok.1 h
          rw [pure_eq_ok.1 h]
  cases c with
  | raw sql values =>
      rw [predicate?] at hp
      split at hp
      · split at hp <;> simp at hp
      · obtain rfl := Option.some.inj (Except.ok.inj hp)
        exact List.nil_subset _
  | predicate q =>
      obtain rfl := Option.some.inj (Except.ok.inj hp)
      exact List.Subset.refl _
  | equalities m =>
      rw [columns_ofEqualities (Except.ok.inj hp)]
      exact List.Subset.refl _
  | text s =>
      obtain ⟨found, hfound, hsome⟩ := map_eq_ok.1 hp
      obtain rfl := Option.some.inj hsome
      simp [checked, hfound]
  | filter f =>
      have hf : f.toPredicate = .ok (some p) := hp
      simp [unchecked, hf]

end Condition

namespace ColumnClause

/-- The names that a clause checks. -/
def checked : ColumnClause → List Identifier
  | .columns items => items.map OrderItem.column
  | _ => []

/-- The names that a clause brings in unchecked. -/
def unchecked : ColumnClause → List Identifier
  | .predicate p _ => p.columns
  | _ => []

/-- The names of a clause are those that it checks and those that it does not. -/
theorem names_eq_append (c : ColumnClause) : c.names = c.checked ++ c.unchecked := by
  cases c with
  | columns items => exact (List.append_nil _).symm
  | raw sql values => rfl
  | predicate p direction? => rfl

/-- Order items pass the check if their columns do. -/
theorem validate_of_validateColumns {items : List OrderItem}
    (h : validateColumns items = .ok ()) :
    ∀ i ∈ items.map OrderItem.column, i.validate = .ok () := by
  induction items with
  | nil => exact fun i hi => absurd hi List.not_mem_nil
  | cons item rest ih =>
      obtain ⟨hitem, h⟩ := bind_unit_eq_ok.1 h
      exact List.forall_mem_cons.2 ⟨hitem, ih h⟩

/-- A clause that is accepted has valid names where it checks them. -/
theorem validate_of_checked {clause : String} {c : ColumnClause}
    (h : c.validate clause = .ok ()) : ∀ i ∈ c.checked, i.validate = .ok () := by
  cases c with
  | columns items => exact validate_of_validateColumns (mapError_eq_ok.1 h)
  | _ => exact fun i hi => absurd hi List.not_mem_nil

end ColumnClause

/-- What a draft starts from was checked. -/
theorem Draft.check_of_checked {α : Type} {a : α} {check : Except SqlError Unit}
    (h : (checked a check).error? = none) : check = .ok () := by
  cases check with
  | ok => rfl
  | error e => exact absurd h (Option.some_ne_none e)

/-! ## SELECT -/

namespace Select

namespace Call

/-- The names that a call checks. -/
def checked : Call → List Identifier
  | .alias name => [.single name]
  | .columns names => names
  | .restrict c | .restrictGroups c => c.checked
  | .groupBy clause | .orderBy clause => clause.checked
  | _ => []

/-- The names that a call brings in unchecked. -/
def unchecked : Call → List Identifier
  | .restrict c | .restrictGroups c => c.unchecked
  | .groupBy clause | .orderBy clause => clause.unchecked
  | _ => []

end Call

/-- Columns pass the check one by one. -/
theorem validate_of_validateColumns {context : String} {names : List Identifier}
    (h : validateColumns context names = .ok ()) : ∀ i ∈ names, i.validate = .ok () := by
  induction names with
  | nil => exact fun i hi => absurd hi List.not_mem_nil
  | cons name rest ih =>
      obtain ⟨hname, h⟩ := bind_unit_eq_ok.1 h
      exact List.forall_mem_cons.2 ⟨mapError_eq_ok.1 hname, ih h⟩

variable {q r : Select} {c : Call}

/-- **A call is accepted only if the names that it checks are.** -/
theorem validate_of_apply (h : q.apply c = .ok r) : ∀ i ∈ c.checked, i.validate = .ok () := by
  cases c with
  | «alias» name =>
      obtain ⟨hname, -⟩ := apply_alias_eq_ok.1 h
      exact List.forall_mem_singleton.2 hname
  | columns names => exact validate_of_validateColumns (apply_columns_eq_ok.1 h).1
  | restrict c | restrictGroups c => exact Condition.validate_of_checked
  | groupBy clause => exact ColumnClause.validate_of_checked (apply_groupBy_eq_ok.1 h).1
  | orderBy clause => exact ColumnClause.validate_of_checked (apply_orderBy_eq_ok.1 h).1
  | _ => exact fun i hi => absurd hi List.not_mem_nil

/-- The identifiers that are written in the statement have a property. -/
structure NamesIn (P : Identifier → Prop) (q : Select) : Prop where
  table : P q.table
  aliased : ∀ i ∈ q.alias?, P i
  projection : ∀ i ∈ q.projection.names, P i
  restrictions : ∀ p ∈ q.restrictions, ∀ i ∈ p.columns, P i
  groupBy : ∀ clause ∈ q.groupBy?, ∀ i ∈ clause.names, P i
  groupRestrictions : ∀ p ∈ q.groupRestrictions, ∀ i ∈ p.columns, P i
  orderBy : ∀ clause ∈ q.orderBy?, ∀ i ∈ clause.names, P i

variable {P : Identifier → Prop}

/-- What holds of the names of a clause that may be missing holds if it is there. -/
theorem forall_columnClause {clause? : Option ColumnClause} :
    (∀ i ∈ (clause?.map ColumnClause.names).getD [], P i) ↔
      ∀ clause ∈ clause?, ∀ i ∈ clause.names, P i := by
  cases clause? <;> simp

/-- With another projection the other names are the same. -/
theorem NamesIn.forall_names {q : Select} (hq : q.NamesIn P) {projection : Projection}
    (hprojection : ∀ i ∈ projection.names, P i) : ∀ i ∈ q.names projection, P i := by
  have haliased : ∀ i ∈ q.alias?.toList, P i := by simpa using hq.aliased
  simp only [names, List.forall_mem_append, List.forall_mem_cons, List.forall_mem_flatMap,
    forall_columnClause]
  exact ⟨⟨⟨⟨⟨hprojection, hq.table, haliased⟩, hq.restrictions⟩, hq.groupBy⟩,
    hq.groupRestrictions⟩, hq.orderBy⟩

/-- A weaker property holds of the names that a stronger one holds of. -/
theorem NamesIn.imp {Q : Identifier → Prop} (h : ∀ i, P i → Q i) {q : Select}
    (hq : q.NamesIn P) : q.NamesIn Q where
  table := h _ hq.table
  aliased i hi := h i (hq.aliased i hi)
  projection i hi := h i (hq.projection i hi)
  restrictions p hp i hi := h i (hq.restrictions p hp i hi)
  groupBy clause hclause i hi := h i (hq.groupBy clause hclause i hi)
  groupRestrictions p hp i hi := h i (hq.groupRestrictions p hp i hi)
  orderBy clause hclause i hi := h i (hq.orderBy clause hclause i hi)

/-- A clause that is kept has the names of the call. -/
theorem names_of_kept {clause kept : ColumnClause}
    (hc : ∀ i ∈ clause.checked ++ clause.unchecked, P i)
    (hkept : kept ∈ if clause.isEmpty then none else some clause) : ∀ i ∈ kept.names, P i := by
  split at hkept
  · exact absurd hkept (Option.not_mem_none kept)
  · obtain rfl := Option.some.inj hkept
    rw [clause.names_eq_append]
    exact hc

/-- A condition that is added has the names of the call. -/
theorem columns_of_added {clause : String} {c : Condition} {p? : Option Predicate}
    (hc : ∀ i ∈ c.checked ++ c.unchecked, P i) (hp : c.resolve clause = .ok p?)
    {ps : List Predicate} (hps : ∀ p ∈ ps, ∀ i ∈ p.columns, P i) :
    ∀ p ∈ ps ++ p?.toList, ∀ i ∈ p.columns, P i := by
  refine List.forall_mem_append.2 ⟨hps, fun p hmem i hi => hc i ?_⟩
  rw [Option.mem_toList.1 hmem] at hp
  exact Condition.columns_of_resolve hp hi

/-- **The names that an accepted call adds are names of the call.** -/
theorem namesIn_apply (hq : q.NamesIn P) (hc : ∀ i ∈ c.checked ++ c.unchecked, P i)
    (h : q.apply c = .ok r) : r.NamesIn P := by
  cases c with
  | settings s | dialect d | tag t | distinct =>
      obtain rfl := Except.ok.inj h
      exact { hq with }
  | «alias» name =>
      obtain ⟨-, rfl⟩ := apply_alias_eq_ok.1 h
      exact { hq with aliased := fun i hi => hc i (by simp_all [Call.checked]) }
  | columns names =>
      obtain ⟨-, rfl⟩ := apply_columns_eq_ok.1 h
      refine { hq with projection := fun i hi => hc i (List.mem_append_left _ ?_) }
      simp only at hi
      split at hi
      · exact absurd hi List.not_mem_nil
      · exact hi
  | columnsRaw sql =>
      obtain ⟨-, rfl⟩ := apply_columnsRaw_eq_ok.1 h
      refine ⟨hq.table, hq.aliased, fun i hi => ?_, hq.restrictions, hq.groupBy,
        hq.groupRestrictions, hq.orderBy⟩
      simp only at hi
      split at hi <;> exact absurd hi List.not_mem_nil
  | restrict c =>
      obtain ⟨p?, hp, h⟩ := bind_eq_ok.1 h
      obtain rfl := pure_eq_ok.1 h
      exact { hq with restrictions := columns_of_added hc hp hq.restrictions }
  | restrictGroups c =>
      obtain ⟨p?, hp, h⟩ := bind_eq_ok.1 h
      obtain rfl := pure_eq_ok.1 h
      exact { hq with groupRestrictions := columns_of_added hc hp hq.groupRestrictions }
  | groupBy clause =>
      obtain ⟨-, rfl⟩ := apply_groupBy_eq_ok.1 h
      exact { hq with groupBy := fun kept hkept => names_of_kept hc hkept }
  | orderBy clause =>
      obtain ⟨-, rfl⟩ := apply_orderBy_eq_ok.1 h
      exact { hq with orderBy := fun kept hkept => names_of_kept hc hkept }
  | limit n =>
      obtain ⟨-, rfl⟩ := apply_limit_eq_ok.1 h
      exact { hq with }
  | offset n =>
      obtain ⟨-, rfl⟩ := apply_offset_eq_ok.1 h
      exact { hq with }
  | paginate page perPage =>
      obtain ⟨-, -, rfl⟩ := apply_paginate_eq_ok.1 h
      exact { hq with }

/-- The columns that are projected for a record type if none were given. -/
def inferred {α : Type} (q : Select) (t : RecordType α) : List Identifier :=
  match q.projection with
  | .all => ((t.columns q.settings.tag).getD []).map .single
  | _ => []

/-- A projection that is inferred has the columns of the record type for names. -/
theorem names_projectionFor {α : Type} {q : Select} {t : RecordType α} {projection : Projection}
    (h : q.projectionFor t = .ok projection) :
    projection.names ⊆ q.projection.names ++ q.inferred t := by
  rw [projectionFor] at h
  rw [inferred]
  split at h
  · obtain ⟨columns, hcolumns, rfl⟩ := map_eq_ok.1 h
    rename_i hall
    simp only [hall]
    rw [RecordType.columnsAt] at hcolumns
    split at hcolumns
    · rename_i heq
      obtain rfl := Except.ok.inj hcolumns
      rw [heq]
      exact List.subset_append_right _ _
    · exact absurd hcolumns (by simp)
  · obtain rfl := Except.ok.inj h
    exact List.subset_append_left _ _

/-- The statement is written with the table and with names of calls, and those that are
checked are accepted. -/
structure NamesOf (table : Identifier) (made : List Call) (q : Select) : Prop where
  accepted : ∀ i ∈ table :: made.flatMap Call.checked, i.validate = .ok ()
  written : q.NamesIn fun i =>
    i ∈ table :: made.flatMap Call.checked ∨ i ∈ made.flatMap Call.unchecked

/-- A call adds to the names of a SELECT none but its own. -/
theorem namesOf_apply {table : Identifier} {made : List Call} (hq : q.NamesOf table made)
    (h : q.apply c = .ok r) : r.NamesOf table (made ++ [c]) := by
  constructor
  · rw [List.flatMap_append, List.flatMap_singleton, ← List.cons_append,
      List.forall_mem_append]
    exact ⟨hq.accepted, validate_of_apply h⟩
  · simp only [List.flatMap_append, List.flatMap_singleton, ← List.cons_append,
      List.mem_append (t := c.checked), List.mem_append (t := c.unchecked)]
    refine namesIn_apply (hq.written.imp fun i hi => ?_) (fun i hi => ?_) h
    · exact hi.imp .inl .inl
    · exact (List.mem_append.1 hi).imp .inr .inr

end Select

namespace SelectDraft

/-- **A SELECT is written with names of its calls.** -/
theorem namesOf_ofCalls {table : String} {calls : List Select.Call}
    (h : (ofCalls table calls).error? = none) :
    (ofCalls table calls).state.NamesOf (.ofText table) calls := by
  have htable : (Identifier.ofText table).validate = .ok () :=
    mapError_eq_ok.1 (Draft.check_of_checked (Draft.error?_of_foldl h))
  refine Draft.foldl_gathers (fun hq hr => Select.namesOf_apply hq hr) [] calls ?_ h
  rw [ofTable, Draft.checked_state]
  refine ⟨List.forall_mem_singleton.2 htable, ?_⟩
  exact {
    table := .inl List.mem_cons_self
    aliased := fun i hi => absurd hi (Option.not_mem_none i)
    projection := fun i hi => absurd hi List.not_mem_nil
    restrictions := fun p hp => absurd hp List.not_mem_nil
    groupBy := fun clause hclause => absurd hclause (Option.not_mem_none clause)
    groupRestrictions := fun p hp => absurd hp List.not_mem_nil
    orderBy := fun clause hclause => absurd hclause (Option.not_mem_none clause) }

end SelectDraft

/-! ## INSERT -/

namespace Insert

namespace Call

/-- The names that a call checks. -/
def checked : Call → List Identifier
  | .columns names => names
  | .update column _ => [column]
  | _ => []

end Call

variable {q r : Insert} {c : Call}

/-- An assignment that is accepted has a valid column. -/
theorem validate_of_validateAssignment {a : Assignment} (h : validateAssignment a = .ok ()) :
    a.column.validate = .ok () := by
  obtain ⟨_, hcolumn, -⟩ := bind_eq_ok.1 h
  exact mapError_eq_ok.1 hcolumn

/-- **A call is accepted only if the names that it checks are.** -/
theorem validate_of_apply (h : q.apply c = .ok r) : ∀ i ∈ c.checked, i.validate = .ok () := by
  cases c with
  | columns names => exact Select.validate_of_validateColumns (apply_columns_eq_ok.1 h).1
  | update column assigned =>
      obtain ⟨-, hassignment, -⟩ := apply_update_eq_ok.1 h
      exact List.forall_mem_singleton.2 (validate_of_validateAssignment hassignment)
  | _ => exact fun i hi => absurd hi List.not_mem_nil

/-- The columns of the first entry if none were given. -/
def inferred (q : Insert) : List Identifier :=
  if q.columns.isEmpty then
    (q.source.entries.head?.map (Entry.columns q.settings.tag)).getD []
  else []

/-- The columns of the rows are among those that were set and those that are inferred. -/
theorem mem_rowColumns {i : Identifier} :
    i ∈ q.rowColumns ↔ i ∈ q.columns ∨ i ∈ q.inferred := by
  rw [rowColumns, columnsOr, inferred]
  split
  · rename_i hnone
    rw [List.isEmpty_iff.1 hnone]
    exact (or_iff_right List.not_mem_nil).symm
  · exact (or_iff_left List.not_mem_nil).symm

/-- The columns of named markers are found as those of rows are. -/
theorem namedColumns_eq {columns : List Identifier} (h : q.namedColumns = .ok columns) :
    columns = q.rowColumns := by
  have hfound : ∀ {x : Except SqlError (List Identifier)},
      (x >>= fun columns => if columns.isEmpty then throw noColumns else return columns) =
        .ok columns → columns ≠ [] ∧ x = .ok columns := by
    intro x hx
    obtain ⟨found, hfound, hx⟩ := bind_eq_ok.1 hx
    obtain ⟨hne, hx⟩ := guard_eq_ok.1 hx
    obtain rfl := pure_eq_ok.1 hx
    exact ⟨fun hnil => hne (List.isEmpty_iff.2 hnil), hfound⟩
  rw [namedColumns] at h
  rw [rowColumns, columnsOr]
  split at h
  · rename_i hgiven
    rw [if_neg (by simpa using hgiven)]
    exact (pure_eq_ok.1 (hfound h).2).symm
  · rename_i hgiven
    rw [if_pos (by simpa using hgiven)]
    split at h
    · rename_i maps hsource
      rw [hsource, ← pure_eq_ok.1 (hfound h).2]
      cases maps <;> rfl
    · rename_i records hsource
      rw [hsource, columnsOfRecords_eq (hfound h).2]
      cases records <;> rfl
    · exact absurd (pure_eq_ok.1 (hfound h).2).symm (hfound h).1

/-- The columns that are given or assigned are names of calls. -/
theorem Gathers.mem_checked {calls : List Call} (hq : q.Gathers calls) {i : Identifier}
    (h : i ∈ q.columns ∨ i ∈ q.assignments.map Assignment.column) :
    i ∈ calls.flatMap Call.checked := by
  rw [List.mem_flatMap]
  rcases h with h | h
  · rw [hq.columns, List.getLastD_eq_getLast?] at h
    cases hlast : (calls.filterMap Call.columns?).getLast? with
    | none =>
        rw [hlast] at h
        exact absurd h List.not_mem_nil
    | some names =>
        rw [hlast] at h
        obtain ⟨c, hc, hnames⟩ := List.mem_filterMap.1 (List.mem_of_getLast? hlast)
        refine ⟨c, hc, ?_⟩
        cases c with
        | columns given =>
            obtain rfl := Option.some.inj hnames
            exact h
        | _ => exact absurd hnames (by simp [Call.columns?])
  · obtain ⟨a, ha, rfl⟩ := List.mem_map.1 h
    rw [hq.assignments] at ha
    obtain ⟨c, hc, ha⟩ := List.mem_flatMap.1 ha
    refine ⟨c, hc, ?_⟩
    cases c with
    | update column assigned =>
        obtain rfl := List.mem_singleton.1 ha
        exact List.mem_singleton_self _
    | _ => exact absurd ha List.not_mem_nil

/-- What has names that can be named markers is accepted. -/
theorem validate_of_validateNames {columns : List Identifier}
    (h : validateNames columns = .ok ()) : ∀ i ∈ columns, i.validate = .ok () := by
  induction columns with
  | nil => exact fun i hi => absurd hi List.not_mem_nil
  | cons column rest ih =>
      rw [validateNames] at h
      split at h
      · rename_i hname
        exact List.forall_mem_cons.2 ⟨Identifier.validate_of_isName hname, ih h⟩
      · exact absurd h (by simp)

end Insert

namespace InsertDraft

/-- No call changes the table of an INSERT. -/
theorem table_ofCalls (mode : InsertMode) (table : String) (calls : List Insert.Call) :
    (ofCalls mode table calls).state.table = Identifier.ofText table := by
  refine Draft.foldl_preserves (I := fun q => q.table = Identifier.ofText table)
    (fun q c r hq hr => (Insert.kept_of_apply hr).1.trans hq) calls ?_
  rw [ofTable, Draft.checked_state]
  rfl

/-- **The table, and the names that calls check, are accepted.** -/
theorem validate_ofCalls {mode : InsertMode} {table : String} {calls : List Insert.Call}
    (h : (ofCalls mode table calls).error? = none) :
    ∀ i ∈ Identifier.ofText table :: calls.flatMap Insert.Call.checked, i.validate = .ok () := by
  have htable : (Identifier.ofText table).validate = .ok () :=
    mapError_eq_ok.1 (Draft.check_of_checked (Draft.error?_of_foldl h))
  refine Draft.foldl_gathers
    (I := fun made _ => ∀ i ∈ Identifier.ofText table :: made.flatMap Insert.Call.checked,
      i.validate = .ok ())
    (fun {made a c b} hmade hr => ?_) [] calls (List.forall_mem_singleton.2 htable) h
  rw [List.flatMap_append, List.flatMap_singleton, ← List.cons_append, List.forall_mem_append]
  exact ⟨hmade, Insert.validate_of_apply hr⟩

end InsertDraft

/-! ## Finished statements -/

/-- A statement under construction and the way in which it is finished: by itself, for
reading a record type, or with named markers. -/
inductive Compilation
  | select (table : String) (calls : List Select.Call)
  | selectFor {α : Type} (table : String) (calls : List Select.Call) (t : RecordType α)
  | insert (mode : InsertMode) (table : String) (calls : List Insert.Call)
  | insertNamed (mode : InsertMode) (table : String) (calls : List Insert.Call)

namespace Compilation

/-- The text of the finished statement. -/
def text : Compilation → Except SqlError String
  | select table calls =>
    (SelectDraft.build (SelectDraft.ofCalls table calls)).map Statement.sql
  | selectFor table calls t =>
    (SelectDraft.buildFor (SelectDraft.ofCalls table calls) t).map Statement.sql
  | insert mode table calls =>
    (InsertDraft.build (InsertDraft.ofCalls mode table calls)).map Statement.sql
  | insertNamed mode table calls =>
    (InsertDraft.buildNamed (InsertDraft.ofCalls mode table calls)).map NamedStatement.sql

/-- The dialect that the calls have left. -/
def dialect : Compilation → Dialect
  | select table calls | selectFor table calls _ =>
    (SelectDraft.ofCalls table calls).state.settings.dialect
  | insert mode table calls | insertNamed mode table calls =>
    (InsertDraft.ofCalls mode table calls).state.settings.dialect

/-- The pieces of the finished statement. -/
def chunks : Compilation → Except SqlError (List Chunk)
  | select table calls =>
    let q := (SelectDraft.ofCalls table calls).state
    .ok (q.chunks q.projection)
  | selectFor table calls t =>
    let q := (SelectDraft.ofCalls table calls).state
    (q.projectionFor t).map q.chunks
  | insert mode table calls =>
    let q := (InsertDraft.ofCalls mode table calls).state
    q.resolve.map fun found => q.chunks found.1 found.2
  | insertNamed mode table calls =>
    let q := (InsertDraft.ofCalls mode table calls).state
    q.namedColumns.map q.namedChunks

/-- The names that are checked on the way. -/
def checked : Compilation → List Identifier
  | select table calls | selectFor table calls _ =>
    Identifier.ofText table :: calls.flatMap Select.Call.checked
  | insert _ table calls => Identifier.ofText table :: calls.flatMap Insert.Call.checked
  | insertNamed mode table calls =>
    Identifier.ofText table :: calls.flatMap Insert.Call.checked ++
      (InsertDraft.ofCalls mode table calls).state.inferred

/-- The names that come in unchecked: columns of predicates, and inferred columns. -/
def unchecked : Compilation → List Identifier
  | select _ calls => calls.flatMap Select.Call.unchecked
  | selectFor table calls t =>
    calls.flatMap Select.Call.unchecked ++ (SelectDraft.ofCalls table calls).state.inferred t
  | insert mode table calls => (InsertDraft.ofCalls mode table calls).state.inferred
  | insertNamed _ _ _ => []

/-- The text is written with pieces whose identifiers are all checked, and then accepted, or
unchecked. -/
structure Written (c : Compilation) (text : String) (cs : List Chunk) : Prop where
  chunks : c.chunks = .ok cs
  text : text = (Chunk.write c.dialect cs).sql
  accepted : ∀ i ∈ c.checked, i.validate = .ok ()
  names : ∀ i ∈ Chunk.columns cs, i ∈ c.checked ∨ i ∈ c.unchecked

variable {text : String}

/-- A SELECT that compiles is written from chunks, with its names and words. -/
theorem written_select {table : String} {calls : List Select.Call}
    (h : (select table calls).text = .ok text) : ∃ cs, (select table calls).Written text cs := by
  obtain ⟨st, hst, rfl⟩ := map_eq_ok.1 h
  obtain ⟨q, hq, hst⟩ := bind_eq_ok.1 hst
  obtain ⟨herror, rfl⟩ := Draft.get_eq_ok.1 hq
  obtain rfl := pure_eq_ok.1 hst
  have hnames := SelectDraft.namesOf_ofCalls herror
  refine ⟨_, ⟨rfl, ?_, hnames.accepted, ?_⟩⟩
  · rw [Select.statement_eq_write]
    rfl
  · rw [Select.columns_chunks]
    exact hnames.written.forall_names hnames.written.projection

/-- A SELECT that compiles for a record type is written from chunks. -/
theorem written_selectFor {α : Type} {table : String} {calls : List Select.Call}
    {t : RecordType α} (h : (selectFor table calls t).text = .ok text) :
    ∃ cs, (selectFor table calls t).Written text cs := by
  obtain ⟨st, hst, rfl⟩ := map_eq_ok.1 h
  obtain ⟨q, hq, hst⟩ := bind_eq_ok.1 hst
  obtain ⟨herror, rfl⟩ := Draft.get_eq_ok.1 hq
  rw [Select.statementFor_eq_map] at hst
  obtain ⟨projection, hprojection, rfl⟩ := map_eq_ok.1 hst
  have hnames := SelectDraft.namesOf_ofCalls herror
  refine ⟨_, ⟨map_eq_ok.2 ⟨projection, hprojection, rfl⟩, ?_, hnames.accepted, ?_⟩⟩
  · rw [Select.statement_eq_write]
    rfl
  · rw [Select.columns_chunks]
    refine (hnames.written.imp fun i hi => hi.imp_right (List.mem_append_left _)).forall_names ?_
    intro i hi
    rcases List.mem_append.1 (Select.names_projectionFor hprojection hi) with hi | hi
    · exact (hnames.written.projection i hi).imp_right (List.mem_append_left _)
    · exact .inr (List.mem_append_right _ hi)

/-- The names of an INSERT with columns that are given or inferred. -/
theorem mem_names_insert {mode : InsertMode} {table : String} {calls : List Insert.Call}
    (h : (InsertDraft.ofCalls mode table calls).error? = none) :
    let q := (InsertDraft.ofCalls mode table calls).state
    ∀ i ∈ q.names q.rowColumns,
      i ∈ Identifier.ofText table :: calls.flatMap Insert.Call.checked ∨ i ∈ q.inferred := by
  intro q i hi
  have hgathers := InsertDraft.gathers_ofCalls h
  rw [Insert.names, InsertDraft.table_ofCalls, List.cons_append, List.mem_cons, List.mem_append,
    Insert.mem_rowColumns] at hi
  rw [List.mem_cons]
  rcases hi with hi | (hi | hi) | hi
  · exact .inl (.inl hi)
  · exact .inl (.inr (hgathers.mem_checked (.inl hi)))
  · exact .inr hi
  · exact .inl (.inr (hgathers.mem_checked (.inr hi)))

/-- An INSERT that compiles is written from chunks, its rows included. -/
theorem written_insert {mode : InsertMode} {table : String} {calls : List Insert.Call}
    (h : (insert mode table calls).text = .ok text) :
    ∃ cs, (insert mode table calls).Written text cs := by
  obtain ⟨st, hst, rfl⟩ := map_eq_ok.1 h
  obtain ⟨q, hq, hst⟩ := bind_eq_ok.1 hst
  obtain ⟨herror, rfl⟩ := Draft.get_eq_ok.1 hq
  obtain ⟨⟨columns, rows⟩, hresolve, hst⟩ := bind_eq_ok.1 hst
  obtain rfl := pure_eq_ok.1 hst
  refine ⟨_, ⟨map_eq_ok.2 ⟨_, hresolve, rfl⟩, ?_, InsertDraft.validate_ofCalls herror, ?_⟩⟩
  · rw [Insert.template_eq_map]
    rfl
  · rw [Insert.columns_chunks, (Insert.hasRow_of_resolve hresolve).1]
    exact mem_names_insert herror

/-- An INSERT that compiles with named markers is written from chunks. -/
theorem written_insertNamed {mode : InsertMode} {table : String} {calls : List Insert.Call}
    (h : (insertNamed mode table calls).text = .ok text) :
    ∃ cs, (insertNamed mode table calls).Written text cs := by
  obtain ⟨st, hst, rfl⟩ := map_eq_ok.1 h
  obtain ⟨q, hq, hst⟩ := bind_eq_ok.1 hst
  obtain ⟨herror, rfl⟩ := Draft.get_eq_ok.1 hq
  obtain ⟨items, -, hst⟩ := bind_eq_ok.1 hst
  obtain ⟨columns, hcolumns, hst⟩ := bind_eq_ok.1 hst
  obtain ⟨hvalid, hst⟩ := bind_unit_eq_ok.1 hst
  have hfound := Insert.namedColumns_eq hcolumns
  refine ⟨_, ⟨map_eq_ok.2 ⟨columns, hcolumns, rfl⟩, ?_, ?_, ?_⟩⟩
  · simp only at hst
    split at hst
    · obtain rfl := pure_eq_ok.1 hst
      rw [Insert.namedTemplate_eq_map]
      rfl
    · exact absurd hst (by simp [throw, throwThe, MonadExceptOf.throw])
  · refine List.forall_mem_append.2 ⟨InsertDraft.validate_ofCalls herror, fun i hi => ?_⟩
    refine Insert.validate_of_validateNames hvalid i ?_
    rw [hfound]
    exact Insert.mem_rowColumns.2 (.inr hi)
  · rw [Insert.columns_namedChunks, hfound]
    intro i hi
    exact .inl (List.mem_append.2 (mem_names_insert herror i hi))

/-- **Checked names are accepted, and the others come from known places.**  A finished
statement is written with the pieces of the statement that its calls have built.  Every
identifier in them is one that was checked on the way, and these have neither an empty part
nor a NUL character, or it is a column of a predicate or an inferred column, which is not
checked.  So where those are accepted, every identifier of the text is; with named markers
none of them is left unchecked. -/
theorem names_accepted {c : Compilation} (h : c.text = .ok text) :
    ∃ cs, c.chunks = .ok cs ∧ text = (Chunk.write c.dialect cs).sql ∧
      (∀ i ∈ c.checked, i.validate = .ok () ∧
        ∀ part ∈ i.parts, part ≠ "" ∧ '\x00' ∉ part.toList) ∧
      ∀ i ∈ Chunk.columns cs, i ∈ c.checked ∨ i ∈ c.unchecked := by
  have hwritten : ∃ cs, c.Written text cs := by
    cases c with
    | select => exact written_select h
    | selectFor => exact written_selectFor h
    | insert => exact written_insert h
    | insertNamed => exact written_insertNamed h
  obtain ⟨cs, hcs, htext, haccepted, hnames⟩ := hwritten
  exact ⟨cs, hcs, htext,
    fun i hi => ⟨haccepted i hi, Identifier.validate_eq_ok.1 (haccepted i hi)⟩, hnames⟩

/-- The hypothesis of `names_accepted` is satisfiable: checked and unchecked names in the
clauses of a SELECT. -/
theorem names_accepted_joined :
    let c : Compilation := .select "db.t"
      [.alias "u", .columns [.ofText "a.b"], .restrict (.equalities (.ofList [("d", .int 2)])),
        .orderBy (.columns [⟨.ofText "e", none⟩])]
    let text := "SELECT \x60a\x60.\x60b\x60 FROM \x60db\x60.\x60t\x60 AS \x60u\x60 " ++
      "WHERE \x60d\x60 = ? ORDER BY \x60e\x60"
    c.text = .ok text ∧ c.checked = ["db.t", "u", "a.b", "e"].map .ofText ∧
      (∀ i ∈ c.checked, i.validate = .ok ()) ∧ c.unchecked = [.ofText "d"] := by
  intro c text
  have htext : c.text = .ok text := rfl
  obtain ⟨-, -, -, haccepted, -⟩ := names_accepted htext
  exact ⟨htext, rfl, fun i hi => (haccepted i hi).1, rfl⟩

/-- **An empty name may be written:** as a column that is inferred from a map, and as a key of
equalities. -/
theorem names_accepted_empty :
    (Identifier.single "").validate = .error (.validation "Identifier cannot be empty") ∧
      (Compilation.insert .insert "t" [.maps [.ofList [("", .int 1)]]]).text =
        .ok "INSERT INTO \x60t\x60 (\x60\x60) VALUES (?)" ∧
      (∃ cs, (Compilation.insert .insert "t" [.maps [.ofList [("", .int 1)]]]).chunks = .ok cs ∧
        .single "" ∈ Chunk.columns cs) ∧
      (Compilation.select "t" [.restrict (.equalities (.ofList [("", .int 1)]))]).text =
        .ok "SELECT * FROM \x60t\x60 WHERE \x60\x60 = ?" ∧
      (∃ cs, (Compilation.select "t"
          [.restrict (.equalities (.ofList [("", .int 1)]))]).chunks = .ok cs ∧
        .single "" ∈ Chunk.columns cs) := by
  exact ⟨rfl, rfl, ⟨_, rfl, by decide⟩, rfl, ⟨_, rfl, by decide⟩⟩

end Compilation

end BoundSql
