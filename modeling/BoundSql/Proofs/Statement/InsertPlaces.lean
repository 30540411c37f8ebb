import BoundSql.Proofs.Statement.InsertCalls
import BoundSql.Proofs.Statement.InsertRows
import BoundSql.Proofs.Template.NamedMarkers

/-!
# Places of an INSERT

A finished INSERT has a place for every column of every row and for every value that is
assigned in ON DUPLICATE KEY UPDATE.  The places are numbered through the statement, so of
`n` columns the place of column `j` in row `i` is the parameter `i * n + j`, and what stands
there is what the row brings for this column (`InsertDraft.build_places`).
-/

namespace BoundSql

/-! ## Numbered texts -/

namespace Template

variable (p : Placeholder)

/-- The texts of templates one after another, their placeholders numbered from an index. -/
def sqls : Nat → List Template → List String
  | _, [] => []
  | index, t :: rest => sqlFrom p index t :: sqls (index + t.params.length) rest

/-- Joined templates are written one by one, each with its placeholders numbered on. -/
theorem sqlFrom_join (separator : String) (index : Nat) (ts : List Template) :
    sqlFrom p index (join separator ts) = separator.intercalate (sqls p index ts) := by
  induction ts generalizing index with
  | nil => rfl
  | cons t rest ih =>
      cases rest with
      | nil => rw [join, sqls, sqls, String.intercalate_singleton]
      | cons next more =>
          rw [join, sqlFrom_append, sqlFrom, ih, sqls, sqls, sqls, String.intercalate_cons_cons,
            String.append_assoc]
          exact List.cons_ne_nil _ _

/-- Texts are written as they are, for they bind nothing. -/
theorem sqls_texts {α : Type} (f : α → String) (as : List α) (index : Nat) :
    sqls p index (as.map fun a => [.text (f a)]) = as.map f := by
  induction as generalizing index with
  | nil => rfl
  | cons a as ih =>
      rw [List.map_cons, sqls, ih, sqlFrom, sqlFrom, String.append_empty, List.map_cons]

end Template

namespace Insert

variable (p : Placeholder)

/-- Places in parentheses, numbered from an index. -/
def placesText (index width : Nat) : String :=
  "(" ++ ", ".intercalate ((List.range width).map fun j => p.render (index + j)) ++ ")"

/-- Bound values are written as consecutive placeholders. -/
theorem sqls_binds (index : Nat) (row : List Value) :
    Template.sqls p index (row.map fun v => [.bind v]) =
      (List.range row.length).map fun j => p.render (index + j) := by
  induction row generalizing index with
  | nil => rfl
  | cons v row ih =>
      rw [List.map_cons, Template.sqls, ih, List.length_cons, List.range_succ_eq_map,
        List.map_cons, List.map_map]
      refine congrArg₂ List.cons ?_ (List.map_congr_left fun j _ => ?_)
      · rw [Template.sqlFrom, Template.sqlFrom, String.append_empty, Nat.add_zero]
      · exact congrArg p.render (Nat.add_right_comm index 1 j)

/-- A row is written as its places in parentheses. -/
theorem sqlFrom_rowTemplate (index : Nat) (row : List Value) :
    Template.sqlFrom p index (rowTemplate row) = placesText p index row.length := by
  rw [rowTemplate, List.cons_append, Template.sqlFrom, Template.sqlFrom_append,
    Template.sqlFrom_join, sqls_binds, Template.sqlFrom, Template.sqlFrom, String.append_empty,
    placesText, String.append_assoc]

/-- A row binds its values. -/
theorem params_rowTemplate (row : List Value) : (rowTemplate row).params = row := by
  rw [rowTemplate, List.cons_append, Template.params, Template.params_append,
    Template.params_join, List.flatMap_map]
  exact (List.append_nil _).trans (List.flatMap_singleton' row)

/-- Rows of one width are places in parentheses, numbered on from row to row. -/
theorem sqls_rows {width : Nat} {rows : List (List Value)}
    (h : ∀ row ∈ rows, row.length = width) (index : Nat) :
    Template.sqls p index (rows.map rowTemplate) =
      (List.range rows.length).map fun i => placesText p (index + i * width) width := by
  induction rows generalizing index with
  | nil => rfl
  | cons row rows ih =>
      obtain ⟨hrow, hrows⟩ := List.forall_mem_cons.1 h
      rw [List.map_cons, Template.sqls, sqlFrom_rowTemplate, params_rowTemplate, hrow, ih hrows,
        List.length_cons, List.range_succ_eq_map, List.map_cons, List.map_map, Nat.zero_mul,
        Nat.add_zero]
      refine congrArg _ (List.map_congr_left fun i _ => ?_)
      rw [Function.comp_apply, Nat.succ_mul, Nat.add_assoc, Nat.add_comm width]

/-- Rows bind their values row by row. -/
theorem params_rows (rows : List (List Value)) :
    (Template.join ", " (rows.map rowTemplate)).params = rows.flatten := by
  rw [Template.params_join, List.flatMap_map, ← List.flatMap_id]
  exact congrArg (rows.flatMap ·) (funext params_rowTemplate)

/-- Rows of one width have the value of column `j` of row `i` at `i * width + j`. -/
theorem getElem?_flatten {width : Nat} {rows : List (List Value)}
    (h : ∀ row ∈ rows, row.length = width) {i j : Nat} {row : List Value}
    (hrow : rows[i]? = some row) (hj : j < width) :
    rows.flatten[i * width + j]? = row[j]? := by
  induction rows generalizing i with
  | nil => exact absurd hrow (by simp)
  | cons first rows ih =>
      obtain ⟨hfirst, hrows⟩ := List.forall_mem_cons.1 h
      rw [List.flatten_cons]
      cases i with
      | zero =>
          obtain rfl := Option.some.inj hrow
          rw [Nat.zero_mul, Nat.zero_add, List.getElem?_append_left (by omega)]
      | succ i =>
          have hbehind : (i + 1) * width + j = first.length + (i * width + j) := by
            rw [hfirst, Nat.succ_mul]
            omega
          rw [hbehind, List.getElem?_append_right (Nat.le_add_right _ _), Nat.add_sub_cancel_left]
          exact ih hrows hrow

/-- Rows of one width have that many values each. -/
theorem length_flatten {width : Nat} {rows : List (List Value)}
    (h : ∀ row ∈ rows, row.length = width) : rows.flatten.length = rows.length * width := by
  induction rows with
  | nil => exact (Nat.zero_mul width).symm
  | cons row rows ih =>
      obtain ⟨hrow, hrows⟩ := List.forall_mem_cons.1 h
      rw [List.flatten_cons, List.length_append, ih hrows, hrow, List.length_cons, Nat.succ_mul,
        Nat.add_comm]

end Insert

/-! ## Rows of entries -/

/-- What is at a place on one side is related to what is there on the other. -/
theorem exists_of_forall₂ {α β : Type} {R : α → β → Prop} {as : List α} {bs : List β}
    (h : List.Forall₂ R as bs) {j : Nat} {a : α} (ha : as[j]? = some a) :
    ∃ b, bs[j]? = some b ∧ R a b := by
  induction h generalizing j with
  | nil => exact absurd ha (by simp)
  | @cons first b _ _ hb _ ih =>
      cases j with
      | zero => exact ⟨b, rfl, Option.some.inj ha ▸ hb⟩
      | succ j => exact ih ha

namespace Entry

/-- The columns that an entry has by itself: those of a map in key order, those of a record
in the order of its fields. -/
def columns (tag : String) : Entry → List Identifier
  | .values _ => []
  | .map m => m.keys.map .single
  | .record r => ((r.fields tag).getD []).map fun field => .single field.1

/-- What an entry brings for the column at a place: by the place if it is values, else by
the name. -/
def cell? (tag : String) (j : Nat) (column : Identifier) : Entry → Option Value
  | .values row => row[j]?
  | .map m => m.get? column.name
  | .record r => (r.fields tag).bind (·.lookup column.name)

/-- An entry brings a value for every column, each of them once, and for nothing else. -/
def Fits (tag : String) (columns : List Identifier) : Entry → Prop
  | .values row => row.length = columns.length
  | .map m => m.keys.Perm (columns.map Identifier.name)
  | .record r => ∃ fields, r.fields tag = some fields ∧
      (fields.map Prod.fst).Perm (columns.map Identifier.name)

/-- The row of an entry has what the entry brings for the columns. -/
structure HasRow (tag : String) (columns : List Identifier) (entry : Entry)
    (row : List Value) : Prop where
  fits : entry.Fits tag columns
  length : row.length = columns.length
  cell : ∀ {j column}, columns[j]? = some column → row[j]? = entry.cell? tag j column

variable {tag : String} {columns : List Identifier} {row : List Value}

/-- A row that is as wide as the columns is its own row. -/
theorem hasRow_values (h : row.length = columns.length) : (values row).HasRow tag columns row :=
  ⟨h, h, fun _ => rfl⟩

/-- The row of a map, for an entry that brings the same values. -/
theorem hasRow_of_rowOfMap {entry : Entry} {m : ValueMap} (hfits : entry.Fits tag columns)
    (hcell : ∀ j column, entry.cell? tag j column = m.get? column.name)
    (h : Insert.rowOfMap 0 (columns.map Identifier.name) m = .ok row) :
    entry.HasRow tag columns row := by
  have hvalues := List.forall₂_map_left_iff.1 (Insert.get?_of_rowOfMap h)
  refine ⟨hfits, hvalues.length_eq.symm, fun {j column} hcolumn => ?_⟩
  obtain ⟨v, hv, hget⟩ := exists_of_forall₂ hvalues hcolumn
  rw [hv, hcell, hget]

/-- The row of a map has at each column the value under its name. -/
theorem hasRow_map {m : ValueMap}
    (h : Insert.rowOfMap 0 (columns.map Identifier.name) m = .ok row) :
    (map m).HasRow tag columns row :=
  hasRow_of_rowOfMap (Insert.keys_perm_of_rowOfMap h) (fun _ _ => rfl) h

/-- The row of a record is that of its map. -/
theorem hasRow_record {r : Record} {m : ValueMap} (hm : Insert.mapOfRecord tag 0 r = .ok m)
    (h : Insert.rowOfMap 0 (columns.map Identifier.name) m = .ok row) :
    (record r).HasRow tag columns row := by
  obtain ⟨fields, hfields, rfl, hsize⟩ := Insert.mapOfRecord_eq_ok.1 hm
  obtain ⟨-, hfields⟩ := Record.fieldsAt_eq_ok.1 hfields
  refine hasRow_of_rowOfMap ⟨fields, hfields, ?_⟩ (fun j column => ?_) h
  · exact (KeyMap.keys_ofList_perm hsize).symm.trans (Insert.keys_perm_of_rowOfMap h)
  · rw [KeyMap.get?_ofList_of_size hsize, cell?, hfields, Option.bind_some]

/-- The rows of records are those of their maps, one by one. -/
theorem hasRow_records {records : List Record} {maps : List ValueMap} {rows : List (List Value)}
    (hmaps : List.Forall₂ (fun r m => ∀ place, Insert.mapOfRecord tag place r = .ok m)
      records maps)
    (hrows : List.Forall₂ (fun m row => ∀ place,
      Insert.rowOfMap place (columns.map Identifier.name) m = .ok row) maps rows) :
    List.Forall₂ (fun r row => (record r).HasRow tag columns row) records rows := by
  induction hmaps generalizing rows with
  | nil =>
      cases hrows
      exact .nil
  | cons hm _ ih =>
      cases hrows with
      | cons hrow hmore => exact .cons (hasRow_record (hm 0) (hrow 0)) (ih hmore)

section

variable {entries : List Entry} {rows : List (List Value)}
  (h : List.Forall₂ (HasRow tag columns) entries rows)

include h

/-- An entry that has a row fits the columns. -/
theorem fits_of_hasRow : ∀ entry ∈ entries, entry.Fits tag columns := by
  intro entry hentry
  obtain ⟨i, hi⟩ := List.mem_iff_getElem?.1 hentry
  obtain ⟨row, -, hrow⟩ := exists_of_forall₂ h hi
  exact hrow.fits

/-- The rows of entries are as wide as the columns. -/
theorem length_of_hasRow : ∀ row ∈ rows, row.length = columns.length := by
  intro row hrow
  obtain ⟨i, hi⟩ := List.mem_iff_getElem?.1 hrow
  obtain ⟨entry, -, hentry⟩ := exists_of_forall₂ h.flip hi
  exact hentry.length

/-- **What an entry brings for a column is at the place of the two.** -/
theorem exists_cell {i j : Nat} {entry : Entry} {column : Identifier}
    (hi : entries[i]? = some entry) (hj : columns[j]? = some column) :
    ∃ v, entry.cell? tag j column = some v ∧ rows.flatten[i * columns.length + j]? = some v := by
  obtain ⟨row, hrow, hentry⟩ := exists_of_forall₂ h hi
  have hwidth : j < columns.length := (List.getElem?_eq_some_iff.1 hj).1
  obtain ⟨v, hv⟩ : ∃ v, row[j]? = some v :=
    ⟨_, List.getElem?_eq_getElem (Nat.lt_of_lt_of_eq hwidth hentry.length.symm)⟩
  exact ⟨v, (hentry.cell hj).symm.trans hv,
    (Insert.getElem?_flatten (length_of_hasRow h) hrow hwidth).trans hv⟩

end

end Entry

namespace Insert

variable {q : Insert} {columns : List Identifier} {rows : List (List Value)}

/-- Rows that pass the check are of the width that it asks for. -/
theorem length_of_checkWidths {width index : Nat} (h : checkWidths width index rows = .ok ()) :
    ∀ row ∈ rows, row.length = width := by
  induction rows generalizing index with
  | nil => exact fun row hrow => absurd hrow List.not_mem_nil
  | cons row rows ih =>
      rw [checkWidths] at h
      split at h
      · rename_i hrow
        exact List.forall_mem_cons.2 ⟨hrow, ih h⟩
      · exact absurd h (by simp)

/-- The columns of the rows: those that are given, or else those of the first entry. -/
def rowColumns (q : Insert) : List Identifier :=
  q.columnsOr ((q.source.entries.head?.map (Entry.columns q.settings.tag)).getD [])

/-- The columns that are inferred from records are those of the first. -/
theorem columnsOfRecords_eq {tag : String} {records : List Record} {columns : List Identifier}
    (h : columnsOfRecords tag records = .ok columns) :
    columns = ((records.head?.map fun r => Entry.columns tag (.record r))).getD [] := by
  cases records with
  | nil => exact (Except.ok.inj h).symm
  | cons r more =>
      obtain ⟨fields, hfields, rfl⟩ := map_eq_ok.1 h
      obtain ⟨-, hfields⟩ := Record.fieldsAt_eq_ok.1 hfields
      simp [Entry.columns, hfields]

/-- **Every entry has its row,** under the columns that are given or else those of the
first entry. -/
theorem hasRow_of_resolve (h : q.resolve = .ok (columns, rows)) :
    columns = q.columnsOr ((q.source.entries.head?.map (Entry.columns q.settings.tag)).getD []) ∧
      List.Forall₂ (Entry.HasRow q.settings.tag columns) q.source.entries rows := by
  rw [resolve] at h
  split at h
  · exact absurd h (by simp)
  · rename_i given hsource
    rw [hsource, columnsOr]
    obtain ⟨hgiven, h⟩ := guard_eq_ok.1 h
    obtain ⟨hwidths, h⟩ := bind_unit_eq_ok.1 h
    obtain ⟨rfl, rfl⟩ := Prod.mk.inj (pure_eq_ok.1 h)
    refine ⟨(if_neg hgiven).symm, List.forall₂_map_left_iff.2 (List.forall₂_same.2 ?_)⟩
    exact fun row hrow => Entry.hasRow_values (length_of_checkWidths hwidths row hrow)
  · rename_i maps hsource
    rw [hsource]
    obtain ⟨-, rfl, hrows⟩ := keyedRows_eq_ok.1 h
    refine ⟨?_, List.forall₂_map_left_iff.2 ?_⟩
    · cases maps <;> rfl
    · exact (rowOfMap_of_rowsOfMaps hrows).imp fun m row hrow => Entry.hasRow_map (hrow 0)
  · rename_i records hsource
    rw [hsource]
    obtain ⟨maps, hmaps, h⟩ := bind_eq_ok.1 h
    obtain ⟨inferred, hinferred, h⟩ := bind_eq_ok.1 h
    obtain ⟨-, rfl, hrows⟩ := keyedRows_eq_ok.1 h
    refine ⟨?_, List.forall₂_map_left_iff.2 ?_⟩
    · rw [columnsOfRecords_eq hinferred]
      cases records <;> rfl
    · exact Entry.hasRow_records (mapOfRecord_of_mapsOfRecords hmaps)
        (rowOfMap_of_rowsOfMaps hrows)

/-! ## The finished statement -/

/-- The head of a statement with its columns. -/
def headText (q : Insert) (columns : List Identifier) : String :=
  let quote := q.settings.dialect.quote
  q.mode.toSql ++ ((q.priority?.map fun p => " " ++ p.toSql).getD "") ++
    (if q.ignore then " IGNORE" else "") ++ " INTO " ++ q.table.toSql quote ++ " (" ++
      ", ".intercalate (columns.map (·.toSql quote)) ++ ") VALUES "

/-- Assignments, those of values with places that are numbered from an index. -/
def assignmentTexts (quote : Char) (p : Placeholder) : Nat → List Assignment → List String
  | _, [] => []
  | index, ⟨column, .value _⟩ :: rest =>
    (column.toSql quote ++ " = " ++ p.render index) :: assignmentTexts quote p (index + 1) rest
  | index, ⟨column, .raw sql⟩ :: rest =>
    (column.toSql quote ++ " = " ++ sql) :: assignmentTexts quote p index rest

/-- ON DUPLICATE KEY UPDATE, if there are assignments. -/
def updateText (quote : Char) (p : Placeholder) (index : Nat) (assignments : List Assignment) :
    String :=
  if assignments.isEmpty then ""
  else " ON DUPLICATE KEY UPDATE " ++ ", ".intercalate (assignmentTexts quote p index assignments)

/-- The values that are assigned. -/
def assignedValues : List Assignment → List Value
  | [] => []
  | ⟨_, .value v⟩ :: rest => v :: assignedValues rest
  | ⟨_, .raw _⟩ :: rest => assignedValues rest

section

variable (p : Placeholder)

/-- A list of columns binds nothing. -/
theorem params_columnList (quote : Char) (columns : List Identifier) :
    (Insert.columnList quote columns).params = [] := by
  rw [Insert.columnList, Template.params_join, List.flatMap_map, List.flatMap_eq_nil_iff]
  exact fun _ _ => rfl

/-- A list of columns is written as quoted identifiers with commas between them. -/
theorem sqlFrom_columnList (quote : Char) (columns : List Identifier) (index : Nat) :
    Template.sqlFrom p index (Insert.columnList quote columns) =
      ", ".intercalate (columns.map (·.toSql quote)) := by
  rw [Insert.columnList, Template.sqlFrom_join, Template.sqls_texts]

/-- What stands in front of the rows binds nothing. -/
theorem params_head (q : Insert) (columns : List Identifier) : (q.head columns).params = [] := by
  rw [head]
  cases q.priority? <;> cases q.ignore <;>
    simp [Template.params_append, params_columnList, Template.params]

/-- What stands in front of the rows is written without placeholders. -/
theorem sqlFrom_head (q : Insert) (columns : List Identifier) :
    Template.sqlFrom p 0 (q.head columns) = q.headText columns := by
  rw [head, headText]
  cases q.priority? <;> cases q.ignore <;>
    simp [Template.sqlFrom_append, sqlFrom_columnList, Template.sqlFrom, String.append_assoc,
      -String.reduceAppend]

/-- Assignments are written one by one, with a placeholder for each value among them. -/
theorem sqls_assignments (quote : Char) (index : Nat) (assignments : List Assignment) :
    Template.sqls p index (assignments.map (assignmentTemplate quote)) =
      assignmentTexts quote p index assignments := by
  induction assignments generalizing index with
  | nil => rfl
  | cons a assignments ih =>
      obtain ⟨column, v | sql⟩ := a <;>
        simp [Template.sqls, ih, assignmentTexts, assignmentTemplate, Template.sqlFrom,
          Template.params, String.append_assoc]

/-- Assignments bind the values that are assigned, and raw SQL binds nothing. -/
theorem params_assignments (quote : Char) (assignments : List Assignment) :
    (assignments.map (assignmentTemplate quote)).flatMap Template.params =
      assignedValues assignments := by
  induction assignments with
  | nil => rfl
  | cons a assignments ih =>
      rw [List.map_cons, List.flatMap_cons, ih]
      obtain ⟨column, v | sql⟩ := a <;> rfl

/-- The assignments are written behind their keywords, and not at all if there are none. -/
theorem sqlFrom_updateTemplate (q : Insert) (index : Nat) :
    Template.sqlFrom p index q.updateTemplate =
      updateText q.settings.dialect.quote p index q.assignments := by
  rw [updateTemplate, updateText]
  split
  · rfl
  · rw [Template.sqlFrom, Template.sqlFrom_join, sqls_assignments]

/-- What stands behind the rows binds the values that are assigned. -/
theorem params_updateTemplate_eq (q : Insert) :
    q.updateTemplate.params = assignedValues q.assignments := by
  rw [updateTemplate]
  split
  · rename_i hnone
    rw [List.isEmpty_iff.1 hnone]
    rfl
  · rw [Template.params, Template.params_join, params_assignments]

/-- A statement binds its rows one after another, and then the values that are assigned. -/
theorem params_template (q : Insert) (columns : List Identifier) (rows : List (List Value)) :
    (q.template columns rows).params = rows.flatten ++ assignedValues q.assignments := by
  rw [template, Template.params_append, Template.params_append, params_head, params_rows,
    params_updateTemplate_eq, List.nil_append]

/-- The text of a statement with rows of one width. -/
theorem sqlFrom_template (q : Insert) (columns : List Identifier) {rows : List (List Value)}
    {width : Nat} (h : ∀ row ∈ rows, row.length = width) :
    Template.sqlFrom p 0 (q.template columns rows) =
      q.headText columns ++
        ", ".intercalate ((List.range rows.length).map fun i => placesText p (i * width) width) ++
          updateText q.settings.dialect.quote p (rows.length * width) q.assignments := by
  simp only [template, Template.sqlFrom_append, Template.params_append, params_head, sqlFrom_head,
    Template.sqlFrom_join, sqls_rows p h, params_rows, length_flatten h, sqlFrom_updateTemplate,
    List.nil_append, List.length_nil, Nat.zero_add]

end

/-- The columns of a statement of calls: those given last, or else those of the first entry. -/
def columnsOfCalls (tag : String) (calls : List Call) : List Identifier :=
  let given := (calls.filterMap Call.columns?).getLastD []
  if given.isEmpty then
    ((calls.flatMap Call.entries).head?.map (Entry.columns tag)).getD []
  else given

end Insert

namespace InsertDraft

open BoundSql.Insert

/-- **An INSERT loses, repeats and moves nothing.**  Of `n` columns and `k` entries, in the
order of the calls that brought them, a finished statement has the head with the columns, `k`
groups of `n` places, and the assignments with a place for each value.  An entry has the
columns and nothing else; what the entry `i` brings for the column `j` is the parameter
`i * n + j`, and the values that are assigned follow behind. -/
theorem build_places {mode : InsertMode} {table : String} {calls : List Call} {st : Statement}
    (h : build (ofCalls mode table calls) = .ok st) :
    let q := (ofCalls mode table calls).state
    let tag := q.settings.tag
    let p := q.settings.dialect.placeholder
    let entries := calls.flatMap Call.entries
    let assignments := calls.flatMap Call.assignments
    let columns := columnsOfCalls tag calls
    let n := columns.length
    let k := entries.length
    st.sql = q.headText columns ++
        ", ".intercalate ((List.range k).map fun i => placesText p (i * n) n) ++
          updateText q.settings.dialect.quote p (k * n) assignments ∧
      st.params.length = k * n + (assignedValues assignments).length ∧
      (∀ entry ∈ entries, entry.Fits tag columns) ∧
      (∀ i j entry column, entries[i]? = some entry → columns[j]? = some column →
        ∃ v, entry.cell? tag j column = some v ∧ st.params[i * n + j]? = some v) ∧
      st.params.drop (k * n) = assignedValues assignments := by
  intro q tag p entries assignments columns n k
  obtain ⟨found, hfound, hst⟩ := bind_eq_ok.1 h
  obtain ⟨herror, rfl⟩ := Draft.get_eq_ok.1 hfound
  obtain ⟨hentries, hgiven, hassignments⟩ := gathers_ofCalls herror
  obtain ⟨⟨resolved, rows⟩, hresolved, hst⟩ := bind_eq_ok.1 hst
  obtain rfl := pure_eq_ok.1 hst
  obtain ⟨hcolumns, hrows⟩ := hasRow_of_resolve hresolved
  rw [hentries] at hcolumns hrows
  rw [columnsOr, hgiven] at hcolumns
  obtain rfl : resolved = columns := hcolumns
  have hlength : rows.length = k := hrows.length_eq.symm
  have hwidths : ∀ row ∈ rows, row.length = n := Entry.length_of_hasRow hrows
  have hparams : Template.params (q.template columns rows) =
      rows.flatten ++ assignedValues assignments := by
    rw [params_template, hassignments]
  have hflatten : rows.flatten.length = k * n := by
    rw [length_flatten hwidths, hlength]
  refine ⟨?_, ?_, Entry.fits_of_hasRow hrows, fun i j entry column hi hj => ?_, ?_⟩
  · show Template.sqlFrom p 0 (q.template columns rows) = _
    rw [sqlFrom_template p q columns hwidths, hlength, hassignments]
  · show (Template.params (q.template columns rows)).length = _
    rw [hparams, List.length_append, hflatten]
  · obtain ⟨v, hv, hplace⟩ := Entry.exists_cell hrows hi hj
    refine ⟨v, hv, ?_⟩
    show (Template.params (q.template columns rows))[i * n + j]? = _
    rw [hparams, List.getElem?_append_left (List.getElem?_eq_some_iff.1 hplace).1, hplace]
  · show (Template.params (q.template columns rows)).drop (k * n) = _
    rw [hparams, ← hflatten, List.drop_left]

/-- Two maps in two calls, and two assignments between and behind them. -/
theorem build_places_maps :
    let calls : List Call := [
      .maps [.ofList [("b", .int 2), ("a", .int 1)]],
      .update (.single "a") (.value (.text "x")),
      .dialect .postgres,
      .maps [.ofList [("a", .int 3), ("b", .null)]],
      .update (.single "b") (.raw "b + 1")]
    ∃ st, build (ofCalls .insert "t" calls) = .ok st ∧
      st.sql = "INSERT INTO \"t\" (\"a\", \"b\") VALUES ($1, $2), ($3, $4)" ++
        " ON DUPLICATE KEY UPDATE \"a\" = $5, \"b\" = b + 1" ∧
      st.params.length = 5 ∧ st.params[1 * 2 + 0]? = some (.int 3) ∧
        st.params.drop 4 = [.text "x"] := by
  intro calls
  have h : build (ofCalls .insert "t" calls) = .ok _ := rfl
  obtain ⟨hsql, hlength, -, hcell, hdrop⟩ := build_places h
  obtain ⟨v, hv, hplace⟩ := hcell 1 0 _ _ rfl rfl
  obtain rfl : Value.int 3 = v := Option.some.inj hv
  exact ⟨_, h, hsql.trans (by decide +kernel), hlength, hplace, hdrop⟩

end InsertDraft

end BoundSql
