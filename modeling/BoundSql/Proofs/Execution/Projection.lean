import BoundSql.Execution.Script
import BoundSql.Proofs.Record.Reading
import BoundSql.Proofs.Statement.Clauses

/-!
# Projections that are inferred

A SELECT for which no columns were set projects the columns that the record type has under the
tag of the statement, whereas a record is always read by its columns under the standard tag.
So no row that was asked for lacks a column if the second are among the first, and otherwise
none of the rows can be read (`SelectDraft.inferred_projection`).
-/

namespace BoundSql

/-- Something failed for want of a column, which its message says; no fault of decoding is
worded alike (`Row.message_ne_lacking`). -/
def LacksColumn {α : Type} (x : Except SqlError α) : Prop :=
  ∃ column, x = .error (.decode column Row.lacking)

namespace Select

/-- Where all is projected, the columns of the record type are. -/
theorem statementFor_of_all {α : Type} {q : Select} {t : RecordType α} {columns : List String}
    (hall : q.projection = .all) (hcolumns : t.columnsAt q.settings.tag = .ok columns) :
    q.statementFor t = .ok (q.statement (.columns (columns.map Identifier.single))) := by
  rw [statementFor_eq_map, projectionFor, hall]
  exact map_eq_ok.2 ⟨_, map_eq_ok.2 ⟨columns, hcolumns, rfl⟩, rfl⟩

/-- A statement starts with its opening. -/
theorem exists_sql_statement (q : Select) (projection : Projection) :
    ∃ rest, (q.statement projection).sql = q.openingText projection ++ rest := by
  have hopening := sqlFrom_opening q.settings.dialect.placeholder q projection
  rw [statement, layout, Layout.write, Layout.resolve, Chunk.write, Template.emit, List.map_append,
    Template.sqlFrom_append, Layout.resolve]
  exact ⟨_, congrArg (· ++ _) hopening⟩

end Select

/-- A record type that has columns under a tag lists them. -/
theorem RecordType.columnsAt_ofFields {name : String} {fs : List Field} {tag : String}
    {columns : List String} (h : (ofFields name fs).columns tag = some columns) :
    (ofFields name fs).columnsAt tag = .ok columns := by
  obtain ⟨-, hne, -⟩ := FieldMapping.columns?_eq_some.1 h
  obtain ⟨column, rest, rfl⟩ := List.exists_cons_of_ne_nil hne
  rw [columnsAt, h]

/-! ## Fetching -/

/-- The executor answers a statement, which is logged for its purpose, with rows. -/
def Executor.Answers {σ : Type} (x : Executor σ) (purpose : Purpose) (st : Statement)
    (s : Session σ) (rows : List Row) : Prop :=
  (x.query st (Run.log (.compiled purpose st.sql st.params.length) s).2).1 = .ok rows

namespace Executor

variable {σ α : Type} {x : Executor σ} {st : Statement} {s : Session σ} {rows : List Row}

/-- What is fetched of a single row is read from it, if the query gave no other. -/
theorem get_of_query (h : (x.query st s).1 = .ok rows) (fromRow : Row → Except SqlError α) :
    (x.get st fromRow s).1 = onlyRow rows >>= fromRow := by
  have hquery : x.query st s = (.ok rows, (x.query st s).2) := Prod.ext h rfl
  show (Run.bind (x.query st) _ s).1 = _
  rw [Run.bind, hquery]
  show (Run.bind (Run.ofExcept (onlyRow rows)) _ _).1 = _
  cases onlyRow rows with
  | error e => rfl
  | ok row =>
      show (Run.ofExcept (fromRow row) _).1 = fromRow row
      cases fromRow row <;> rfl

/-- What is fetched of many rows is read from each of them. -/
theorem select_of_query (h : (x.query st s).1 = .ok rows) (fromRow : Row → Except SqlError α) :
    (x.select st fromRow s).1 = rows.mapM fromRow := by
  have hquery : x.query st s = (.ok rows, (x.query st s).2) := Prod.ext h rfl
  show (Run.bind (x.query st) _ s).1 = _
  rw [Run.bind, hquery]
  show (Run.ofExcept (rows.mapM fromRow) _).1 = _
  cases rows.mapM fromRow <;> rfl

/-- There is an only row if it is all the rows. -/
theorem onlyRow_eq_ok {row : Row} : onlyRow rows = .ok row ↔ rows = [row] := by
  rcases rows with _ | ⟨first, _ | ⟨second, rest⟩⟩
  · simp [onlyRow]
  · simp [onlyRow]
  · simp [onlyRow]

/-- Whether there is just one row does not depend on its columns. -/
theorem not_lacksColumn_onlyRow : ¬LacksColumn (onlyRow rows) := by
  rintro ⟨column, h⟩
  rcases rows with _ | ⟨first, _ | ⟨second, rest⟩⟩
  · simp [onlyRow] at h
  · simp [onlyRow] at h
  · simp [onlyRow] at h

end Executor

namespace SelectDraft

open BoundSql.Select

variable {σ α : Type} {d : Draft Select} {t : RecordType α} {x : Executor σ} {st : Statement}
  {s : Session σ} {rows : List Row}

/-- The statement for an executor has its style of placeholders. -/
theorem buildFor_forExecutor {q : Select} (hq : d.get = .ok q) (x : Executor σ)
    (t : RecordType α) : buildFor (forExecutor d x) t =
      Select.statementFor { q with settings := q.settings.withPlaceholder x.placeholder } t := by
  obtain ⟨herror, rfl⟩ := Draft.get_eq_ok.1 hq
  have hexecutor : forExecutor d x =
      ⟨{ d.state with settings := d.state.settings.withPlaceholder x.placeholder }, none⟩ :=
    Draft.step_eq_of_ok herror rfl
  rw [hexecutor]
  rfl

/-- A record is read from the only row that was answered. -/
theorem fetchOne_of_answers (hst : buildFor (forExecutor d x) t = .ok st)
    (h : x.Answers .selectOne st s rows) :
    (fetchOne d t x s).1 = Executor.onlyRow rows >>= t.fromRow := by
  rw [fetchOne, hst]
  exact Executor.get_of_query h t.fromRow

/-- Records are read from all rows that were answered. -/
theorem fetchAll_of_answers (hst : buildFor (forExecutor d x) t = .ok st)
    (h : x.Answers .selectAll st s rows) : (fetchAll d t x s).1 = rows.mapM t.fromRow := by
  rw [fetchAll, hst]
  exact Executor.select_of_query h t.fromRow

/-- Rows of just these columns never fail to be read for want of a column. -/
structure Suffices (d : Draft Select) (t : RecordType α) (x : Executor σ) (st : Statement)
    (columns : List String) : Prop where
  fromRow : ∀ row : Row, row.Exactly columns → ¬LacksColumn (t.fromRow row)
  fetchOne : ∀ s rows, x.Answers .selectOne st s rows → (∀ row ∈ rows, row.Exactly columns) →
    ¬LacksColumn (fetchOne d t x s).1
  fetchAll : ∀ s rows, x.Answers .selectAll st s rows → (∀ row ∈ rows, row.Exactly columns) →
    ¬LacksColumn (fetchAll d t x s).1

/-- Rows of just these columns are never read; the error says that a column is lacking just
when it is none of these. -/
structure Fails (d : Draft Select) (t : RecordType α) (x : Executor σ) (st : Statement)
    (columns : List String) : Prop where
  fromRow : ∀ row : Row, row.Exactly columns → ∃ column message,
    t.fromRow row = .error (.decode column message) ∧
      (message = Row.lacking ↔ column ∉ columns)
  fetchOne : ∀ s rows, x.Answers .selectOne st s rows → (∀ row ∈ rows, row.Exactly columns) →
    ∃ e, (fetchOne d t x s).1 = .error e
  fetchAll : ∀ s rows, x.Answers .selectAll st s rows → (∀ row ∈ rows, row.Exactly columns) →
    rows ≠ [] → ∃ e, (fetchAll d t x s).1 = .error e

variable {columns : List String}

/-- What holds of single rows holds of what is fetched. -/
theorem suffices_of_fromRow (hst : buildFor (forExecutor d x) t = .ok st)
    (h : ∀ row : Row, row.Exactly columns → ¬LacksColumn (t.fromRow row)) :
    Suffices d t x st columns := by
  refine ⟨h, fun s rows hanswers hrows => ?_, fun s rows hanswers hrows => ?_⟩
  · rw [fetchOne_of_answers hst hanswers]
    rintro ⟨column, hlacks⟩
    rcases bind_eq_error.1 hlacks with honly | ⟨row, honly, hrow⟩
    · exact Executor.not_lacksColumn_onlyRow ⟨column, honly⟩
    · obtain rfl := Executor.onlyRow_eq_ok.1 honly
      exact h row (hrows row (List.mem_singleton_self row)) ⟨column, hrow⟩
  · rw [fetchAll_of_answers hst hanswers]
    rintro ⟨column, hlacks⟩
    rw [← errorOf?_eq_some, errorOf?_mapM] at hlacks
    obtain ⟨row, hmem, hrow⟩ := List.exists_of_findSome?_eq_some hlacks
    exact h row (hrows row hmem) ⟨column, errorOf?_eq_some.1 hrow⟩

/-- The same for rows that are never read. -/
theorem fails_of_fromRow (hst : buildFor (forExecutor d x) t = .ok st)
    (h : ∀ row : Row, row.Exactly columns → ∃ column message,
      t.fromRow row = .error (.decode column message) ∧
        (message = Row.lacking ↔ column ∉ columns)) :
    Fails d t x st columns := by
  refine ⟨h, fun s rows hanswers hrows => ?_, fun s rows hanswers hrows hne => ?_⟩
  · rw [fetchOne_of_answers hst hanswers]
    cases honly : Executor.onlyRow rows with
    | error e => exact ⟨e, rfl⟩
    | ok row =>
        obtain rfl := Executor.onlyRow_eq_ok.1 honly
        obtain ⟨column, message, hrow, -⟩ := h row (hrows row (List.mem_singleton_self row))
        exact ⟨_, hrow⟩
  · rw [fetchAll_of_answers hst hanswers]
    obtain ⟨row, rest, rfl⟩ := List.exists_cons_of_ne_nil hne
    obtain ⟨column, message, hrow, -⟩ := h row (hrows row List.mem_cons_self)
    rw [List.mapM_cons]
    exact ⟨_, bind_eq_error.2 (.inl hrow)⟩

/-- **What an inferred projection asks for, and what is read of it.**  For every structure that
both derivations accept, every SELECT without an error for which no columns were set, and every
tag under which the structure has columns: the statement that is sent projects just these
columns, whereas reading goes by the columns under the standard tag.  If these are all
projected, as they are under the standard tag itself, then no row of just the projected columns
fails to be read for want of a column, by itself or when it is fetched; if one of them is not,
then no such row is ever read. -/
theorem inferred_projection {declaration : Declaration} {fs : List Field}
    (haccepted : ∀ derivation, declaration.mappings derivation = .ok (fs.map Field.mapping))
    (name : String) {q : Select} (hq : d.get = .ok q) (hall : q.projection = .all)
    (hcolumns : (RecordType.ofFields name fs).columns q.settings.tag = some columns)
    (x : Executor σ) :
    let t := RecordType.ofFields name fs
    ∃ table fields st, declaration.recordColumns = .ok table ∧
      (table.lookup q.settings.tag).map (·.map Prod.fst) = some columns ∧
      declaration.rowColumns = .ok fields ∧
      buildFor (forExecutor d x) t = .ok st ∧
      (∃ rest, st.sql = q.openingText (.columns (columns.map Identifier.single)) ++ rest) ∧
      let read := fields.filterMap Prod.snd
      (q.settings.tag = Settings.standardTag → read = columns) ∧
        (read ⊆ columns → Suffices d t x st columns) ∧
        (¬read ⊆ columns → Fails d t x st columns) := by
  intro t
  set q' : Select := { q with settings := q.settings.withPlaceholder x.placeholder } with hq'
  obtain ⟨table, htable, hlookup⟩ := Declaration.recordColumns_eq (haccepted .record) name
  obtain ⟨fields, hfields, hfilter⟩ := Declaration.rowColumns_eq (haccepted .fromRow)
  have hst : buildFor (forExecutor d x) t =
      .ok (q'.statement (.columns (columns.map Identifier.single))) := by
    rw [buildFor_forExecutor hq]
    exact statementFor_of_all hall (RecordType.columnsAt_ofFields hcolumns)
  refine ⟨table, fields, _, htable, (hlookup _).symm.trans hcolumns, hfields, hst,
    exists_sql_statement q' _, ?_⟩
  intro read
  have hread : read = Fields.readColumns fs := hfilter
  clear_value read
  subst hread
  refine ⟨fun hstandard => ?_, fun hcovered => suffices_of_fromRow hst ?_,
    fun hmissing => fails_of_fromRow hst ?_⟩
  · rw [hstandard] at hcolumns
    exact RecordType.columns_standard hcolumns
  · rintro row hrow ⟨column, hlacks⟩
    obtain ⟨other, hother, message, herror, hmessage⟩ := Fields.error_of_fromRow hlacks
    obtain ⟨rfl, rfl⟩ := SqlError.decode.inj herror
    exact hrow.get?_eq_none.1 (hmessage.1 rfl) (hcovered hother)
  · intro row hrow
    obtain ⟨column, hcolumn, hlacking⟩ : ∃ column ∈ Fields.readColumns fs, column ∉ columns := by
      simpa [List.subset_def] using hmissing
    obtain ⟨e, he⟩ := Fields.fromRow_of_lacking (hrow.get?_eq_none.2 hlacking) hcolumn
    obtain ⟨other, -, message, rfl, hmessage⟩ := Fields.error_of_fromRow he
    exact ⟨other, message, he, hmessage.trans hrow.get?_eq_none⟩

/-- A tag under which a structure has the columns that it is read by, and one more. -/
theorem inferred_projection_covering :
    let ds : List DeclaredField := [⟨"id", ["db = \"user_id\", api = \"user_id\""]⟩,
      ⟨"name", []⟩, ⟨"note", ["db = \"-\", api = \"text\""]⟩]
    let fs : List Field := [
      ⟨⟨"id", false, [("db", "user_id"), ("api", "user_id")]⟩, String, Codec.text, ""⟩,
      ⟨⟨"name", false, []⟩, String, Codec.text, ""⟩,
      ⟨⟨"note", false, [("db", "-"), ("api", "text")]⟩, String, Codec.text, "none"⟩]
    let t := RecordType.ofFields "User" fs
    let d := ofCalls "users" [.tag "api", .distinct]
    let x := Script.executor .dollar
    let row : Row := ⟨["text", "user_id", "name"], [.text "hidden", .text "u1", .text "Ann"]⟩
    (∀ derivation, (Declaration.named ds).mappings derivation = .ok (fs.map Field.mapping)) ∧
      (fetchOne d t x (.start ⟨[], [.ok [row]], 0, []⟩)).1 = .ok ("u1", "Ann", "none", ()) ∧
      ∃ st, buildFor (forExecutor d x) t = .ok st ∧
        st.sql = "SELECT DISTINCT `user_id`, `name`, `text` FROM `users`" ∧
        Suffices d t x st ["user_id", "name", "text"] := by
  intro ds fs t d x row
  have haccepted : ∀ derivation,
      (Declaration.named ds).mappings derivation = .ok (fs.map Field.mapping) := fun derivation =>
    Declaration.mappings_named_eq_ok.2 <|
      .cons (by decide +kernel) <| .cons rfl <| .cons (by decide +kernel) .nil
  obtain ⟨table, fields, st, -, -, hfields, hst, -, -, hsuffices, -⟩ :=
    inferred_projection (d := d) haccepted "User" rfl rfl rfl x
  have hread : (Declaration.named ds).rowColumns =
      .ok [("id", some "user_id"), ("name", some "name"), ("note", none)] := by decide +kernel
  obtain rfl := Except.ok.inj (hread.symm.trans hfields)
  have hsql : (buildFor (forExecutor d x) t).map Statement.sql =
      .ok "SELECT DISTINCT `user_id`, `name`, `text` FROM `users`" := by decide +kernel
  rw [hst] at hsql
  exact ⟨haccepted, rfl, st, hst, Except.ok.inj hsql, hsuffices (by decide)⟩

/-- A structure whose key has another column under the tag of the statement than under the
standard tag: the row has every column that was asked for, and is not read. -/
theorem inferred_projection_lacking :
    let ds : List DeclaredField := [⟨"id", ["db = \"doc_id\", api = \"id\""]⟩,
      ⟨"title", ["api = \"-\""]⟩,
      ⟨"ratio", ["db = \"-\", api = \"weight\", other = \"w\""]⟩,
      ⟨"live", ["db = \"is.live\""]⟩]
    let fs : List Field := [
      ⟨⟨"id", false, [("db", "doc_id"), ("api", "id")]⟩, IntegerType.uint64.Member,
        IntegerType.uint64.codec, ⟨0, by decide, by decide⟩⟩,
      ⟨⟨"title", false, [("api", "-")]⟩, String, Codec.text, ""⟩,
      ⟨⟨"ratio", false, [("db", "-"), ("api", "weight"), ("other", "w")]⟩, Double, Codec.double,
        ⟨0⟩⟩,
      ⟨⟨"live", false, [("db", "is.live")]⟩, Bool, Codec.bool, false⟩]
    let t := RecordType.ofFields "Doc" fs
    let d := ofCalls "t" [.tag "api"]
    let x := Script.executor .question
    let row : Row := ⟨["id", "weight", "live"], [.int 7, .int 2, .bool true]⟩
    (∀ derivation, (Declaration.named ds).mappings derivation = .ok (fs.map Field.mapping)) ∧
      t.columns "api" = some row.columns ∧
      (buildFor (forExecutor d x) t).map Statement.sql =
        .ok "SELECT `id`, `weight`, `live` FROM `t`" ∧
      (fetchOne d t x (.start ⟨[], [.ok [row]], 0, []⟩)).1 =
        .error (.decode "doc_id" "column not found in row") := by
  intro ds fs t d x row
  refine ⟨fun derivation => ?_, rfl, by decide +kernel, rfl⟩
  exact Declaration.mappings_named_eq_ok.2 <|
    .cons (by decide +kernel) <| .cons (by decide +kernel) <| .cons (by decide +kernel) <|
      .cons (by decide +kernel) .nil

end SelectDraft

end BoundSql
