import BoundSql.Clause.Columns
import BoundSql.Clause.Condition
import BoundSql.Execution.Executor
import BoundSql.Statement.Draft

/-!
# SELECT

A SELECT statement is built by calls.  Conditions of WHERE and of HAVING add up;
every other call replaces what an earlier one of its kind has set.  LIMIT and
OFFSET are bound values like all others.
-/

namespace BoundSql

/-- What a SELECT statement projects. -/
inductive Projection
  | all
  | columns (names : List Identifier)
  /-- SQL without markers. -/
  | raw (sql : String)

/-- What is projected. -/
def Projection.chunks : Projection → List Chunk
  | .all => [.word "*"]
  | .columns names => Chunk.list names
  | .raw sql => [.word sql]

/-- A SELECT statement. -/
structure Select where
  table : Identifier
  alias? : Option Identifier
  settings : Settings
  distinct : Bool
  projection : Projection
  /-- The conditions of WHERE in order. -/
  restrictions : List Predicate
  groupBy? : Option ColumnClause
  /-- The conditions of HAVING in order. -/
  groupRestrictions : List Predicate
  orderBy? : Option ColumnClause
  limit? : Option Int64
  offset? : Option Int64

namespace Select

/-- A call that builds on a SELECT statement. -/
inductive Call
  | settings (s : Settings)
  | dialect (d : Dialect)
  | tag (tag : String)
  | alias (name : String)
  | distinct
  /-- Projects columns; none of them stands for all. -/
  | columns (names : List Identifier)
  /-- Projects SQL as it is. -/
  | columnsRaw (sql : String)
  /-- Adds a condition to WHERE. -/
  | restrict (c : Condition)
  /-- Adds a condition to HAVING. -/
  | restrictGroups (c : Condition)
  | groupBy (clause : ColumnClause)
  | orderBy (clause : ColumnClause)
  | limit (n : Int64)
  | offset (n : Int64)
  /-- Sets LIMIT and OFFSET to a page, counted from one. -/
  | paginate (page perPage : Int64)

/-- All rows and columns of a table. -/
def ofTable (table : Identifier) : Select :=
  ⟨table, none, .standard, false, .all, [], none, [], none, none, none⟩

/-- Refuses the columns that cannot be identifiers. -/
def validateColumns (context : String) : List Identifier → Except SqlError Unit
  | [] => .ok ()
  | name :: rest => do
    name.validate.mapError (SqlError.inContext context)
    validateColumns context rest

/-- A number that is not negative. -/
def nonNegative (clause : String) (n : Int64) : Except SqlError Int64 :=
  if n < 0 then
    .error (.validation s!"SELECT: {clause} must be non-negative, got {n.toInt}")
  else .ok n

/-- The rows before a page, or the largest number if there are more. -/
def rowsBefore (page perPage : Int64) : Int64 :=
  Int64.ofInt (min ((page.toInt - 1) * perPage.toInt) 0x7FFFFFFFFFFFFFFF)

/-- What a call makes of a statement, or why it is refused. -/
def apply (q : Select) : Call → Except SqlError Select
  | .settings s => .ok { q with settings := s }
  | .dialect d => .ok { q with settings := q.settings.withDialect d }
  | .tag tag => .ok { q with settings := q.settings.withTag tag }
  | .alias name => do
    (Identifier.single name).validate.mapError (SqlError.inContext "SELECT: alias")
    return { q with alias? := some (.single name) }
  | .distinct => .ok { q with distinct := true }
  | .columns names => do
    validateColumns "SELECT: column" names
    return { q with projection := if names.isEmpty then .all else .columns names }
  | .columnsRaw sql =>
    let sql := Text.trim sql
    if Marker.count sql ≠ 0 then
      .error (.validation "SELECT: raw projection cannot contain '?' markers")
    else .ok { q with projection := if sql.isEmpty then .all else .raw sql }
  | .restrict c => do
    let p? ← c.resolve "WHERE"
    return { q with restrictions := q.restrictions ++ p?.toList }
  | .restrictGroups c => do
    let p? ← c.resolve "HAVING"
    return { q with groupRestrictions := q.groupRestrictions ++ p?.toList }
  | .groupBy clause => do
    clause.validate "GROUP BY"
    return { q with groupBy? := if clause.isEmpty then none else some clause }
  | .orderBy clause => do
    clause.validate "ORDER BY"
    return { q with orderBy? := if clause.isEmpty then none else some clause }
  | .limit n => do return { q with limit? := some (← nonNegative "LIMIT" n) }
  | .offset n => do return { q with offset? := some (← nonNegative "OFFSET" n) }
  | .paginate page perPage =>
    if page < 1 then
      .error (.validation s!"SELECT: page must be at least 1, got {page.toInt}")
    else if perPage < 1 then
      .error (.validation s!"SELECT: per_page must be at least 1, got {perPage.toInt}")
    else .ok { q with limit? := some perPage, offset? := some (rowsBefore page perPage) }

/-- The alias with its keyword. -/
def aliasChunks : Option Identifier → List Chunk
  | some name => [.word " AS ", .column name]
  | none => []

/-- The statement up to its clauses. -/
def openingChunks (q : Select) (projection : Projection) : List Chunk :=
  .word "SELECT " :: (if q.distinct then [.word "DISTINCT "] else []) ++ projection.chunks ++
    [.word " FROM ", .column q.table] ++ aliasChunks q.alias?

/-- A clause with its keyword. -/
def clauseLayout (keyword : String) (body : Layout) : Layout := .framed keyword body none

/-- A clause that may be missing. -/
def columnLayout (keyword : String) : Option ColumnClause → Layout
  | some clause => clauseLayout keyword clause.layout
  | none => .chunks []

/-- The value of LIMIT or OFFSET with its keyword. -/
def countChunks (keyword : String) : Option Int64 → List Chunk
  | some n => [.word keyword, .bind (.int n)]
  | none => []

/-- The statement with a projection, before it is known which clauses have a text. -/
def layout (q : Select) (projection : Projection) : Layout :=
  .append (.chunks (q.openingChunks projection)) <|
    .append (clauseLayout " WHERE " (Predicate.conjunction q.restrictions)) <|
    .append (columnLayout " GROUP BY " q.groupBy?) <|
    .append (clauseLayout " HAVING " (Predicate.conjunction q.groupRestrictions)) <|
    .append (columnLayout " ORDER BY " q.orderBy?) <|
    .chunks (countChunks " LIMIT " q.limit? ++ countChunks " OFFSET " q.offset?)

/-- The finished statement. -/
def statement (q : Select) (projection : Projection) : Statement :=
  (q.layout projection).write q.settings.dialect

/-- The statement as a template, if every placeholder has a text. -/
def template (q : Select) (projection : Projection) : Template :=
  (q.layout projection).template q.settings.dialect.quote

/-- The statement for reading a record type: if all is projected, its columns are. -/
def statementFor {α : Type} (q : Select) (t : RecordType α) : Except SqlError Statement :=
  match q.projection with
  | .all => do
    let columns ← t.columnsAt q.settings.tag
    return q.statement (.columns (columns.map Identifier.single))
  | projection => .ok (q.statement projection)

end Select

namespace SelectDraft

/-- A SELECT of all rows and columns of a table. -/
def ofTable (table : String) : Draft Select :=
  let table := Identifier.ofText table
  .checked (Select.ofTable table) (table.validate.mapError (SqlError.inContext "SELECT: table"))

/-- Makes a call. -/
def call (d : Draft Select) (c : Select.Call) : Draft Select := d.step (·.apply c)

/-- The finished statement, or the first error of the calls. -/
def build (d : Draft Select) : Except SqlError Statement := do
  let q ← d.get
  return q.statement q.projection

/-- The finished statement for reading a record type. -/
def buildFor {α : Type} (d : Draft Select) (t : RecordType α) : Except SqlError Statement := do
  (← d.get).statementFor t

/-- The draft for an executor, whose style of placeholders it takes. -/
def forExecutor {σ : Type} (d : Draft Select) (e : Executor σ) : Draft Select :=
  d.step fun q => .ok { q with settings := q.settings.withPlaceholder e.placeholder }

/-- Sends the statement and reads exactly one record. -/
def fetchOne {σ α : Type} (d : Draft Select) (t : RecordType α) (e : Executor σ) : Run σ α := do
  let q ← Run.ofExcept (buildFor (forExecutor d e) t)
  Run.log (.compiled .selectOne q.sql q.params.length)
  e.get q t.fromRow

/-- Sends the statement and reads any number of records. -/
def fetchAll {σ α : Type} (d : Draft Select) (t : RecordType α) (e : Executor σ) :
    Run σ (List α) := do
  let q ← Run.ofExcept (buildFor (forExecutor d e) t)
  Run.log (.compiled .selectAll q.sql q.params.length)
  e.select q t.fromRow

end SelectDraft

end BoundSql
