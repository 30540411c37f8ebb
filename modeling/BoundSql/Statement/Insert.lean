import BoundSql.Execution.Executor
import BoundSql.Statement.Draft
import BoundSql.Statement.Select

/-!
# INSERT and REPLACE

An INSERT statement is built by calls.  Its rows come as positional rows, as maps
or as records, one form for a statement; every row must fit the columns, which
for maps and records may be inferred from the first of them.

Positional rows are sent as one statement.  Maps and records are sent as one
statement with named markers for each, unless a value is bound in ON DUPLICATE
KEY UPDATE, which has no name.
-/

namespace BoundSql

/-- The verb of the statement. -/
inductive InsertMode
  | insert | replace
  deriving DecidableEq

/-- The verb in SQL. -/
def InsertMode.toSql : InsertMode → String
  | .insert => "INSERT"
  | .replace => "REPLACE"

/-- The scheduling word after the verb. -/
inductive Priority
  | low | high | delayed
  deriving DecidableEq

/-- The word in SQL. -/
def Priority.toSql : Priority → String
  | .low => "LOW_PRIORITY"
  | .high => "HIGH_PRIORITY"
  | .delayed => "DELAYED"

/-- What a column is set to in ON DUPLICATE KEY UPDATE. -/
inductive Assigned
  | value (v : Value)
  /-- SQL without markers. -/
  | raw (sql : String)

/-- An assignment of ON DUPLICATE KEY UPDATE. -/
structure Assignment where
  column : Identifier
  assigned : Assigned

/-- The rows of a statement in one of three forms. -/
inductive Source
  | empty
  | rows (rows : List (List Value))
  | maps (maps : List ValueMap)
  | records (records : List Record)

/-- How a form of rows is called in messages. -/
def Source.describe : Source → String
  | .empty => "nothing"
  | .rows _ => "positional rows"
  | .maps _ => "keyed maps"
  | .records _ => "records"

/-- An INSERT or REPLACE statement. -/
structure Insert where
  table : Identifier
  settings : Settings
  /-- The columns as given, none if they are to be inferred. -/
  columns : List Identifier
  source : Source
  mode : InsertMode
  priority? : Option Priority
  ignore : Bool
  assignments : List Assignment

namespace Insert

/-- A call that builds on an INSERT statement. -/
inductive Call
  | settings (s : Settings)
  | dialect (d : Dialect)
  | tag (tag : String)
  | columns (names : List Identifier)
  | rows (rows : List (List Value))
  | maps (maps : List ValueMap)
  | records (records : List Record)
  | ignore
  | priority (p : Priority)
  | replace
  /-- Adds an assignment to ON DUPLICATE KEY UPDATE. -/
  | update (column : Identifier) (assigned : Assigned)

/-- An INSERT into a table, or a REPLACE. -/
def ofTable (mode : InsertMode) (table : Identifier) : Insert :=
  ⟨table, .standard, [], .empty, mode, none, false, []⟩

/-- What cannot be combined with REPLACE. -/
def notWithReplace (what : String) : SqlError :=
  .validation s!"INSERT: REPLACE cannot be combined with {what}"

/-- The error of adding rows in another form than those before. -/
def mixedSources (current adding : Source) : SqlError :=
  .validation
    s!"INSERT: cannot add {adding.describe} to a statement built from {current.describe}"

/-- The rows of a statement with more rows of the same form. -/
def addRows : Source → Source → Except SqlError Source
  | .empty, added => .ok added
  | .rows old, .rows new => .ok (.rows (old ++ new))
  | .maps old, .maps new => .ok (.maps (old ++ new))
  | .records old, .records new => .ok (.records (old ++ new))
  | current, added => .error (mixedSources current added)

/-- Refuses an assignment to no column, and raw SQL that is blank or has markers. -/
def validateAssignment (a : Assignment) : Except SqlError Unit := do
  a.column.validate.mapError (SqlError.inContext "INSERT: ON DUPLICATE KEY UPDATE column")
  match a.assigned with
  | .value _ => return
  | .raw sql =>
    let name := a.column.name
    if Text.allBlank sql then
      throw <| .validation
        s!"INSERT: empty expression for ON DUPLICATE KEY UPDATE column '{name}'"
    else if Marker.count sql ≠ 0 then
      throw <| .validation <|
        s!"INSERT: ON DUPLICATE KEY UPDATE expression for column '{name}' cannot contain '?' " ++
          "markers; bind values with on_duplicate_key_update"

/-- What a call makes of a statement, or why it is refused. -/
def apply (q : Insert) : Call → Except SqlError Insert
  | .settings s => .ok { q with settings := s }
  | .dialect d => .ok { q with settings := q.settings.withDialect d }
  | .tag tag => .ok { q with settings := q.settings.withTag tag }
  | .columns names => do
    Select.validateColumns "INSERT: column" names
    return { q with columns := names }
  | .rows rows => do return { q with source := ← addRows q.source (.rows rows) }
  | .maps maps => do return { q with source := ← addRows q.source (.maps maps) }
  | .records records => do return { q with source := ← addRows q.source (.records records) }
  | .ignore =>
    if q.mode = .replace then .error (notWithReplace "IGNORE") else .ok { q with ignore := true }
  | .priority p =>
    if q.mode = .replace ∧ p = .high then .error (notWithReplace "HIGH_PRIORITY")
    else .ok { q with priority? := some p }
  | .replace =>
    if !q.assignments.isEmpty then .error (notWithReplace "ON DUPLICATE KEY UPDATE")
    else if q.ignore then .error (notWithReplace "IGNORE")
    else if q.priority? = some .high then .error (notWithReplace "HIGH_PRIORITY")
    else .ok { q with mode := .replace }
  | .update column assigned =>
    if q.mode = .replace then .error (notWithReplace "ON DUPLICATE KEY UPDATE")
    else do
      validateAssignment ⟨column, assigned⟩
      return { q with assignments := q.assignments ++ [⟨column, assigned⟩] }

/-- The error of a statement without rows. -/
def noRows : SqlError := .validation "INSERT: no rows to insert"

/-- The error of a statement without columns. -/
def noColumns : SqlError := .validation "INSERT: no columns to insert"

/-- Refuses the rows, the first of them at a place, that have not `width` values. -/
def checkWidths (width : Nat) : Nat → List (List Value) → Except SqlError Unit
  | _, [] => .ok ()
  | index, row :: rest =>
    if row.length = width then checkWidths width (index + 1) rest
    else .error (.rowMismatch index s!"expected {width} values, got {row.length}")

/-- Takes the values of columns out of a map one after another, and nothing else may
be left. -/
def rowOfMap (index : Nat) : List String → ValueMap → Except SqlError (List Value)
  | [], m =>
    match m.keys with
    | [] => .ok []
    | extra :: _ => .error (.rowMismatch index s!"unexpected key '{extra}'")
  | name :: rest, m =>
    match m.get? name with
    | none => .error (.rowMismatch index s!"missing key '{name}'")
    | some v => (rowOfMap index rest (m.erase name)).map (v :: ·)

/-- The rows of maps, the first of them at a place. -/
def rowsOfMaps (names : List String) : Nat → List ValueMap → Except SqlError (List (List Value))
  | _, [] => .ok []
  | index, m :: rest => do
    let row ← rowOfMap index names m
    return row :: (← rowsOfMaps names (index + 1) rest)

/-- The columns given and the rows that maps have for them. -/
def keyedRows (columns : List Identifier) (maps : List ValueMap) :
    Except SqlError (List Identifier × List (List Value)) :=
  if columns.isEmpty then .error noColumns
  else do return (columns, ← rowsOfMaps (columns.map Identifier.name) 0 maps)

/-- The map of a record, which must not have a column twice. -/
def mapOfRecord (tag : String) (index : Nat) (r : Record) : Except SqlError ValueMap := do
  let fields ← r.fieldsAt tag index
  let m := KeyMap.ofList fields
  if m.size = fields.length then return m
  else throw (.rowMismatch index "duplicate column in record")

/-- The maps of records, the first of them at a place. -/
def mapsOfRecords (tag : String) : Nat → List Record → Except SqlError (List ValueMap)
  | _, [] => .ok []
  | index, r :: rest => do
    let m ← mapOfRecord tag index r
    return m :: (← mapsOfRecords tag (index + 1) rest)

/-- The columns of the first map, in key order. -/
def columnsOfMaps : List ValueMap → List Identifier
  | [] => []
  | m :: _ => m.keys.map Identifier.single

/-- The columns of the first record, in the order of its fields. -/
def columnsOfRecords (tag : String) : List Record → Except SqlError (List Identifier)
  | [] => .ok []
  | r :: _ => (r.fieldsAt tag 0).map fun fields => fields.map fun (column, _) => .single column

/-- The columns given, or else the ones inferred. -/
def columnsOr (q : Insert) (inferred : List Identifier) : List Identifier :=
  if q.columns.isEmpty then inferred else q.columns

/-- The columns and, in their order, the values of every row. -/
def resolve (q : Insert) : Except SqlError (List Identifier × List (List Value)) :=
  match q.source with
  | .empty => .error noRows
  | .rows rows =>
    if q.columns.isEmpty then
      .error (.validation "INSERT: positional rows require explicit columns")
    else do
      checkWidths q.columns.length 0 rows
      return (q.columns, rows)
  | .maps maps => keyedRows (q.columnsOr (columnsOfMaps maps)) maps
  | .records records => do
    let maps ← mapsOfRecords q.settings.tag 0 records
    let inferred ← columnsOfRecords q.settings.tag records
    keyedRows (q.columnsOr inferred) maps

/-- Identifiers with commas between them. -/
def columnList (quote : Char) (names : List Identifier) : Template :=
  Template.join ", " (names.map fun name => [.text (name.toSql quote)])

/-- The statement up to its rows. -/
def head (q : Insert) (columns : List Identifier) : Template :=
  let quote := q.settings.dialect.quote
  .text q.mode.toSql ::
    (match q.priority? with
      | some p => [.text (" " ++ p.toSql)]
      | none => []) ++
    (if q.ignore then [.text " IGNORE"] else []) ++
    [.text " INTO ", .text (q.table.toSql quote), .text " ("] ++
    columnList quote columns ++ [.text ") VALUES "]

/-- The values of a row in parentheses. -/
def rowTemplate (row : List Value) : Template :=
  .text "(" :: Template.join ", " (row.map fun v => [.bind v]) ++ [.text ")"]

/-- An assignment of ON DUPLICATE KEY UPDATE. -/
def assignmentTemplate (quote : Char) (a : Assignment) : Template :=
  [.text (a.column.toSql quote), .text " = ",
    match a.assigned with
    | .value v => .bind v
    | .raw sql => .text sql]

/-- The assignments with their keyword. -/
def updateTemplate (q : Insert) : Template :=
  if q.assignments.isEmpty then []
  else
    .text " ON DUPLICATE KEY UPDATE " ::
      Template.join ", " (q.assignments.map (assignmentTemplate q.settings.dialect.quote))

/-- The statement with a place for every value of every row. -/
def template (q : Insert) (columns : List Identifier) (rows : List (List Value)) : Template :=
  q.head columns ++ Template.join ", " (rows.map rowTemplate) ++ q.updateTemplate

/-- The finished statement. -/
def statement (q : Insert) : Except SqlError Statement := do
  let (columns, rows) ← q.resolve
  return (q.template columns rows).emit q.settings.dialect.placeholder

/-- The items of a statement with named markers. -/
def namedItems (q : Insert) : Except SqlError (List NamedItem) :=
  match q.source with
  | .empty => .error noRows
  | .rows _ => .error (.validation "INSERT: named compilation requires keyed maps or records")
  | .maps maps => .ok (maps.map .map)
  | .records records => .ok (records.map .record)

/-- The columns of a statement with named markers: those given, or else those of the
first item alone. -/
def namedColumns (q : Insert) : Except SqlError (List Identifier) := do
  let columns ←
    if !q.columns.isEmpty then pure q.columns
    else match q.source with
      | .maps maps => pure (columnsOfMaps maps)
      | .records records => columnsOfRecords q.settings.tag records
      | _ => pure []
  if columns.isEmpty then throw noColumns else return columns

/-- Refuses the columns whose names cannot be markers. -/
def validateNames : List Identifier → Except SqlError Unit
  | [] => .ok ()
  | column :: rest =>
    let name := column.name
    if Named.isName name then validateNames rest
    else
      .error (.validation s!"INSERT: column '{name}' cannot be used as a named parameter")

/-- The statement with a named marker for every column. -/
def namedTemplate (q : Insert) (columns : List Identifier) : Template :=
  q.head columns ++
    .text "(" :: Template.join ", " (columns.map fun c => [.text (":" ++ c.name)]) ++
    .text ")" :: q.updateTemplate

/-- The finished statement with named markers. -/
def namedStatement (q : Insert) : Except SqlError NamedStatement := do
  let items ← q.namedItems
  let columns ← q.namedColumns
  validateNames columns
  let template := q.namedTemplate columns
  if template.params.isEmpty then
    return {
      sql := (template.emit q.settings.dialect.placeholder).sql
      tag := q.settings.tag
      items
      batch := items.length ≠ 1 }
  else
    throw <| .validation <|
      "INSERT: named compilation cannot bind ON DUPLICATE KEY UPDATE values; " ++
        "use a raw expression"

/-- The statement is sent with named markers. -/
def usesNames (q : Insert) : Bool :=
  (match q.source with
    | .maps _ | .records _ => true
    | _ => false) &&
    q.assignments.all fun a =>
      match a.assigned with
      | .value _ => false
      | .raw _ => true

end Insert

namespace InsertDraft

/-- A statement into a table. -/
def ofTable (mode : InsertMode) (table : String) : Draft Insert :=
  let table := Identifier.ofText table
  .checked (Insert.ofTable mode table)
    (table.validate.mapError (SqlError.inContext "INSERT: table"))

/-- Makes a call. -/
def call (d : Draft Insert) (c : Insert.Call) : Draft Insert := d.step (·.apply c)

/-- The finished statement, or the first error of the calls. -/
def build (d : Draft Insert) : Except SqlError Statement := do (← d.get).statement

/-- The finished statement with named markers. -/
def buildNamed (d : Draft Insert) : Except SqlError NamedStatement := do (← d.get).namedStatement

/-- The draft for an executor, whose style of placeholders it takes. -/
def forExecutor {σ : Type} (d : Draft Insert) (e : Executor σ) : Draft Insert :=
  d.step fun q => .ok { q with settings := q.settings.withPlaceholder e.placeholder }

/-- Sends the statement.  Every row is checked before anything is sent. -/
def exec {σ : Type} (d : Draft Insert) (e : Executor σ) : Run σ WriteResult := do
  if d.state.usesNames then
    let q ← Run.ofExcept (buildNamed d)
    let _ ← Run.ofExcept d.state.resolve
    Run.log (.compiled .namedInsert q.sql q.items.length)
    e.namedExec q
  else
    let q ← Run.ofExcept (build (forExecutor d e))
    Run.log (.compiled .insert q.sql q.params.length)
    e.exec q

end InsertDraft

end BoundSql
