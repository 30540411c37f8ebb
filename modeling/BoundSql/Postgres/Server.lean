import BoundSql.Execution.Executor
import BoundSql.Postgres.Binary
import BoundSql.Text.Digits

/-!
# Statements on a PostgreSQL server

A statement runs in two requests: the server prepares its text and answers with
the types of its parameters and columns, then the parameters are bound in binary
form and the server answers with rows and a command tag, or with a failure.  A
parameter that cannot be written is reported before anything is bound.
-/

namespace BoundSql.Postgres

/-- A column of a result. -/
structure Column where
  name : String
  type : ColumnType

/-- A failure that the server reports. -/
structure Failure where
  /-- The five-character error code. -/
  code : String
  message : String
  /-- The constraint that was violated. -/
  constraint? : Option String

/-- The error of a failure: the violation of a constraint by its code, anything else
as a failed query. -/
def Failure.toError (f : Failure) : SqlError :=
  let constraint := f.constraint?.getD "unknown"
  let text := s!"{constraint}: {f.message}"
  match f.code with
  | "23505" => .uniqueViolation text
  | "23503" => .foreignKeyViolation text
  | "23514" => .checkViolation text
  | _ => .query "db error"

/-- What the server sent back for a statement that ran. -/
structure Reply where
  rows : List (List Cell)
  /-- The command and how many rows it touched. -/
  tag : String

/-- The rows that a command touched: the last word of its tag, zero if that is no
number of 64 bits. -/
def Reply.rowsAffected (r : Reply) : UInt64 :=
  let word := (r.tag.toList.reverse.takeWhile (· != ' ')).reverse
  match Text.intOfDigits? word with
  | some n => if 0 ≤ n ∧ n < 0x10000000000000000 then UInt64.ofNat n.toNat else 0
  | none => 0

/-- A request to the server. -/
inductive Request
  | prepare (sql : String)
  | bind (params : List Cell)

/-- A server that answers every statement alike, and what it was asked so far. -/
structure Server where
  params : List ColumnType
  columns : List Column
  outcome : Except Failure Reply
  requests : List Request

/-- The value of a cell in its place, by its column. -/
def readCell (index : Nat) (column : Column) (cell : Cell) : Except SqlError Value :=
  match column.type, decode? column.type cell with
  | _, some v => .ok v
  | .other type, none => .error (.decode column.name s!"unsupported column type {type}")
  | _, none => .error (.decode column.name s!"error deserializing column {index}")

/-- The values of the cells from a place on. -/
def readCells (index : Nat) : List Column → List Cell → Except SqlError (List Value)
  | column :: columns, cell :: cells => do
    let v ← readCell index column cell
    return v :: (← readCells (index + 1) columns cells)
  | _, _ => .ok []

/-- The row of cells. -/
def readRow (columns : List Column) (cells : List Cell) : Except SqlError Row :=
  (readCells 0 columns cells).map fun values => ⟨columns.map Column.name, values⟩

/-- The parameters from a place on. -/
def writeParams (index : Nat) : List ColumnType → List Value → Except SqlError (List Cell)
  | t :: types, v :: values =>
    match encode t v with
    | .ok cell => (writeParams (index + 1) types values).map (cell :: ·)
    | .error _ => .error (.query s!"error serializing parameter {index}")
  | _, _ => .ok []

/-- The parameters of a statement, as many as it has types for. -/
def bindParams (types : List ColumnType) (values : List Value) :
    Except SqlError (List Cell) :=
  if types.length = values.length then writeParams 0 types values
  else .error (.query s!"expected {types.length} parameters but got {values.length}")

namespace Server

/-- Records a request. -/
def receive (r : Request) : Run Server Server := fun s =>
  let server := s.backend
  (.ok server, { s with backend := { server with requests := server.requests ++ [r] } })

/-- Prepares a statement, binds its parameters and waits for the reply, whose rows
have the columns that the server named first. -/
def submit (q : Statement) : Run Server (List Column × Reply) := do
  let server ← receive (.prepare q.sql)
  let cells ← Run.ofExcept (bindParams server.params q.params)
  let server ← receive (.bind cells)
  let reply ← Run.ofExcept (server.outcome.mapError Failure.toError)
  return (server.columns, reply)

/-- Runs a write.  The server reports no generated id. -/
def exec (q : Statement) : Run Server WriteResult := do
  let (_, reply) ← submit q
  return ⟨none, reply.rowsAffected⟩

/-- Runs a query and reads its rows in order. -/
def query (q : Statement) : Run Server (List Row) := do
  let (columns, reply) ← submit q
  Run.ofExcept (reply.rows.mapM (readRow columns))

/-- The executor of a server, a connection or a transaction on it alike. -/
def executor : Executor Server := Executor.positional .dollar exec query

end Server

end BoundSql.Postgres
