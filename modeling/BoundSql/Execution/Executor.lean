import BoundSql.Record.Basic
import BoundSql.Template.Named

/-!
# Executors

An executor runs finished statements.  What it does beyond its answers is kept in
a session: the state of its backend, the events that were logged, and the time
that passed, in nanoseconds.  There are two clocks.  One runs only while a backend
waits; a call with a time limit fails once its waiting goes past the limit.  The other
is the clock of the system, which runs while a backend works; how long a call took is
read from it.
-/

namespace BoundSql

/-- What a write statement did. -/
structure WriteResult where
  /-- The generated id of the first inserted row, if the backend reports one. -/
  lastInsertId : Option Int64
  rowsAffected : UInt64
  deriving DecidableEq

/-- The values of a statement with named markers: a map or a record. -/
inductive NamedItem
  | map (m : ValueMap)
  | record (r : Record)

/-- The values by name, those of a record under a tag. -/
def NamedItem.toMap (tag : String) (index : Nat) : NamedItem → Except SqlError ValueMap
  | .map m => .ok m
  | .record r => (r.fieldsAt tag index).map KeyMap.ofList

/-- A statement with named markers and the items to run it for. -/
structure NamedStatement where
  sql : String
  tag : String
  items : List NamedItem
  /-- The items were given as a batch. -/
  batch : Bool

/-- What a call to an executor was for. -/
inductive CallKind
  | exec | namedExec | query
  deriving DecidableEq

/-- How a kind of call is called in logs. -/
def CallKind.name : CallKind → String
  | .exec => "exec"
  | .namedExec => "named_exec"
  | .query => "query"

/-- What a statement was built for. -/
inductive Purpose
  | selectOne | selectAll | insert | namedInsert
  deriving DecidableEq

/-- How a purpose is called in logs. -/
def Purpose.name : Purpose → String
  | .selectOne => "select one"
  | .selectAll => "select all"
  | .insert => "insert"
  | .namedInsert => "named insert"

/-- A logged event. -/
inductive Event
  /-- A statement is about to be sent, with so many parameters or items. -/
  | compiled (purpose : Purpose) (sql : String) (count : Nat)
  | finished (kind : CallKind) (sql : String) (params rows : Nat)
  | slow (kind : CallKind) (sql : String) (params : Nat)
  | failed (kind : CallKind) (sql : String) (params : Nat) (error : SqlError)

/-- How much an event matters. -/
inductive Level
  | trace | debug | warn
  deriving DecidableEq

namespace Event

def level : Event → Level
  | .compiled .. => .trace
  | .finished .. => .debug
  | .slow .. | .failed .. => .warn

/-- What is logged of an event besides its data. -/
def message : Event → String
  | .compiled purpose _ _ => purpose.name
  | .finished .. => "statement finished"
  | .slow .. => "slow statement"
  | .failed .. => "statement failed"

end Event

/-- The time that passed since a call began, and how much it may take. -/
structure Clock where
  elapsed : Nat
  limit? : Option Nat

/-- A clock that has not started and has no limit. -/
def Clock.fresh : Clock := ⟨0, none⟩

/-- What calls leave behind. -/
structure Session (σ : Type) where
  backend : σ
  events : List Event
  clock : Clock
  /-- What the clock of the system shows. -/
  now : Nat

/-- The session before any call. -/
def Session.start {σ : Type} (backend : σ) : Session σ := ⟨backend, [], .fresh, 0⟩

/-- A call in a session, which may fail. -/
def Run (σ α : Type) : Type := Session σ → Except SqlError α × Session σ

namespace Run

variable {σ α β : Type}

def pure (a : α) : Run σ α := fun s => (.ok a, s)

/-- One call after another; a failure ends them. -/
def bind (r : Run σ α) (f : α → Run σ β) : Run σ β := fun s =>
  match r s with
  | (.ok a, s) => f a s
  | (.error e, s) => (.error e, s)

instance : Monad (Run σ) where
  pure := Run.pure
  bind := Run.bind

/-- Goes on with what was computed without the session. -/
def ofExcept : Except SqlError α → Run σ α
  | .ok a => Run.pure a
  | .error e => fun s => (.error e, s)

/-- Logs an event. -/
def log (e : Event) : Run σ Unit := fun s => (.ok (), { s with events := s.events ++ [e] })

/-- Lets time pass; past the limit of the call the call fails. -/
def wait (nanoseconds : Nat) : Run σ Unit := fun s =>
  let elapsed := s.clock.elapsed + nanoseconds
  let s := { s with clock := { s.clock with elapsed } }
  match s.clock.limit? with
  | some limit => (if limit < elapsed then .error (.timeout limit) else .ok (), s)
  | none => (.ok (), s)

/-- Works for some time. -/
def work (nanoseconds : Nat) : Run σ Unit := fun s =>
  (.ok (), { s with now := s.now + nanoseconds })

/-- Makes a call under a time limit of its own, if one is given. -/
def within (limit? : Option Nat) (r : Run σ α) : Run σ α := fun s =>
  match limit? with
  | none => r s
  | some limit =>
    let (answer, t) := r { s with clock := ⟨0, some limit⟩ }
    (answer, { t with clock := s.clock })

end Run

/-- An executor over a backend with state. -/
structure Executor (σ : Type) where
  /-- The style of placeholders that the backend expects. -/
  placeholder : Placeholder
  exec : Statement → Run σ WriteResult
  query : Statement → Run σ (List Row)
  namedExec : NamedStatement → Run σ WriteResult

namespace Executor

variable {σ : Type}

/-- Runs a statement with named markers for one item after another: each is bound
by position and sent, the affected rows are summed, and the id is that of the
first item. -/
def execItems (placeholder : Placeholder) (exec : Statement → Run σ WriteResult)
    (sql tag : String) : Nat → List NamedItem → WriteResult → Run σ WriteResult
  | _, [], total => return total
  | index, item :: rest, total => do
    let lookup ← Run.ofExcept (item.toMap tag index)
    let template ← Run.ofExcept (Template.ofNamed sql lookup)
    let result ← exec (template.emit placeholder)
    execItems placeholder exec sql tag (index + 1) rest
      { lastInsertId := if index = 0 then result.lastInsertId else total.lastInsertId
        rowsAffected := total.rowsAffected + result.rowsAffected }

/-- Runs a statement with named markers by position. -/
def execNamed (placeholder : Placeholder) (exec : Statement → Run σ WriteResult)
    (n : NamedStatement) : Run σ WriteResult :=
  if n.items.isEmpty then
    Run.ofExcept (.error (.validation "named execution requires at least one item"))
  else execItems placeholder exec n.sql n.tag 0 n.items ⟨none, 0⟩

/-- The executor of a backend that knows placeholders by position only. -/
def positional (placeholder : Placeholder) (exec : Statement → Run σ WriteResult)
    (query : Statement → Run σ (List Row)) : Executor σ :=
  ⟨placeholder, exec, query, execNamed placeholder exec⟩

/-- The only row of a result. -/
def onlyRow : List Row → Except SqlError Row
  | [row] => .ok row
  | [] => .error (.notFound "Expected 1 row, got 0")
  | rows => .error (.tooManyRows 1 rows.length)

/-- Queries exactly one row and reads it. -/
def get {α : Type} (e : Executor σ) (q : Statement) (fromRow : Row → Except SqlError α) :
    Run σ α := do
  let row ← Run.ofExcept (onlyRow (← e.query q))
  Run.ofExcept (fromRow row)

/-- Queries any number of rows and reads them in order. -/
def select {α : Type} (e : Executor σ) (q : Statement) (fromRow : Row → Except SqlError α) :
    Run σ (List α) := do
  Run.ofExcept ((← e.query q).mapM fromRow)

end Executor

end BoundSql
