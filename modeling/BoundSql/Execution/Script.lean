import BoundSql.Execution.Executor

/-!
# Scripted executors

A backend that answers from a script and records every call, also one that times
out.  Past the end of the script the `n`-th write answers with id `n` and one
row, and a query answers with no rows.
-/

namespace BoundSql

/-- Whether a call writes or reads. -/
inductive CallMode
  | exec | query
  deriving DecidableEq

/-- What a scripted backend answers, and what it was asked so far. -/
structure Script where
  writes : List (Except SqlError WriteResult)
  reads : List (Except SqlError (List Row))
  /-- Nanoseconds that every call waits. -/
  delay : Nat
  calls : List (CallMode × Statement)

namespace Script

/-- The number of calls of a mode. -/
def count (s : Script) (mode : CallMode) : Nat := (s.calls.filter (·.1 = mode)).length

/-- Records a call, which is not done in no time, and lets it wait. -/
def receive (mode : CallMode) (q : Statement) : Run Script Script := fun s =>
  let before := s.backend
  let s := { s with backend := { before with calls := before.calls ++ [(mode, q)] } }
  (do
    Run.work 1
    Run.wait before.delay
    return before : Run Script Script) s

/-- Answers a write. -/
def exec (q : Statement) : Run Script WriteResult := do
  let before ← receive .exec q
  let index := before.count .exec
  Run.ofExcept (before.writes[index]?.getD (.ok ⟨some (Int64.ofNat (index + 1)), 1⟩))

/-- Answers a query. -/
def query (q : Statement) : Run Script (List Row) := do
  let before ← receive .query q
  Run.ofExcept (before.reads[before.count .query]?.getD (.ok []))

/-- The executor of a scripted backend. -/
def executor (placeholder : Placeholder) : Executor Script :=
  Executor.positional placeholder exec query

end Script

end BoundSql
