import BoundSql.Execution.Executor

/-!
# Monitoring

A monitored executor logs the outcome of every call and may limit the time of
each.  The logged text of a long statement is cut at the end of a character.
-/

namespace BoundSql

/-- What is logged and limited. -/
structure MonitorSettings where
  /-- The most nanoseconds that a call may take. -/
  timeout? : Option Nat
  /-- Calls that take more nanoseconds are logged as slow. -/
  slowAfter? : Option Nat
  /-- The most bytes of a statement that are logged. -/
  maxSql? : Option Nat

/-- Nothing is limited, and 200 bytes of a statement are logged. -/
def MonitorSettings.standard : MonitorSettings := ⟨none, none, some 200⟩

namespace Monitor

/-- The last byte position at or before another one that is not within a character.
The walk back ends at the start of the text at the latest. -/
def boundary (s : String) : Nat → Nat
  | 0 => 0
  | n + 1 => if (⟨n + 1⟩ : String.Pos.Raw).IsValid s then n + 1 else boundary s n

/-- The walk back ends between two characters, so a text can be cut there. -/
theorem isValid_boundary (s : String) (n : Nat) :
    (⟨boundary s n⟩ : String.Pos.Raw).IsValid s := by
  induction n with
  | zero => exact String.Pos.Raw.isValid_zero
  | succ n ih =>
    rw [boundary]
    split
    · assumption
    · exact ih

/-- The longest beginning of a text that takes up at most `room` bytes. -/
def cut (room : Nat) (s : String) : String :=
  if s.utf8ByteSize ≤ room then s
  else (s.sliceTo (s.pos ⟨boundary s room⟩ (isValid_boundary s room))).copy

/-- A statement's text as it is logged: as it is, or its beginning with three dots. -/
inductive LoggedSql
  | whole (sql : String)
  | shortened (beginning : String)
  deriving DecidableEq

/-- The text in the log. -/
def LoggedSql.text : LoggedSql → String
  | .whole sql => sql
  | .shortened beginning => beginning ++ "..."

/-- A statement's text is shortened if it takes up more bytes than are logged. -/
def shorten (settings : MonitorSettings) (sql : String) : LoggedSql :=
  match settings.maxSql? with
  | some room => if room < sql.utf8ByteSize then .shortened (cut room sql) else .whole sql
  | none => .whole sql

/-- The text that is logged of a statement. -/
def logged (settings : MonitorSettings) (sql : String) : String := (shorten settings sql).text

/-- Makes a call within the time limit and logs its outcome.  The call is slow by the clock
of the system. -/
def observe {σ α : Type} (settings : MonitorSettings) (kind : CallKind) (sql : String)
    (params : Nat) (rows : α → Nat) (call : Run σ α) : Run σ α := fun s =>
  let sql := logged settings sql
  let began := s.now
  match call.within settings.timeout? s with
  | (.ok a, s) =>
    (do
      Run.log (.finished kind sql params (rows a))
      if settings.slowAfter?.any (· < s.now - began) then Run.log (.slow kind sql params)
      return a : Run σ α) s
  | (.error e, s) =>
    (do
      Run.log (.failed kind sql params e)
      Run.ofExcept (.error e) : Run σ α) s

/-- An executor with monitoring around its calls. -/
def monitored {σ : Type} (settings : MonitorSettings) (e : Executor σ) : Executor σ where
  placeholder := e.placeholder
  exec q := observe settings .exec q.sql q.params.length (·.rowsAffected.toNat) (e.exec q)
  query q := observe settings .query q.sql q.params.length List.length (e.query q)
  namedExec n :=
    observe settings .namedExec n.sql n.items.length (·.rowsAffected.toNat) (e.namedExec n)

end Monitor

end BoundSql
