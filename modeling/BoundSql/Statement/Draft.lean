import BoundSql.SqlError

/-!
# Drafts

A statement under construction and the first error of the calls that built it.  A
call that is refused leaves the statement as it was; after it every call is
passed over, so the error that counts is always the first one.
-/

namespace BoundSql

/-- A statement under construction. -/
structure Draft (α : Type) where
  state : α
  error? : Option SqlError

namespace Draft

variable {α : Type}

/-- A draft after a check of its statement. -/
def checked (state : α) (check : Except SqlError Unit) : Draft α :=
  match check with
  | .ok () => ⟨state, none⟩
  | .error e => ⟨state, some e⟩

/-- Makes a call that may be refused. -/
def step (d : Draft α) (call : α → Except SqlError α) : Draft α :=
  match d.error? with
  | some _ => d
  | none =>
    match call d.state with
    | .ok state => ⟨state, none⟩
    | .error e => ⟨d.state, some e⟩

/-- The statement, unless a call was refused. -/
def get (d : Draft α) : Except SqlError α :=
  match d.error? with
  | some e => .error e
  | none => .ok d.state

end Draft

end BoundSql
