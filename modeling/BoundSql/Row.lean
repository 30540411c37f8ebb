import BoundSql.SqlError
import BoundSql.Value.Codec

/-!
# Rows

A row of a result: column names and values by position.
-/

namespace BoundSql

/-- A row of a result. -/
structure Row where
  columns : List String
  values : List Value

namespace Row

/-- The row of columns with their values. -/
def ofPairs (pairs : List (String × Value)) : Row := ⟨pairs.map Prod.fst, pairs.map Prod.snd⟩

/-- The value at the first column of a name. -/
def get? (r : Row) (column : String) : Option Value := do
  r.values[← r.columns.findIdx? (· == column)]?

/-- The datum at a column. -/
def decode {α : Type} (r : Row) (c : Codec α) (column : String) : Except SqlError α :=
  match r.get? column with
  | none => .error (.decode column "column not found in row")
  | some v => (c.decode v).mapError fun fault => .decode column fault.message

end Row

end BoundSql
