import BoundSql.Identifier
import BoundSql.Value.Basic

/-!
# Predicates

Predicate trees for WHERE and HAVING.  Columns are identifiers and operands are
bound values; the one exception is a raw fragment, text that goes into the
statement as it is.
-/

namespace BoundSql

/-- A comparison operator. -/
inductive Comparison
  | eq | ne | lt | le | gt | ge | like
  deriving DecidableEq

namespace Comparison

/-- The operator in SQL. -/
def toSql : Comparison → String
  | .eq => "="
  | .ne => "!="
  | .lt => "<"
  | .le => "<="
  | .gt => ">"
  | .ge => ">="
  | .like => "LIKE"

end Comparison

/-- One side of a comparison. -/
inductive Operand
  | column (name : Identifier)
  | value (v : Value)

/-- A predicate tree. -/
inductive Predicate
  /-- All members hold. -/
  | and (members : List Predicate)
  /-- Some member holds. -/
  | or (members : List Predicate)
  | not (body : Predicate)
  | compare (left : Operand) (op : Comparison) (right : Operand)
  /-- The column is null, or is not if `negated`. -/
  | nullTest (column : Identifier) (negated : Bool)
  /-- The column is one of the values, or is none of them if `negated`. -/
  | oneOf (column : Identifier) (values : List Value) (negated : Bool)
  /-- Text with a marker for each of the values. -/
  | raw (sql : String) (values : List Value)

namespace Predicate

/-- A comparison of a column with a value. -/
def columnIs (column : Identifier) (op : Comparison) (v : Value) : Predicate :=
  .compare (.column column) op (.value v)

/-- The column does not match the pattern. -/
def notLike (column : Identifier) (pattern : Value) : Predicate :=
  .not (columnIs column .like pattern)

/-- The column is one of the values; of no values it never is. -/
def among (column : Identifier) (values : List Value) : Predicate :=
  if values.isEmpty then .raw "1=0" [] else .oneOf column values false

/-- The column is none of the values; of no values it always is. -/
def notAmong (column : Identifier) (values : List Value) : Predicate :=
  if values.isEmpty then .raw "1=1" [] else .oneOf column values true

/-- The column lies between two values, ends included. -/
def between (column : Identifier) (low high : Value) : Predicate :=
  .and [columnIs column .ge low, columnIs column .le high]

end Predicate

end BoundSql
