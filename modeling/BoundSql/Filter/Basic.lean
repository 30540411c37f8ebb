import BoundSql.Json.Basic
import BoundSql.Predicate.Basic

/-!
# Filters

A filter is a condition as a document: a tree of nodes that carry a type and
fields.  A node without a type means "no filter".

| type | fields |
| --- | --- |
| `and`, `or` | one or more children |
| `not` | one child |
| `eq`, `ne`, `lt`, `lte`, `gt`, `gte`, `like`, `not_like` | column, value |
| `in`, `not_in` | column, values |
| `between` | column, from, to |
| `is_null`, `is_not_null` | column |
-/

namespace BoundSql

/-- A node of a filter document, whatever its fields.  A field that is present
with the value null differs from one that is absent. -/
structure Filter where
  /-- The type as written; empty for no filter. -/
  type : String
  column : Option String
  value : Option Json
  values : Option (List Json)
  /-- The field `from`. -/
  lower : Option Json
  /-- The field `to`. -/
  upper : Option Json
  /-- The field `fields`. -/
  children : List Filter

namespace Filter

/-- No filter. -/
def none : Filter := ⟨"", .none, .none, .none, .none, .none, []⟩

/-- The node means no filter. -/
def isNone (f : Filter) : Bool := f.type.isEmpty

/-- A node of a type with children. -/
def node (type : String) (children : List Filter) : Filter :=
  ⟨type, .none, .none, .none, .none, .none, children⟩

/-- A node that compares a column with a value. -/
def compare (type column : String) (value : Json) : Filter :=
  ⟨type, some column, some value, .none, .none, .none, []⟩

/-- A node that tests a column against a list. -/
def list (type column : String) (values : List Json) : Filter :=
  ⟨type, some column, .none, some values, .none, .none, []⟩

/-- A node that tests whether a column lies between two values. -/
def between (column : String) (lower upper : Json) : Filter :=
  ⟨"between", some column, .none, .none, some lower, some upper, []⟩

/-- A node about a column alone. -/
def nullTest (type column : String) : Filter :=
  ⟨type, some column, .none, .none, .none, .none, []⟩

end Filter

end BoundSql
