import BoundSql.Filter.Basic
import BoundSql.SqlError
import BoundSql.Text.Blank

/-!
# From filters to predicates

A node must have just the fields of its type.  A node with a fault is reported
with its path, the first one in document order; a node without a type is passed
over, and so is a group of such nodes.
-/

namespace BoundSql

namespace Filter

/-- The fields that a type of node has. -/
inductive Shape
  | group | single | comparison | list | range | column
  deriving DecidableEq

/-- The meaning of a type. -/
inductive Kind
  | and | or | not
  | compare (op : Comparison)
  | notLike
  | oneOf (negated : Bool)
  | between
  | nullTest (negated : Bool)
  deriving DecidableEq

namespace Kind

/-- The meaning of a type as written. -/
def ofType? (type : String) : Option Kind :=
  if type = "and" then some .and
  else if type = "or" then some .or
  else if type = "not" then some .not
  else if type = "eq" then some (.compare .eq)
  else if type = "ne" then some (.compare .ne)
  else if type = "lt" then some (.compare .lt)
  else if type = "lte" then some (.compare .le)
  else if type = "gt" then some (.compare .gt)
  else if type = "gte" then some (.compare .ge)
  else if type = "like" then some (.compare .like)
  else if type = "not_like" then some .notLike
  else if type = "in" then some (.oneOf false)
  else if type = "not_in" then some (.oneOf true)
  else if type = "between" then some .between
  else if type = "is_null" then some (.nullTest false)
  else if type = "is_not_null" then some (.nullTest true)
  else .none

def shape : Kind → Shape
  | .and | .or => .group
  | .not => .single
  | .compare _ | .notLike => .comparison
  | .oneOf _ => .list
  | .between => .range
  | .nullTest _ => .column

end Kind

/-- What is wrong with a node. -/
inductive Fault
  | unknownType (type : String)
  | noChildren (type : String)
  | childCount (count : Nat)
  | foreignField (key type : String)
  | noColumn (type : String)
  | noValues (type : String)
  | missing (key : String)
  deriving DecidableEq

/-- The wording of a fault. -/
def Fault.message : Fault → String
  | .unknownType type => s!"unknown filter type '{type}'"
  | .noChildren type => s!"'{type}' requires at least one entry in 'fields'"
  | .childCount count => s!"'not' requires exactly one entry in 'fields', got {count}"
  | .foreignField key type => s!"unexpected field '{key}' for type '{type}'"
  | .noColumn type => s!"'{type}' requires a non-empty 'column'"
  | .noValues type => s!"'{type}' requires a non-empty 'values' array"
  | .missing key => s!"missing required field '{key}'"

/-- A fault and the way to its node: the place among the children at each step
from the root. -/
structure Located where
  path : List Nat
  fault : Fault
  deriving DecidableEq

/-- The written form of a path. -/
def pathText (path : List Nat) : String :=
  "$" ++ String.join (path.map fun i => s!".fields[{i}]")

/-- The error that reports a fault. -/
def Located.error (l : Located) : SqlError := .malformedFilter (pathText l.path) l.fault.message

/-- The fields that are present in a node, in the order of checking, with the
shapes that have them. -/
def fields (f : Filter) : List (String × Bool × List Shape) :=
  [("column", f.column.isSome, [.comparison, .list, .range, .column]),
    ("value", f.value.isSome, [.comparison]),
    ("values", f.values.isSome, [.list]),
    ("from", f.lower.isSome, [.range]),
    ("to", f.upper.isSome, [.range]),
    ("fields", !f.children.isEmpty, [.group, .single])]

/-- What is wrong with the number of children, or else with a field that the shape
does not have. -/
def shapeFault? (f : Filter) (shape : Shape) : Option Fault :=
  if shape = .group ∧ f.children = [] then some (.noChildren f.type)
  else if shape = .single ∧ f.children.length ≠ 1 then some (.childCount f.children.length)
  else
    (f.fields.find? fun (_, present, shapes) => present && !shapes.contains shape).map
      fun (key, _, _) => .foreignField key f.type

/-- The column of a node, which must not be blank. -/
def columnOf (f : Filter) : Except Fault Identifier :=
  match f.column with
  | some column =>
    if Text.allBlank column then .error (.noColumn f.type) else .ok (Identifier.ofText column)
  | .none => .error (.noColumn f.type)

/-- The value of a field that must be present. -/
def required (key : String) : Option Json → Except Fault Value
  | some j => .ok (Value.ofJson j)
  | .none => .error (.missing key)

/-- The values of a node, at least one. -/
def valuesOf (f : Filter) : Except Fault (List Value) :=
  match f.values with
  | some (j :: js) => .ok ((j :: js).map Value.ofJson)
  | _ => .error (.noValues f.type)

/-- The predicate of a node without children. -/
def leaf (f : Filter) : Kind → Except Fault Predicate
  | .compare op => do return .columnIs (← f.columnOf) op (← required "value" f.value)
  | .notLike => do return .notLike (← f.columnOf) (← required "value" f.value)
  | .oneOf negated => do
    let column ← f.columnOf
    let values ← f.valuesOf
    return if negated then .notAmong column values else .among column values
  | .between => do
    let column ← f.columnOf
    return .between column (← required "from" f.lower) (← required "to" f.upper)
  | .nullTest negated => do return .nullTest (← f.columnOf) negated
  | .and | .or | .not => .error (.unknownType f.type)

/-- The predicate of a group, none if no child has one. -/
def ofChildren : Kind → List Predicate → Option Predicate
  | _, [] => .none
  | .not, p :: _ => some (.not p)
  | .or, ps => some (.or ps)
  | _, ps => some (.and ps)

mutual

/-- The predicate of the node at a path. -/
def predicateAt (path : List Nat) : Filter → Except Located (Option Predicate)
  | ⟨type, column, value, values, lower, upper, children⟩ =>
    let f : Filter := ⟨type, column, value, values, lower, upper, children⟩
    if type.isEmpty then .ok .none
    else
      match Kind.ofType? type with
      | .none => .error ⟨path, .unknownType type⟩
      | some kind =>
        match f.shapeFault? kind.shape with
        | some fault => .error ⟨path, fault⟩
        | .none =>
          match kind.shape with
          | .group | .single => (predicatesFrom path 0 children).map (ofChildren kind)
          | _ =>
            match f.leaf kind with
            | .ok p => .ok (some p)
            | .error fault => .error ⟨path, fault⟩

/-- The predicates of children, the first of them at a place. -/
def predicatesFrom (path : List Nat) (place : Nat) : List Filter → Except Located (List Predicate)
  | [] => .ok []
  | f :: rest => do
    let p? ← predicateAt (path ++ [place]) f
    let ps ← predicatesFrom path (place + 1) rest
    return p?.toList ++ ps

end

/-- The predicate of a filter; none for no filter. -/
def toPredicate (f : Filter) : Except SqlError (Option Predicate) :=
  (predicateAt [] f).mapError Located.error

end Filter

end BoundSql
