import BoundSql.Filter.Basic
import BoundSql.Json.Reader

/-!
# Filters as JSON

A filter is written as an object of its fields in the order type, column, value,
values, from, to, fields; an empty type, an absent field and an empty list of
children are left out.

It is read from such an object in any order, with unknown members passed over
unjudged and no member given twice, or from an array of the fields in order,
cut off anywhere.  A null column or list of values counts as absent, while a
null value, from or to is a value.
-/

namespace BoundSql

namespace Filter

/-- A field of a node. -/
inductive Slot
  | type | column | value | values | lower | upper | children
  deriving DecidableEq

namespace Slot

/-- The key of a field. -/
def key : Slot → String
  | .type => "type"
  | .column => "column"
  | .value => "value"
  | .values => "values"
  | .lower => "from"
  | .upper => "to"
  | .children => "fields"

/-- The fields in order. -/
def all : List Slot := [.type, .column, .value, .values, .lower, .upper, .children]

/-- The field of a key. -/
def ofKey? (key : String) : Option Slot := all.find? (·.key == key)

end Slot

/-- The items of an array, for a tree that is one. -/
def itemTrees? (room : Nat) : JsonText → Option (List Json)
  | .array items => if room = 0 then .none else JsonText.items? (room - 1) items
  | _ => .none

/-- The text of a string, for a tree that is one. -/
def stringTree? : JsonText → Option String
  | .string units => StringUnit.text? units
  | _ => .none

/-- A field that counts as absent when it is null. -/
def optional {α : Type} (read : JsonText → Option α) : JsonText → Option (Option α)
  | .null => some .none
  | tree => (read tree).map some

/-- Sets a field other than the children. -/
def setField? (room : Nat) (slot : Slot) (tree : JsonText) (f : Filter) : Option Filter :=
  match slot with
  | .type => (stringTree? tree).map fun s => { f with type := s }
  | .column => (optional stringTree? tree).map fun c => { f with column := c }
  | .value => (tree.value? room).map fun j => { f with value := some j }
  | .values => (optional (itemTrees? room) tree).map fun js => { f with values := js }
  | .lower => (tree.value? room).map fun j => { f with lower := some j }
  | .upper => (tree.value? room).map fun j => { f with upper := some j }
  | .children => .none

mutual

/-- The filter of a tree whose containers nest at most `room` deep. -/
def ofTree? (room : Nat) : JsonText → Option Filter
  | .object members => if room = 0 then .none else readMembers? (room - 1) members [] none
  | .array items => if room = 0 then .none else readItems? (room - 1) items Slot.all none
  | _ => .none

/-- Reads members into a filter; `seen` are the fields that were read before. -/
def readMembers? (room : Nat) :
    List (List StringUnit × JsonText) → List Slot → Filter → Option Filter
  | [], _, f => some f
  | (key, tree) :: rest, seen, f => do
    match Slot.ofKey? (← StringUnit.text? key) with
    | .none => readMembers? room rest seen f
    | some slot =>
      if slot ∈ seen then .none
      else readMembers? room rest (slot :: seen) (← readField? room slot tree f)

/-- Reads items into the fields in order. -/
def readItems? (room : Nat) : List JsonText → List Slot → Filter → Option Filter
  | [], _, f => some f
  | _ :: _, [], _ => .none
  | tree :: rest, slot :: slots, f => do readItems? room rest slots (← readField? room slot tree f)

/-- Reads a field. -/
def readField? (room : Nat) (slot : Slot) (tree : JsonText) (f : Filter) : Option Filter :=
  if slot = .children then
    match tree with
    | .array items =>
      if room = 0 then .none
      else (readChildren? (room - 1) items).map fun fs => { f with children := fs }
    | _ => .none
  else setField? room slot tree f

/-- The filters of the items of an array. -/
def readChildren? (room : Nat) : List JsonText → Option (List Filter)
  | [] => some []
  | tree :: rest => do return (← ofTree? room tree) :: (← readChildren? room rest)

end

/-- The filter that a JSON text holds. -/
def ofText? (text : String) : Option Filter := do
  ofTree? Json.maxDepth (← JsonText.ofText? text)

/-- A member of a node that is present. -/
def member (slot : Slot) (tree? : Option JsonText) : List (List StringUnit × JsonText) :=
  match tree? with
  | some tree => [(StringUnit.ofText slot.key, tree)]
  | .none => []

mutual

/-- The tree in which a filter is written. -/
def toTree : Filter → JsonText
  | ⟨type, column, value, values, lower, upper, children⟩ =>
    .object <|
      member .type (if type.isEmpty then .none else some (.string (StringUnit.ofText type))) ++
      member .column (column.map fun c => .string (StringUnit.ofText c)) ++
      member .value (value.map JsonText.ofValue) ++
      member .values (values.map fun js => .array (JsonText.ofItems js)) ++
      member .lower (lower.map JsonText.ofValue) ++
      member .upper (upper.map JsonText.ofValue) ++
      member .children (if children.isEmpty then .none else some (.array (toTrees children)))

def toTrees : List Filter → List JsonText
  | [] => []
  | f :: rest => f.toTree :: toTrees rest

end

/-- The JSON text of a filter. -/
def toText (f : Filter) : String := f.toTree.toText

end Filter

end BoundSql
