import BoundSql.Json.Reader

/-!
# Records as JSON

A record with defaults is read from an object with any of its keys, or from an
array of its fields in order, cut off anywhere.  Unknown members are passed over
unjudged; a key of the record must not come twice.
-/

namespace BoundSql

namespace JsonText

/-- How to set the fields of a record: for each key, in the order of the fields,
what to do with the tree found there. -/
abbrev Fields (α : Type) := List (String × (JsonText → α → Option α))

/-- Reads the members of an object into a record; `seen` are the keys that were
read before. -/
def readRecordMembers? {α : Type} (fields : Fields α) :
    List (List StringUnit × JsonText) → List String → α → Option α
  | [], _, record => some record
  | (key, tree) :: rest, seen, record => do
    let key ← StringUnit.text? key
    match fields.lookup key with
    | none => readRecordMembers? fields rest seen record
    | some set =>
      if key ∈ seen then none
      else readRecordMembers? fields rest (key :: seen) (← set tree record)

/-- Reads the items of an array into the fields in order. -/
def readRecordItems? {α : Type} : Fields α → List JsonText → α → Option α
  | _, [], record => some record
  | [], _ :: _, _ => none
  | (_, set) :: fields, tree :: rest, record => do
    readRecordItems? fields rest (← set tree record)

/-- Reads a tree into a record. -/
def readRecord? {α : Type} (fields : Fields α) (tree : JsonText) (record : α) : Option α :=
  match tree with
  | .object members => readRecordMembers? fields members [] record
  | .array items => readRecordItems? fields items record
  | _ => none

end JsonText

end BoundSql
