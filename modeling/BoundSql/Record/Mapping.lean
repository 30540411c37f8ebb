import BoundSql.Settings

/-!
# Mappings of fields to columns

The fields of a record type are columns under a tag.  A field's column has the
field's own name unless the field gives another one for the tag; it may also be
left out under the tag, or under all tags.  The standard tag is mapped always,
any other tag as soon as a field names it.
-/

namespace BoundSql

/-- A field and what it says about columns. -/
structure FieldMapping where
  name : String
  /-- Left out under every tag. -/
  skipped : Bool
  /-- Columns by tag, `-` for a tag under which the field is left out. -/
  columns : List (String × String)
  deriving DecidableEq

namespace FieldMapping

/-- The mark of a field that is left out under a tag. -/
def excluded : String := "-"

/-- The field's column under a tag. -/
def column? (f : FieldMapping) (tag : String) : Option String :=
  if f.skipped then none
  else
    match f.columns.lookup tag with
    | some column => if column = excluded then none else some column
    | none => some f.name

/-- The standard tag and every tag that a field names, in order of their first use. -/
def knownTags (fields : List FieldMapping) : List String :=
  (fields.flatMap fun f => f.columns.map Prod.fst).foldl
    (fun tags tag => if tag ∈ tags then tags else tags ++ [tag]) [Settings.standardTag]

/-- The columns under a tag with the fields they come from. -/
def mapped (fields : List FieldMapping) (tag : String) : List (String × FieldMapping) :=
  fields.filterMap fun f => (f.column? tag).map (·, f)

/-- The columns under a tag; none if the tag is unknown or has no column. -/
def columns? (fields : List FieldMapping) (tag : String) : Option (List String) :=
  if tag ∈ knownTags fields then
    match mapped fields tag with
    | [] => none
    | columns => some (columns.map Prod.fst)
  else none

end FieldMapping

end BoundSql
