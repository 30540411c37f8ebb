import BoundSql.Record.Attribute

/-!
# Declarations of record types

What a record type is declared with, and what follows from it: for every tag the
columns and the fields they come from, and for every field the column that it is
read from.  Only structures with named fields have columns.
-/

namespace BoundSql

/-- A field as it is declared. -/
structure DeclaredField where
  name : String
  /-- The texts of its mapping attributes. -/
  attributes : List String

/-- A type as it is declared. -/
inductive Declaration
  /-- A structure with named fields. -/
  | named (fields : List DeclaredField)
  /-- A structure whose fields have no names, or that has none. -/
  | unnamed
  /-- Anything but a structure. -/
  | alternatives

/-- What is derived from a declaration. -/
inductive Derivation
  /-- The columns and values of a record. -/
  | record
  /-- The record of a row. -/
  | fromRow
  deriving DecidableEq

/-- How a derivation is called in messages. -/
def Derivation.name : Derivation → String
  | .record => "Record"
  | .fromRow => "FromRow"

/-- Why nothing is derived from a declaration. -/
inductive DeclarationFault
  | unnamedFields (derivation : Derivation)
  | notStructure (derivation : Derivation)
  | attribute (fault : AttributeFault)
  deriving DecidableEq

/-- The wording of a fault. -/
def DeclarationFault.message : DeclarationFault → String
  | .unnamedFields d => s!"{d.name} can only be derived for structs with named fields"
  | .notStructure d => s!"{d.name} can only be derived for structs"
  | .attribute fault => fault.message

namespace Declaration

/-- The mappings of the fields of a declaration. -/
def mappings (derivation : Derivation) : Declaration → Except DeclarationFault (List FieldMapping)
  | .named fields =>
    (fields.mapM fun f => FieldMapping.ofAttributes f.name f.attributes).mapError .attribute
  | .unnamed => .error (.unnamedFields derivation)
  | .alternatives => .error (.notStructure derivation)

/-- The columns of a record for every tag that has some, each with the name of the field
it comes from. -/
def recordColumns (d : Declaration) :
    Except DeclarationFault (List (String × List (String × String))) := do
  let fields ← d.mappings .record
  return (FieldMapping.knownTags fields).filterMap fun tag =>
    match FieldMapping.mapped fields tag with
    | [] => none
    | columns => some (tag, columns.map fun (column, f) => (column, f.name))

/-- The fields of a record, each with the column that it is read from; without a column a
field gets its default. -/
def rowColumns (d : Declaration) :
    Except DeclarationFault (List (String × Option String)) := do
  return (← d.mappings .fromRow).map fun f => (f.name, f.column? Settings.standardTag)

end Declaration

end BoundSql
