import BoundSql.Record.Mapping
import BoundSql.Row

/-!
# Records

A record lists its columns and values under a tag.  A record type also knows its
columns without a record, and reads a record from a row by its columns under the
standard tag.
-/

namespace BoundSql

/-- A source of column values: what it has under a tag, if anything. -/
structure Record where
  fields : String → Option (List (String × Value))

namespace Record

/-- The columns and values under a tag; a record without any is an error that
names the record's place. -/
def fieldsAt (r : Record) (tag : String) (index : Nat) :
    Except SqlError (List (String × Value)) :=
  match r.fields tag with
  | some (field :: fields) => .ok (field :: fields)
  | _ => .error (.schema s!"record {index} has no field mapping for tag '{tag}'")

end Record

/-- A type of records that rows are read into. -/
structure RecordType (α : Type) where
  name : String
  columns : String → Option (List String)
  fromRow : Row → Except SqlError α

namespace RecordType

/-- The columns under a tag; a type without any is an error. -/
def columnsAt {α : Type} (t : RecordType α) (tag : String) : Except SqlError (List String) :=
  match t.columns tag with
  | some (column :: columns) => .ok (column :: columns)
  | _ => .error (.schema s!"{t.name} has no column mapping for tag '{tag}'")

/-- The type whose records are made from the records of another. -/
def map {α β : Type} (t : RecordType α) (f : α → β) : RecordType β :=
  ⟨t.name, t.columns, fun row => (t.fromRow row).map f⟩

end RecordType

/-- A field of a record type: its mapping, its codec, and what it holds when no
column is read for it. -/
structure Field where
  mapping : FieldMapping
  Carrier : Type
  codec : Codec Carrier
  absent : Carrier

/-- A record: a datum for each field. -/
def Fields : List Field → Type
  | [] => Unit
  | f :: fs => f.Carrier × Fields fs

namespace Fields

/-- The columns of a record with their values under a tag. -/
def mapped (tag : String) : (fs : List Field) → Fields fs → List (String × Value)
  | [], () => []
  | f :: fs, (datum, rest) =>
    match f.mapping.column? tag with
    | some column => (column, f.codec.encode datum) :: mapped tag fs rest
    | none => mapped tag fs rest

/-- The columns of a record with their values under a tag; none if the tag is
unknown or has no column. -/
def fields (fs : List Field) (r : Fields fs) (tag : String) : Option (List (String × Value)) :=
  if tag ∈ FieldMapping.knownTags (fs.map Field.mapping) then
    match mapped tag fs r with
    | [] => none
    | pairs => some pairs
  else none

/-- Reads a record from a row by its columns under the standard tag. -/
def fromRow : (fs : List Field) → Row → Except SqlError (Fields fs)
  | [], _ => .ok ()
  | f :: fs, row =>
    match f.mapping.column? Settings.standardTag with
    | some column =>
      match row.decode f.codec column with
      | .error e => .error e
      | .ok datum => (fromRow fs row).map (datum, ·)
    | none => (fromRow fs row).map (f.absent, ·)

end Fields

namespace Record

/-- A record of given fields as a source of column values. -/
def ofFields (fs : List Field) (r : Fields fs) : Record := ⟨Fields.fields fs r⟩

end Record

namespace RecordType

/-- The record type of given fields. -/
def ofFields (name : String) (fs : List Field) : RecordType (Fields fs) :=
  ⟨name, FieldMapping.columns? (fs.map Field.mapping), Fields.fromRow fs⟩

end RecordType

end BoundSql
