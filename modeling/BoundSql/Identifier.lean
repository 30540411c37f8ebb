import BoundSql.SqlError

/-!
# Identifiers

The name of a table or column as a non-empty list of parts.  Every part is
written between quote characters, with a quote character inside it doubled, so
no part can end its own quoting.
-/

namespace BoundSql

/-- A name of one or more parts. -/
structure Identifier where
  parts : List String
  parts_ne_nil : parts ≠ []
  deriving DecidableEq

namespace Identifier

/-- A name of one part, dots and all. -/
def single (name : String) : Identifier := ⟨[name], by simp⟩

/-- The pieces of a text between dots; there is always one. -/
def splitDots : List Char → List (List Char)
  | [] => [[]]
  | c :: rest =>
    if c = '.' then [] :: splitDots rest
    else
      match splitDots rest with
      | [] => [[c]]
      | piece :: pieces => (c :: piece) :: pieces

/-- Even an empty text has a part. -/
theorem splitDots_ne_nil (cs : List Char) : splitDots cs ≠ [] := by
  cases cs with
  | nil => simp [splitDots]
  | cons c rest =>
    simp only [splitDots]
    split
    · simp
    · split <;> simp

/-- The name whose parts stand between the dots of a text. -/
def ofText (name : String) : Identifier :=
  ⟨(splitDots name.toList).map String.ofList, by simpa using splitDots_ne_nil name.toList⟩

/-- The parts with dots between them. -/
def name (i : Identifier) : String := ".".intercalate i.parts

/-- Why a name is refused. -/
inductive Fault
  | empty
  | nul
  | emptyPart (name : String)
  deriving DecidableEq

/-- The wording of a fault. -/
def Fault.message : Fault → String
  | .empty => "Identifier cannot be empty"
  | .nul => "Identifier cannot contain NUL character"
  | .emptyPart name => s!"Empty segment in identifier '{name}'"

/-- What is wrong with a name: a part is empty or has a NUL character. -/
def fault? (i : Identifier) : Option Fault :=
  if i.name = "" then some .empty
  else if i.name.toList.contains '\x00' then some .nul
  else if i.parts.contains "" then some (.emptyPart i.name)
  else none

/-- Refuses a name with a fault. -/
def validate (i : Identifier) : Except SqlError Unit :=
  match i.fault? with
  | some fault => .error (.validation fault.message)
  | none => .ok ()

/-- A part between quote characters, those inside it doubled. -/
def quotePart (quote : Char) (part : String) : List Char :=
  quote :: part.toList.flatMap (fun c => if c = quote then [quote, quote] else [c]) ++ [quote]

/-- The quoted parts with dots between them. -/
def quoteParts (quote : Char) : List String → List Char
  | [] => []
  | [part] => quotePart quote part
  | part :: rest => quotePart quote part ++ '.' :: quoteParts quote rest

/-- The name as it is written in a statement. -/
def toSql (i : Identifier) (quote : Char) : String := String.ofList (quoteParts quote i.parts)

end Identifier

end BoundSql
