import BoundSql.KeyMap
import BoundSql.Number.Binary

/-!
# JSON values

A JSON value as a program holds it.  Integers of 64 bits, signed or unsigned,
stay exact; every other number is a finite double.  The members of an object are
in code-point order of their keys, each key once.
-/

namespace BoundSql

/-- A JSON number. -/
inductive JsonNumber
  /-- An integer of 64 bits, signed or unsigned. -/
  | integer (n : Int) (lower : -0x8000000000000000 ≤ n) (upper : n < 0x10000000000000000)
  /-- A finite double. -/
  | double (d : Double) (finite : d.isFinite = true)
  deriving DecidableEq

/-- A JSON value. -/
inductive Json
  | null
  | bool (b : Bool)
  | number (n : JsonNumber)
  | string (s : String)
  | array (items : List Json)
  | object (members : List (String × Json))
  deriving Inhabited

namespace Json

/-- The object with the given members; of equal keys the last one counts. -/
def ofMembers (members : List (String × Json)) : Json := .object (KeyMap.ofList members).entries

mutual

/-- Every object in the value has its keys in strictly increasing order. -/
def Ordered : Json → Prop
  | .array items => itemsOrdered items
  | .object members => (members.Pairwise fun a b => a.1 < b.1) ∧ membersOrdered members
  | _ => True

def itemsOrdered : List Json → Prop
  | [] => True
  | item :: rest => item.Ordered ∧ itemsOrdered rest

def membersOrdered : List (String × Json) → Prop
  | [] => True
  | (_, value) :: rest => value.Ordered ∧ membersOrdered rest

end

end Json

end BoundSql
