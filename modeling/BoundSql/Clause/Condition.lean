import BoundSql.ConditionText.Parser
import BoundSql.Filter.Predicate
import BoundSql.Predicate.Render

/-!
# Conditions

WHERE and HAVING take a condition in any of five forms and join all conditions by
AND, in the order in which they were added.  A condition is resolved to a
predicate when it is added, so that faults are found early; one without content
resolves to nothing.
-/

namespace BoundSql

/-- Equalities of columns with values, all of which must hold. -/
def Predicate.ofEqualities (m : ValueMap) : Option Predicate :=
  match m.entries.map fun (column, v) => columnIs (Identifier.ofText column) .eq v with
  | [] => none
  | [only] => some only
  | several => some (.and several)

/-- What WHERE and HAVING take. -/
inductive Condition
  /-- Raw SQL with values for its markers. -/
  | raw (sql : String) (values : List Value)
  | predicate (p : Predicate)
  | equalities (m : ValueMap)
  /-- Text to be parsed. -/
  | text (s : String)
  /-- A filter document. -/
  | filter (f : Filter)

namespace Condition

/-- The predicate of a condition before its content is looked at. -/
def predicate? (clause : String) : Condition → Except SqlError (Option Predicate)
  | .raw sql values =>
    if Text.allBlank sql then
      if values.isEmpty then .ok none
      else .error (.validation s!"{clause}: empty fragment given {values.length} value(s)")
    else .ok (some (.raw sql values))
  | .predicate p => .ok (some p)
  | .equalities m => .ok (Predicate.ofEqualities m)
  | .text s => (Predicate.ofText s).map some
  | .filter f => f.toPredicate

/-- The predicate of a condition that has content; a fault in a raw fragment is
reported for the clause. -/
def resolve (clause : String) (c : Condition) : Except SqlError (Option Predicate) := do
  match ← c.predicate? clause with
  | some p =>
    if p.isEmpty then return none
    else
      p.validate.mapError (SqlError.inContext clause)
      return some p
  | none => return none

end Condition

namespace Predicate

/-- A predicate in a list of several: a raw fragment stands in parentheses. -/
def isolatedLayout (p : Predicate) : Layout :=
  match p with
  | .raw sql values => .chunks (.word "(" :: Chunk.ofRaw sql values ++ [.word ")"])
  | _ => p.layout

/-- Predicates joined by AND; a single one stands as it is. -/
def conjunction : List Predicate → Layout
  | [only] => only.layout
  | ps => .joined false " AND " (ps.map isolatedLayout)

/-- Joined predicates as a template, if every placeholder has a text. -/
def conjoin (quote : Char) (ps : List Predicate) : Template := (conjunction ps).template quote

end Predicate

end BoundSql
