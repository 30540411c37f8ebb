import BoundSql.Template.Basic

/-!
# Markers

Raw SQL marks the places of its values by `?`.  A marker inside a quoted section
is text; sections are opened by one of the three quote characters of SQL and
closed by the same one.
-/

namespace BoundSql

namespace Quoting

/-- A character that opens a quoted section. -/
def opens (c : Char) : Bool := c == '\x27' || c == '\x22' || c == '\x60'

/-- The quote character of the section in which the text goes on after `c`, if it
goes on inside one. -/
def after (section? : Option Char) (c : Char) : Option Char :=
  match section? with
  | some quote => if c = quote then none else some quote
  | none => if opens c then some c else none

end Quoting

namespace Marker

/-- The texts between the markers, one more than there are markers. -/
def segments : Option Char → List Char → List (List Char)
  | _, [] => [[]]
  | section?, c :: rest =>
    if section? = none ∧ c = '?' then [] :: segments none rest
    else
      match segments (Quoting.after section? c) rest with
      | [] => [[c]]
      | segment :: more => (c :: segment) :: more

/-- The number of markers in a text. -/
def count (sql : String) : Nat := (segments none sql.toList).length - 1

/-- Segments with values in the gaps between them; where the values have run out
the marker itself stays. -/
def fill : List (List Char) → List Value → Template
  | [], _ => []
  | [segment], _ => [.text (String.ofList segment)]
  | segment :: rest, [] => .text (String.ofList segment) :: .text "?" :: fill rest []
  | segment :: rest, v :: values => .text (String.ofList segment) :: .bind v :: fill rest values

end Marker

/-- Raw SQL with values for its markers in order. -/
def Template.ofRaw (sql : String) (values : List Value) : Template :=
  Marker.fill (Marker.segments none sql.toList) values

end BoundSql
