import BoundSql.Predicate.Basic
import BoundSql.Template.Layout
import BoundSql.Template.Marker
import BoundSql.Text.Blank

/-!
# Predicates in SQL

Every value becomes a bound place, every column a quoted identifier.  Members of a
group that have no content are dropped, and so are those whose text is empty; a
group of two or more stands in parentheses, and so does the body of a negation,
hence no operator can bind across them.
-/

namespace BoundSql

namespace Chunk

/-- A side of a comparison. -/
def ofOperand : Operand → Chunk
  | .column name => .column name
  | .value v => .bind v

/-- Raw SQL with values for its markers in order. -/
def ofRaw (sql : String) (values : List Value) : List Chunk :=
  (Template.ofRaw sql values).map ofPiece

end Chunk

namespace Predicate

mutual

/-- A predicate without content: a blank fragment, a group without a member that
has content, or the negation of such. -/
def isEmpty : Predicate → Bool
  | .and members => allEmpty members
  | .or members => allEmpty members
  | .not body => body.isEmpty
  | .raw sql _ => Text.allBlank sql
  | _ => false

def allEmpty : List Predicate → Bool
  | [] => true
  | p :: rest => p.isEmpty && allEmpty rest

end

/-- A raw fragment whose markers and values differ in number. -/
structure MarkerFault where
  sql : String
  markers : Nat
  values : Nat
  deriving DecidableEq

/-- The wording of a fault. -/
def MarkerFault.message (f : MarkerFault) : String :=
  s!"raw fragment '{f.sql}' has {f.markers} placeholder(s) but {f.values} value(s)"

/-- What is wrong with a raw fragment. -/
def rawFault? (sql : String) (values : List Value) : Option MarkerFault :=
  if Marker.count sql = values.length then none
  else some ⟨sql, Marker.count sql, values.length⟩

mutual

/-- The first raw fragment with a fault, from left to right. -/
def fault? : Predicate → Option MarkerFault
  | .and members => firstFault? members
  | .or members => firstFault? members
  | .not body => body.fault?
  | .raw sql values => rawFault? sql values
  | _ => none

def firstFault? : List Predicate → Option MarkerFault
  | [] => none
  | p :: rest =>
    match p.fault? with
    | some fault => some fault
    | none => firstFault? rest

end

/-- Refuses a predicate with a fault in a raw fragment. -/
def validate (p : Predicate) : Except SqlError Unit :=
  match p.fault? with
  | some fault => .error (.validation fault.message)
  | none => .ok ()

mutual

/-- The predicate as a layout. -/
def layout : Predicate → Layout
  | .and members => .joined true " AND " (memberLayouts members)
  | .or members => .joined true " OR " (memberLayouts members)
  | .not body => .framed "NOT (" body.layout (some ")")
  | .compare left op right =>
    .chunks [.ofOperand left, .word (" " ++ op.toSql ++ " "), .ofOperand right]
  | .nullTest column negated =>
    .chunks [.column column, .word (if negated then " IS NOT NULL" else " IS NULL")]
  | .oneOf column values negated =>
    .chunks <| .column column :: .word (if negated then " NOT IN (" else " IN (") ::
      Chunk.join ", " (values.map fun v => [.bind v]) ++ [.word ")"]
  | .raw sql values => .chunks (Chunk.ofRaw sql values)

def memberLayouts : List Predicate → List Layout
  | [] => []
  | p :: rest => if p.isEmpty then memberLayouts rest else p.layout :: memberLayouts rest

end

/-- The predicate by itself under a dialect. -/
def toSql (p : Predicate) (d : Dialect) : Statement := p.layout.write d

/-- The predicate as a template, if every placeholder has a text. -/
def template (quote : Char) (p : Predicate) : Template := p.layout.template quote

end Predicate

end BoundSql
