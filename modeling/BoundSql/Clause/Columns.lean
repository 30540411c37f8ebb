import BoundSql.Predicate.Render

/-!
# Column clauses

GROUP BY and ORDER BY take a list of columns, raw SQL, or an expression.
-/

namespace BoundSql

/-- A sort direction. -/
inductive Direction
  | asc | desc
  deriving DecidableEq

/-- The direction in SQL. -/
def Direction.toSql : Direction → String
  | .asc => "ASC"
  | .desc => "DESC"

/-- A column and, if given, its sort direction. -/
structure OrderItem where
  column : Identifier
  direction? : Option Direction
  deriving DecidableEq

/-- What GROUP BY and ORDER BY take. -/
inductive ColumnClause
  | columns (items : List OrderItem)
  /-- Raw SQL with values for its markers. -/
  | raw (sql : String) (values : List Value)
  | predicate (p : Predicate) (direction? : Option Direction)

namespace ColumnClause

/-- Refuses the columns that cannot be identifiers. -/
def validateColumns : List OrderItem → Except SqlError Unit
  | [] => .ok ()
  | item :: rest => do
    item.column.validate
    validateColumns rest

/-- Checks identifiers and the number of values, for the clause of a name. -/
def validate (clause : String) : ColumnClause → Except SqlError Unit
  | .columns items => (validateColumns items).mapError (SqlError.inContext clause)
  | .raw sql values => (Predicate.raw sql values).validate.mapError (SqlError.inContext clause)
  | .predicate p _ => p.validate.mapError (SqlError.inContext clause)

/-- A clause without content. -/
def isEmpty : ColumnClause → Bool
  | .columns items => items.isEmpty
  | .raw sql _ => Text.allBlank sql
  | .predicate p _ => p.isEmpty

/-- A direction after what it sorts by. -/
def directionChunks : Option Direction → List Chunk
  | some d => [.word (" " ++ d.toSql)]
  | none => []

/-- The clause without its keyword. -/
def layout : ColumnClause → Layout
  | .columns items =>
    .chunks <| Chunk.join ", " <| items.map fun item =>
      .column item.column :: directionChunks item.direction?
  | .raw sql values => .chunks (Chunk.ofRaw sql values)
  | .predicate p direction? => .append p.layout (.chunks (directionChunks direction?))

/-- The clause as a template, if every placeholder has a text. -/
def template (quote : Char) (c : ColumnClause) : Template := c.layout.template quote

end ColumnClause

end BoundSql
