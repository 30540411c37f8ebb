import BoundSql.Identifier
import BoundSql.Template.Basic

/-!
# Layouts

A statement before it is decided which of its parts are written.  The pieces of a layout are
words of SQL, identifiers and bound values.  A part whose text is empty is left out together
with the words around it: the keyword of a clause, the parentheses of a negation, a separator
in a list.  A custom style may write a placeholder as nothing, so a layout is resolved under
a dialect, every part behind the parameters of the parts in front of it.  The values of a
part that is left out are parameters of the statement all the same.
-/

namespace BoundSql

/-- A piece of a statement before identifiers are quoted. -/
inductive Chunk
  /-- Text of the statement that is no identifier. -/
  | word (s : String)
  | column (name : Identifier)
  /-- A place for a bound value. -/
  | bind (v : Value)

namespace Chunk

/-- The piece of the template. -/
def piece (quote : Char) : Chunk → Piece
  | .word s => .text s
  | .column name => .text (name.toSql quote)
  | .bind v => .bind v

/-- A piece of raw SQL. -/
def ofPiece : Piece → Chunk
  | .text s => .word s
  | .bind v => .bind v

/-- The value of a bound place. -/
def value? : Chunk → Option Value
  | .bind v => some v
  | _ => none

/-- The bound values in order. -/
def values (cs : List Chunk) : List Value := cs.filterMap value?

/-- Sequences with a word between them. -/
def join (separator : String) : List (List Chunk) → List Chunk
  | [] => []
  | [cs] => cs
  | cs :: rest => cs ++ .word separator :: join separator rest

/-- Identifiers with commas between them. -/
def list (names : List Identifier) : List Chunk := join ", " (names.map fun name => [.column name])

/-- A sequence without any text, column and bound value. -/
def isBlank (cs : List Chunk) : Bool :=
  cs.all fun c =>
    match c with
    | .word s => s.isEmpty
    | _ => false

/-- The text under a dialect, with placeholders numbered from `index`. -/
def sqlFrom (d : Dialect) (index : Nat) (cs : List Chunk) : String :=
  Template.sqlFrom d.placeholder index (cs.map (piece d.quote))

/-- The finished statement. -/
def write (d : Dialect) (cs : List Chunk) : Statement :=
  Template.emit (cs.map (piece d.quote)) d.placeholder

end Chunk

/-- Decides whether something is seen of a sequence that stands behind a number of
parameters. -/
abbrev Sight := Nat → List Chunk → Bool

/-- Under a dialect something is seen of what has a text. -/
def Dialect.sight (d : Dialect) : Sight := fun index cs => !(Chunk.sqlFrom d index cs).isEmpty

/-- Where every placeholder has a text, something is seen of what is not blank. -/
def Sight.full : Sight := fun _ cs => !Chunk.isBlank cs

/-- A part of a layout in its place. -/
structure Placed where
  chunks : List Chunk
  /-- Something of the part is seen. -/
  seen : Bool

namespace Placed

/-- What stands in the place of a part: if nothing of it is seen, its bound values alone. -/
def kept (p : Placed) : List Chunk :=
  if p.seen then p.chunks else (Chunk.values p.chunks).map .bind

/-- A part between words, if something of it is seen. -/
def framed (before : String) (after? : Option String) (p : Placed) : List Chunk :=
  if p.seen then .word before :: p.chunks ++ after?.toList.map .word else p.kept

/-- Parts with a separator in front of each one that is seen, the first apart; `started` says
that there was one before. -/
def separate (separator : String) : Bool → List Placed → List Chunk
  | _, [] => []
  | started, p :: rest =>
    (if started && p.seen then .word separator :: p.kept else p.kept) ++
      separate separator (started || p.seen) rest

/-- Parts with a separator between those that are seen, in parentheses if there are several
and it is asked for. -/
def gather (enclosed : Bool) (separator : String) (parts : List Placed) : List Chunk :=
  if enclosed && 2 ≤ (parts.filter Placed.seen).length then
    .word "(" :: separate separator false parts ++ [.word ")"]
  else separate separator false parts

end Placed

/-- A statement with optional parts. -/
inductive Layout
  | chunks (cs : List Chunk)
  | append (first second : Layout)
  /-- A part between words. -/
  | framed (before : String) (body : Layout) (after? : Option String)
  /-- Parts with a separator between them, several of them in parentheses or not. -/
  | joined (enclosed : Bool) (separator : String) (members : List Layout)

namespace Layout

mutual

/-- The pieces of all parts in order, without the words around the parts. -/
def leaves : Layout → List Chunk
  | .chunks cs => cs
  | .append first second => first.leaves ++ second.leaves
  | .framed _ body _ => body.leaves
  | .joined _ _ members => leavesOf members

def leavesOf : List Layout → List Chunk
  | [] => []
  | l :: rest => l.leaves ++ leavesOf rest

end

/-- The bound values in order. -/
def values (l : Layout) : List Value := Chunk.values l.leaves

mutual

/-- What is written of a layout that stands behind `index` parameters. -/
def resolve (seen : Sight) : Nat → Layout → List Chunk
  | _, .chunks cs => cs
  | index, .append first second =>
    first.resolve seen index ++ second.resolve seen (index + first.values.length)
  | index, .framed before body after? =>
    let cs := body.resolve seen index
    Placed.framed before after? ⟨cs, seen index cs⟩
  | index, .joined enclosed separator members =>
    Placed.gather enclosed separator (parts seen index members)

/-- Layouts one after another in their places. -/
def parts (seen : Sight) : Nat → List Layout → List Placed
  | _, [] => []
  | index, l :: rest =>
    let cs := l.resolve seen index
    ⟨cs, seen index cs⟩ :: parts seen (index + l.values.length) rest

end

/-- The statement under a dialect. -/
def write (l : Layout) (d : Dialect) : Statement := Chunk.write d (l.resolve d.sight 0)

/-- What is written of a layout if every placeholder has a text. -/
def full (l : Layout) : List Chunk := l.resolve .full 0

/-- The layout as a template, if every placeholder has a text. -/
def template (quote : Char) (l : Layout) : Template := l.full.map (Chunk.piece quote)

end Layout

end BoundSql
