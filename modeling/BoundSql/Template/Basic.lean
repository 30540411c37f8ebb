import BoundSql.Dialect
import BoundSql.Value.Basic

/-!
# Templates

A statement before its placeholders are written: pieces of text with bound values
between them.  The style of the placeholders comes in only when the template is
emitted, and the values never come into the text at all.  Emitting numbers the
placeholders from left to right over the whole statement, so the `k`-th
placeholder always stands for the `k`-th parameter.
-/

namespace BoundSql

/-- A statement's text and the parameters of its placeholders, in order. -/
structure Statement where
  sql : String
  params : List Value

/-- A piece of a template. -/
inductive Piece
  /-- Text of the statement. -/
  | text (s : String)
  /-- A place for a bound value. -/
  | bind (v : Value)

/-- Text with bound values between its pieces. -/
abbrev Template := List Piece

namespace Piece

/-- An empty text. -/
def isEmpty : Piece → Bool
  | .text s => s.isEmpty
  | .bind _ => false

end Piece

namespace Template

/-- A template without any text and any bound value. -/
def isBlank (t : Template) : Bool := t.all Piece.isEmpty

/-- The bound values from left to right. -/
def params : Template → List Value
  | [] => []
  | .text _ :: rest => params rest
  | .bind v :: rest => v :: params rest

/-- The text, with placeholders numbered from `index`. -/
def sqlFrom (p : Placeholder) : Nat → Template → String
  | _, [] => ""
  | index, .text s :: rest => s ++ sqlFrom p index rest
  | index, .bind _ :: rest => p.render index ++ sqlFrom p (index + 1) rest

/-- The text and the parameters under a style of placeholders. -/
def emit (t : Template) (p : Placeholder) : Statement := ⟨sqlFrom p 0 t, params t⟩

/-- Templates one after another with a text between them. -/
def join (separator : String) : List Template → Template
  | [] => []
  | [t] => t
  | t :: rest => t ++ .text separator :: join separator rest

/-- Two templates bind their values one after the other. -/
theorem params_append (s t : Template) : params (s ++ t) = params s ++ params t := by
  induction s with
  | nil => rfl
  | cons piece rest ih => cases piece <;> simp [params, ih]

/-- The text of two templates is the text of the first, then that of the second
with its placeholders numbered on. -/
theorem sqlFrom_append (p : Placeholder) (index : Nat) (s t : Template) :
    sqlFrom p index (s ++ t) = sqlFrom p index s ++ sqlFrom p (index + (params s).length) t := by
  induction s generalizing index with
  | nil => simp [sqlFrom, params]
  | cons piece rest ih =>
    cases piece with
    | text s => simp [sqlFrom, params, ih, String.append_assoc]
    | bind v => simp [sqlFrom, params, ih, String.append_assoc, Nat.add_assoc, Nat.add_comm]

end Template

end BoundSql
