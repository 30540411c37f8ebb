import BoundSql.Record.Attribute.Comment
import BoundSql.Text.Blank
import BoundSql.Text.Digits

/-!
# Tokens of mapping attributes

The text of an attribute is cut into words, quoted texts, the signs `=` and `,`,
and anything else, of which no attribute has a use.  White space and comments
divide tokens.

| quoted text | its characters |
| --- | --- |
| `"…"` | with escapes, as far as the first quote that no backslash precedes |
| `r"…"` | as they are, up to the next quote |
| `r#"…"#` | as they are, up to the next quote with as many `#` after it |

A word directly after a quoted text is part of it and without meaning.
-/

namespace BoundSql

namespace Attribute

/-- A token of an attribute. -/
inductive Token
  | word (text : String)
  | quoted (text : String)
  | equals
  | comma
  /-- What no attribute has a use for. -/
  | other
  deriving DecidableEq

namespace Token

/-- White space, and the two marks of the writing direction. -/
def isGap (c : Char) : Bool := Text.isBlank c || c == '\u200E' || c == '\u200F'

/-- A character that a word may begin with.  All characters past ASCII are letters
here, but for white space. -/
def isWordStart (c : Char) : Bool :=
  c.isAlpha || c == '_' || (0x80 ≤ c.toNat && !isGap c)

/-- A character that a word may go on with. -/
def isWordPart (c : Char) : Bool := isWordStart c || c.isDigit

/-- The length of the word at the front, zero if there is none. -/
def wordLength : List Char → Nat
  | [] => 0
  | c :: rest => if isWordStart c then 1 + (rest.takeWhile isWordPart).length else 0

/-- The number of characters before the quote that ends a text with escapes. -/
def escapedLength? : List Char → Option Nat
  | [] => none
  | '"' :: _ => some 0
  | '\\' :: _ :: rest => (escapedLength? rest).map (2 + ·)
  | _ :: rest => (escapedLength? rest).map (1 + ·)

/-- The number of characters before a quote with `hashes` hash signs after it. -/
def rawLength? (hashes : Nat) : List Char → Option Nat
  | [] => none
  | c :: rest =>
    if ('"' :: List.replicate hashes '#').isPrefixOf (c :: rest) then some 0
    else (rawLength? hashes rest).map (1 + ·)

/-- The character that one character after a backslash stands for. -/
def escapes : List (Char × Char) :=
  [('n', '\n'), ('r', '\r'), ('t', '\t'), ('\\', '\\'), ('0', '\x00'), ('\x27', '\x27'), ('"', '"')]

/-- What a backslash at the end of a line swallows: less than all white space. -/
def isIndent (c : Char) : Bool := c == ' ' || c == '\t' || c == '\n' || c == '\r'

/-- The characters that a text with escapes stands for, if all of them are known.  A
backslash at the end of a line joins it to the next line without its indent, and a
line that ends in carriage return and line feed ends in a line feed. -/
def unescape? : List Char → Option (List Char)
  | [] => some []
  | '\r' :: '\n' :: rest => (unescape? rest).map ('\n' :: ·)
  | '\\' :: 'x' :: a :: b :: rest => do
    let n ← Text.natOfHex? [a, b]
    if n < 0x80 then (unescape? rest).map (Char.ofNat n :: ·) else none
  | '\\' :: 'u' :: '\x7b' :: rest => do
    let digits := (rest.takeWhile (· != '\x7d')).filter (· != '_')
    let n ← Text.natOfHex? digits
    if n.isValidChar then
      (unescape? ((rest.dropWhile (· != '\x7d')).drop 1)).map (Char.ofNat n :: ·)
    else none
  | '\\' :: '\n' :: rest => unescape? (rest.dropWhile isIndent)
  | '\\' :: '\r' :: rest => unescape? (rest.dropWhile isIndent)
  | '\\' :: c :: rest => do
    let d ← escapes.lookup c
    (unescape? rest).map (d :: ·)
  | c :: rest => (unescape? rest).map (c :: ·)
termination_by cs => cs.length
decreasing_by
  all_goals simp only [List.length_cons, List.length_drop]
  any_goals have h := (List.dropWhile_suffix (· != '\x7d') (l := rest)).length_le
  any_goals have h' := (List.dropWhile_suffix isIndent (l := rest)).length_le
  all_goals omega

/-- The token of a quoted text, and how many characters of `rest` it takes up: `length`
as far as its last quote or hash sign, and the word after it. -/
def quotedToken (text? : Option (List Char)) (length : Nat) (rest : List Char) : Token × Nat :=
  match text? with
  | some cs => (.quoted (String.ofList cs), length + wordLength (rest.drop length))
  | none => (.other, 0)

/-- The text with escapes whose opening quote comes before `rest`. -/
def readEscaped (rest : List Char) : Token × Nat :=
  match escapedLength? rest with
  | some n => quotedToken (unescape? (rest.take n)) (n + 1) rest
  | none => (.other, 0)

/-- The raw text whose `r` comes before `rest`, if hash signs and a quote follow. -/
def readRaw? (rest : List Char) : Option (Token × Nat) :=
  let hashes := (rest.takeWhile (· == '#')).length
  match rest.drop hashes with
  | '"' :: body =>
    (rawLength? hashes body).map fun n =>
      quotedToken (some (body.take n)) (hashes + 1 + n + 1 + hashes) rest
  | _ => none

/-- What literals begin with that hold bytes or end in a zero byte, and so no text. -/
def byteLiterals : List String := ["b\"", "b'", "br\"", "br#", "c\"", "cr\"", "cr#"]

/-- The word that begins with `c`; `r#` may stand before a word and belongs to it. -/
def readWord (c : Char) (rest : List Char) : Token × Nat :=
  let raw := match c, rest with
    | 'r', '#' :: more => wordLength more
    | _, _ => 0
  let n := if raw = 0 then (rest.takeWhile isWordPart).length else 1 + raw
  (.word (String.ofList (c :: rest.take n)), n)

/-- The token that begins with `c`, and how many of the characters after `c` belong
to it. -/
def read (c : Char) (rest : List Char) : Token × Nat :=
  if c = '=' then (.equals, 0)
  else if c = ',' then (.comma, 0)
  else if c = '"' then readEscaped rest
  else if byteLiterals.any fun s => s.toList.isPrefixOf (c :: rest) then (.other, 0)
  else if isWordStart c then
    match if c = 'r' then readRaw? rest else none with
    | some r => r
    | none => readWord c rest
  else (.other, 0)

/-- The tokens of a text. -/
def scan : List Char → List Token
  | [] => []
  | c :: rest =>
    if isGap c then scan rest
    else
      match _h : Comment.after? (c :: rest) with
      | some rest => scan rest
      | none =>
        let (token, n) := read c rest
        token :: scan (rest.drop n)
termination_by cs => cs.length
decreasing_by
  · simp only [List.length_cons]; omega
  · exact Comment.length_after? _h
  · simp only [List.length_cons, List.length_drop]; omega

end Token

end Attribute

end BoundSql
