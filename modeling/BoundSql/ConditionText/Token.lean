import BoundSql.Predicate.Basic
import BoundSql.Template.Named
import BoundSql.Text.Blank

/-!
# Tokens of condition text

The text of a condition is cut into lexemes with white space between them.  A
lexeme is as long as it can be, and its characters alone determine its token:

| lexeme | token |
| --- | --- |
| `'it''s'` | string |
| `-12`, `1.5` | integer of 64 bits, float |
| `name`, `t.name` | name, or a keyword in any case |
| `=` `!=` `<>` `<` `<=` `>` `>=` | comparison |
| `(` `)` `,` | themselves |

Statement separators, comment marks, quoted identifiers and the word SELECT are
refused wherever they begin a lexeme.
-/

namespace BoundSql

namespace ConditionText

/-- The words with a meaning of their own. -/
inductive Keyword
  | and | or | not | is | null | in | between | like | true | false
  deriving DecidableEq

namespace Keyword

/-- The word in capitals. -/
def word : Keyword → String
  | .and => "AND"
  | .or => "OR"
  | .not => "NOT"
  | .is => "IS"
  | .null => "NULL"
  | .in => "IN"
  | .between => "BETWEEN"
  | .like => "LIKE"
  | .true => "TRUE"
  | .false => "FALSE"

def all : List Keyword := [.and, .or, .not, .is, .null, .in, .between, .like, .true, .false]

/-- The keyword that a word in capitals spells. -/
def ofWord? (word : String) : Option Keyword := all.find? (·.word == word)

/-- The value of a keyword that is a literal. -/
def literal? : Keyword → Option Value
  | .true => some (.bool Bool.true)
  | .false => some (.bool Bool.false)
  | .null => some .null
  | _ => none

end Keyword

/-- A token. -/
inductive Token
  | name (text : String)
  | string (s : String)
  | int (n : Int64)
  | float (d : Double)
  | comparison (op : Comparison)
  | keyword (k : Keyword)
  | open
  | close
  | comma
  deriving DecidableEq

namespace Token

/-- How a token is called in messages. -/
def describe : Token → String
  | .name text => s!"identifier '{text}'"
  | .string _ => "string literal"
  | .int _ => "number"
  | .float _ => "number"
  | .comparison op => s!"'{op.toSql}'"
  | .keyword k => k.word
  | .open => "'('"
  | .close => "')'"
  | .comma => "','"

/-- The value of a token that is a literal. -/
def literal? : Token → Option Value
  | .string s => some (.text s)
  | .int n => some (.int n)
  | .float d => some (.float d)
  | .keyword k => k.literal?
  | _ => none

end Token

/-- Why no token can be read at a place. -/
inductive LexFault
  | comment
  | separator
  | quotedIdentifier
  | unterminatedString
  | invalidNumber
  | integerRange
  | subquery
  | unexpected (c : Char)
  deriving DecidableEq

/-- The wording of a fault. -/
def LexFault.message : LexFault → String
  | .comment => "comment markers are not allowed"
  | .separator => "statement separator ';' is not allowed"
  | .quotedIdentifier => "quoted identifiers are not supported"
  | .unterminatedString => "unterminated string literal"
  | .invalidNumber => "invalid numeric literal"
  | .integerRange => "integer literal out of range"
  | .subquery => "subqueries are not allowed"
  | .unexpected c => s!"unexpected character '{c}'"

namespace Lexeme

/-- The quote of string literals. -/
def apostrophe : Char := '\x27'

/-- The characters of a string literal after its opening quote, closing quote
included; a doubled quote does not close it. -/
def stringExtent? : List Char → Option Nat
  | [] => none
  | [c] => if c = apostrophe then some 1 else none
  | c :: d :: rest =>
    if c = apostrophe then
      if d = apostrophe then (stringExtent? rest).map (· + 2) else some 1
    else (stringExtent? (d :: rest)).map (· + 1)

/-- The characters of a word after its first one.  A dot belongs to the word if
another name follows it. -/
def wordExtent : List Char → Nat
  | [] => 0
  | c :: rest =>
    if Named.inName c || (c = '.' && rest.head?.any Named.startsName) then wordExtent rest + 1
    else 0

/-- The characters of a number after its first one.  A point belongs to the
number if a digit follows it; a number must not run into a name or another
point. -/
def numberExtent (cs : List Char) : Except LexFault Nat :=
  let whole := (cs.takeWhile Char.isDigit).length
  let rest := cs.drop whole
  let fraction :=
    match rest with
    | '.' :: more =>
      let digits := (more.takeWhile Char.isDigit).length
      if digits = 0 then 0 else digits + 1
    | _ => 0
  if (rest.drop fraction).head?.any fun c => c == '.' || Named.inName c then
    .error .invalidNumber
  else .ok (whole + fraction)

/-- A comment mark at the front of a text. -/
def opensComment (c : Char) (rest : List Char) : Bool :=
  c == '#' || (c == '-' && rest.head? == some '-') || (c == '/' && rest.head? == some '*')

/-- A number at the front of a text. -/
def opensNumber (c : Char) (rest : List Char) : Bool :=
  c.isDigit || (c == '-' && rest.head?.any Char.isDigit)

/-- How many characters of `rest` belong to the lexeme that starts with `c`. -/
def extent (c : Char) (rest : List Char) : Except LexFault Nat :=
  if opensComment c rest then .error .comment
  else if c = ';' then .error .separator
  else if c = apostrophe then
    match stringExtent? rest with
    | some n => .ok n
    | none => .error .unterminatedString
  else if c = '\x22' || c = '\x60' then .error .quotedIdentifier
  else if c = '(' || c = ')' || c = ',' || c = '=' then .ok 0
  else if c = '!' && rest.head? = some '=' then .ok 1
  else if c = '<' then .ok (if rest.head? = some '=' || rest.head? = some '>' then 1 else 0)
  else if c = '>' then .ok (if rest.head? = some '=' then 1 else 0)
  else if opensNumber c rest then numberExtent rest
  else if Named.startsName c then .ok (wordExtent rest)
  else .error (.unexpected c)

/-- The text that a string literal stands for: its inside with every doubled quote
read as one. -/
def unquote : List Char → List Char
  | [] => []
  | [c] => if c = apostrophe then [] else [c]
  | c :: d :: rest =>
    if c = apostrophe then
      if d = apostrophe then apostrophe :: unquote rest else []
    else c :: unquote (d :: rest)

end Lexeme

namespace Token

/-- The token of a number. -/
def ofNumber (text : List Char) : Except LexFault Token :=
  let negative := text.head? == some '-'
  let body := if negative then text.drop 1 else text
  let whole := body.takeWhile Char.isDigit
  match body.drop whole.length with
  | [] =>
    let n : Int := if negative then -(Text.natOfDigits whole : Int) else Text.natOfDigits whole
    if -0x8000000000000000 ≤ n ∧ n < 0x8000000000000000 then .ok (.int (Int64.ofInt n)) else .error .integerRange
  | _ :: fraction =>
    .ok (.float (Double.ofDecimal negative (Text.natOfDigits (whole ++ fraction))
      (-(fraction.length : Int))))

/-- The token of a word. -/
def ofWord (text : List Char) : Except LexFault Token :=
  let capitals := String.ofList (text.map Char.toUpper)
  match Keyword.ofWord? capitals with
  | some k => .ok (.keyword k)
  | none =>
    if capitals = "SELECT" then .error .subquery else .ok (.name (String.ofList text))

/-- The token of a lexeme. -/
def read (text : List Char) : Except LexFault Token :=
  match text with
  | [] => .error .invalidNumber
  | c :: rest =>
    if c = Lexeme.apostrophe then .ok (.string (String.ofList (Lexeme.unquote rest)))
    else if c = '(' then .ok .open
    else if c = ')' then .ok .close
    else if c = ',' then .ok .comma
    else if text = ['='] then .ok (.comparison .eq)
    else if text = ['!', '='] then .ok (.comparison .ne)
    else if text = ['<', '>'] then .ok (.comparison .ne)
    else if text = ['<'] then .ok (.comparison .lt)
    else if text = ['<', '='] then .ok (.comparison .le)
    else if text = ['>'] then .ok (.comparison .gt)
    else if text = ['>', '='] then .ok (.comparison .ge)
    else if c = '-' || c.isDigit then ofNumber text
    else ofWord text

end Token

/-- A lexeme: its characters, the byte offset of the first one, and its token. -/
structure Lexeme where
  text : List Char
  offset : Nat
  token : Token

/-- A text as lexemes, up to the end or to the first place where none can be read. -/
structure Lexed where
  lexemes : List Lexeme
  /-- The byte offset where the lexemes end, white space passed over. -/
  stop : Nat
  /-- Why no lexeme starts at `stop`, unless the text ends there. -/
  fault? : Option LexFault

namespace Lexed

/-- Cuts a text that starts at a byte offset. -/
def scanFrom (offset : Nat) (cs : List Char) : Lexed :=
  let start := offset + Text.utf8Size (cs.takeWhile Text.isBlank)
  match _h : cs.dropWhile Text.isBlank with
  | [] => ⟨[], start, none⟩
  | c :: rest =>
    match Lexeme.extent c rest with
    | .error fault => ⟨[], start, some fault⟩
    | .ok n =>
      let text := c :: rest.take n
      match Token.read text with
      | .error fault => ⟨[], start, some fault⟩
      | .ok token =>
        let later := scanFrom (start + Text.utf8Size text) (rest.drop n)
        ⟨⟨text, start, token⟩ :: later.lexemes, later.stop, later.fault?⟩
termination_by cs.length
decreasing_by
  have := (List.dropWhile_suffix Text.isBlank (l := cs)).length_le
  simp only [_h, List.length_cons, List.length_drop] at *
  omega

/-- Cuts a text. -/
def scan (text : String) : Lexed := scanFrom 0 text.toList

end Lexed

end ConditionText

end BoundSql
