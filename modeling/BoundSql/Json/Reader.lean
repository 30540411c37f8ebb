import BoundSql.Json.Text

/-!
# Reading JSON

Strict JSON: one value with white space around it and nothing after it.  Space,
tab, carriage return and line feed are the only white space; numbers have no
leading zeros, no leading plus and a digit on both sides of a point; control
characters in a string must be escaped.

Reading yields the tree as written; `Json.ofText?` judges it as well.
-/

namespace BoundSql

namespace JsonText

/-- The white space of JSON. -/
def isSpace (c : Char) : Bool := c == ' ' || c == '\t' || c == '\r' || c == '\n'

/-- The text from the first character that is no white space. -/
def skipSpace (cs : List Char) : List Char := cs.dropWhile isSpace

/-- The character that a letter after a backslash stands for. -/
def unescapeLetter? (letter : Char) : Option Char :=
  if letter = '\x22' then some '\x22'
  else if letter = '\\' then some '\\'
  else if letter = '/' then some '/'
  else if letter = 'b' then some '\x08'
  else if letter = 'f' then some '\x0c'
  else if letter = 'n' then some '\n'
  else if letter = 'r' then some '\r'
  else if letter = 't' then some '\t'
  else none

/-- The units of a string up to its closing quote, and what follows. -/
def readString? : List Char → Option (List StringUnit × List Char)
  | [] => none
  | '\\' :: 'u' :: a :: b :: c :: d :: rest => do
    let unit ← Text.natOfHex? [a, b, c, d]
    let (units, rest) ← readString? rest
    return (.code unit :: units, rest)
  | '\\' :: letter :: rest => do
    let c ← unescapeLetter? letter
    let (units, rest) ← readString? rest
    return (.char c :: units, rest)
  | c :: rest =>
    if c = '\x22' then some ([], rest)
    else if c = '\\' || c.toNat < 0x20 then none
    else do
      let (units, rest) ← readString? rest
      return (.char c :: units, rest)

/-- The whole part of a number: a zero alone, or digits that start with another. -/
def readWhole? (cs : List Char) : Option (List Char × List Char) :=
  match cs.takeWhile Char.isDigit with
  | [] => none
  | '0' :: _ :: _ => none
  | ds => some (ds, cs.drop ds.length)

/-- At least one digit. -/
def readRun? (cs : List Char) : Option (List Char × List Char) :=
  match cs.takeWhile Char.isDigit with
  | [] => none
  | ds => some (ds, cs.drop ds.length)

/-- The fraction of a number, if there is a point. -/
def readFraction? : List Char → Option (List Char × List Char)
  | '.' :: rest => readRun? rest
  | cs => some ([], cs)

/-- The exponent of a number, if there is one. -/
def readExponent? (cs : List Char) : Option (Option (Bool × List Char) × List Char) :=
  match cs with
  | c :: rest =>
    if c = 'e' || c = 'E' then
      match rest with
      | '-' :: rest => (readRun? rest).map fun (ds, rest) => (some (true, ds), rest)
      | '+' :: rest => (readRun? rest).map fun (ds, rest) => (some (false, ds), rest)
      | rest => (readRun? rest).map fun (ds, rest) => (some (false, ds), rest)
    else some (none, cs)
  | [] => some (none, [])

/-- A number and what follows it. -/
def readNumber? (cs : List Char) : Option (NumberText × List Char) := do
  let negative := cs.head? == some '-'
  let (whole, rest) ← readWhole? (if negative then cs.drop 1 else cs)
  let (fraction, rest) ← readFraction? rest
  let (exponent, rest) ← readExponent? rest
  return (⟨negative, whole, fraction, exponent⟩, rest)

/-- One of the three words, and what follows it. -/
def readWord? (cs : List Char) : Option (JsonText × List Char) :=
  if cs.take 4 = "null".toList then some (.null, cs.drop 4)
  else if cs.take 4 = "true".toList then some (.bool true, cs.drop 4)
  else if cs.take 5 = "false".toList then some (.bool false, cs.drop 5)
  else none

mutual

/-- A value and what follows it.  Every call on the way down takes a step of
`fuel`; two steps for each character are enough. -/
def readValue? : Nat → List Char → Option (JsonText × List Char)
  | 0, _ => none
  | fuel + 1, cs =>
    match skipSpace cs with
    | [] => none
    | c :: rest =>
      if c = '\x22' then
        (readString? rest).map fun (units, rest) => (.string units, rest)
      else if c = '[' then
        match skipSpace rest with
        | ']' :: rest => some (.array [], rest)
        | rest => (readItems? fuel rest).map fun (items, rest) => (.array items, rest)
      else if c = '\x7b' then
        match skipSpace rest with
        | '\x7d' :: rest => some (.object [], rest)
        | rest => (readMembers? fuel rest).map fun (members, rest) => (.object members, rest)
      else if c = '-' || c.isDigit then
        (readNumber? (c :: rest)).map fun (n, rest) => (.number n, rest)
      else readWord? (c :: rest)

/-- The items of an array up to its closing bracket, and what follows. -/
def readItems? : Nat → List Char → Option (List JsonText × List Char)
  | 0, _ => none
  | fuel + 1, cs => do
    let (item, rest) ← readValue? fuel cs
    match skipSpace rest with
    | ',' :: rest =>
      let (items, rest) ← readItems? fuel rest
      return (item :: items, rest)
    | ']' :: rest => return ([item], rest)
    | _ => none

/-- The members of an object up to its closing brace, and what follows. -/
def readMembers? :
    Nat → List Char → Option (List (List StringUnit × JsonText) × List Char)
  | 0, _ => none
  | fuel + 1, cs => do
    let '\x22' :: rest := skipSpace cs | none
    let (key, rest) ← readString? rest
    let ':' :: rest := skipSpace rest | none
    let (value, rest) ← readValue? fuel rest
    match skipSpace rest with
    | ',' :: rest =>
      let (members, rest) ← readMembers? fuel rest
      return ((key, value) :: members, rest)
    | '\x7d' :: rest => return ([(key, value)], rest)
    | _ => none

end

/-- The tree of a JSON text. -/
def ofText? (s : String) : Option JsonText := do
  let cs := s.toList
  let (tree, rest) ← readValue? (2 * cs.length + 2) cs
  if skipSpace rest = [] then some tree else none

end JsonText

/-- How deep the containers of a readable JSON value may nest. -/
def Json.maxDepth : Nat := 127

/-- The value of a JSON text. -/
def Json.ofText? (s : String) : Option Json := do (← JsonText.ofText? s).value? Json.maxDepth

end BoundSql
