import BoundSql.Json.Basic
import BoundSql.Number.Shortest
import BoundSql.Number.Stepwise
import BoundSql.Text.Digits

/-!
# JSON as written

The syntax tree of a JSON text, before anything in it is judged.  A number keeps
its digits, a string its escaped code units, an object its members with repeated
keys, and nesting has no limit.  `JsonText.value?` judges a tree: a number that
is no integer is calculated in steps and must not overflow, surrogates must come in pairs, and containers nest at most so deep.
A reader that skips a member leaves its tree unjudged.
-/

namespace BoundSql

/-- A number as written: sign, whole part, fraction and exponent. -/
structure NumberText where
  negative : Bool
  whole : List Char
  /-- The digits after the point; none if there is no point. -/
  fraction : List Char
  /-- The sign of the exponent and its digits. -/
  exponent : Option (Bool × List Char)
  deriving DecidableEq

/-- One unit of a string as written. -/
inductive StringUnit
  /-- A character, or a two-character escape that stands for one. -/
  | char (c : Char)
  /-- A code unit in four hexadecimal digits. -/
  | code (unit : Nat)
  deriving DecidableEq

/-- A JSON text as a tree. -/
inductive JsonText
  | null
  | bool (b : Bool)
  | number (n : NumberText)
  | string (units : List StringUnit)
  | array (items : List JsonText)
  | object (members : List (List StringUnit × JsonText))

namespace NumberText

/-- The exponent of ten. -/
def exponentValue (t : NumberText) : Int :=
  match t.exponent with
  | none => 0
  | some (negative, ds) => if negative then -(Text.natOfDigits ds : Int) else Text.natOfDigits ds

/-- The double calculated from the number. -/
def double (t : NumberText) : Double :=
  Double.ofDigits t.negative t.whole t.fraction t.exponentValue

/-- The number's value.  Without fraction and exponent it is an integer if 64
bits hold it; minus zero is a double, and so is all else, unless it overflows. -/
def value? (t : NumberText) : Option JsonNumber :=
  let n : Int := Text.natOfDigits t.whole
  let n := if t.negative then -n else n
  let asDouble : Option JsonNumber :=
    if h : t.double.isFinite = true then some (.double t.double h) else none
  if t.fraction = [] ∧ t.exponent = none ∧ ¬ (t.negative = true ∧ n = 0) then
    if h : -0x8000000000000000 ≤ n ∧ n < 0x10000000000000000 then some (.integer n h.1 h.2) else asDouble
  else asDouble

/-- The least exponent of ten of the first digit that is written out in full. -/
def leastPlain : Int := -5

/-- The exponents of ten from which on a number is written with an exponent. -/
def firstScientific : Int := 16

/-- A finite double in its shortest digits.  In the range of plain notation there
is a point with a digit on both sides; elsewhere one digit stands before the
point, and the exponent has a sign. -/
def ofDouble (d : Double) : NumberText :=
  if d.magnitude = 0 then ⟨d.isNegative, ['0'], ['0'], none⟩
  else
    let shortest := BinaryFormat.double.shortest d.magnitude
    let ds := Text.digitsOfNat shortest.digits
    let top := shortest.exponent + ds.length - 1
    if leastPlain ≤ top ∧ top < firstScientific then
      if top < 0 then
        ⟨d.isNegative, ['0'], List.replicate (-top - 1).toNat '0' ++ ds, none⟩
      else
        let ds := ds ++ List.replicate shortest.exponent.toNat '0'
        let fraction := ds.drop (top.toNat + 1)
        ⟨d.isNegative, ds.take (top.toNat + 1), if fraction = [] then ['0'] else fraction, none⟩
    else ⟨d.isNegative, ds.take 1, ds.drop 1, some (top < 0, Text.digitsOfNat top.natAbs)⟩

/-- A number as it is written out. -/
def ofNumber : JsonNumber → NumberText
  | .integer n _ _ => ⟨n < 0, Text.digitsOfNat n.natAbs, [], none⟩
  | .double d _ => ofDouble d

/-- The characters of a number. -/
def toChars (t : NumberText) : List Char :=
  (if t.negative then ['-'] else []) ++ t.whole ++
    (if t.fraction = [] then [] else '.' :: t.fraction) ++
    match t.exponent with
    | none => []
    | some (negative, ds) => 'e' :: (if negative then '-' else '+') :: ds

end NumberText

namespace StringUnit

/-- A code unit that opens a pair of surrogates. -/
def isHighSurrogate (unit : Nat) : Bool := 0xD800 ≤ unit && unit < 0xDC00

/-- A code unit that closes a pair of surrogates. -/
def isLowSurrogate (unit : Nat) : Bool := 0xDC00 ≤ unit && unit < 0xE000

/-- The characters of a string; a surrogate without its partner has none. -/
def chars? : List StringUnit → Option (List Char)
  | [] => some []
  | .char c :: rest => (chars? rest).map (c :: ·)
  | .code unit :: rest =>
    if isLowSurrogate unit then none
    else if isHighSurrogate unit then
      match rest with
      | .code low :: rest =>
        if isLowSurrogate low then
          (chars? rest).map
            (Char.ofNat (0x10000 + (unit - 0xD800) * 0x400 + (low - 0xDC00)) :: ·)
        else none
      | _ => none
    else (chars? rest).map (Char.ofNat unit :: ·)

/-- The text of a string. -/
def text? (units : List StringUnit) : Option String := (chars? units).map String.ofList

/-- The letter after the backslash in a two-character escape. -/
def escapeLetter? (c : Char) : Option Char :=
  if c = '\x22' then some '\x22'
  else if c = '\\' then some '\\'
  else if c = '\x08' then some 'b'
  else if c = '\x0c' then some 'f'
  else if c = '\n' then some 'n'
  else if c = '\r' then some 'r'
  else if c = '\t' then some 't'
  else none

/-- A character as it is written out: control characters without an escape
letter become code units. -/
def ofChar (c : Char) : StringUnit :=
  if c.toNat < 0x20 && (escapeLetter? c).isNone then .code c.toNat else .char c

/-- The units in which a text is written out. -/
def ofText (s : String) : List StringUnit := s.toList.map ofChar

/-- The characters of a unit. -/
def toChars : StringUnit → List Char
  | .char c =>
    match escapeLetter? c with
    | some letter => ['\\', letter]
    | none => [c]
  | .code unit => '\\' :: 'u' :: Text.hexDigits 4 unit

/-- The characters of a string with its quotes. -/
def quoted (units : List StringUnit) : List Char :=
  '\x22' :: units.flatMap toChars ++ ['\x22']

end StringUnit

namespace JsonText

mutual

/-- The value of a tree whose containers nest at most `room` deep. -/
def value? (room : Nat) : JsonText → Option Json
  | .null => some .null
  | .bool b => some (.bool b)
  | .number n => n.value?.map .number
  | .string units => (StringUnit.text? units).map .string
  | .array items => if room = 0 then none else (items? (room - 1) items).map .array
  | .object members => if room = 0 then none else (members? (room - 1) members).map Json.ofMembers

def items? (room : Nat) : List JsonText → Option (List Json)
  | [] => some []
  | item :: rest => do return (← item.value? room) :: (← items? room rest)

def members? (room : Nat) : List (List StringUnit × JsonText) → Option (List (String × Json))
  | [] => some []
  | (key, value) :: rest => do
    return (← StringUnit.text? key, ← value.value? room) :: (← members? room rest)

end

mutual

/-- The tree in which a value is written out. -/
def ofValue : Json → JsonText
  | .null => .null
  | .bool b => .bool b
  | .number n => .number (.ofNumber n)
  | .string s => .string (StringUnit.ofText s)
  | .array items => .array (ofItems items)
  | .object members => .object (ofMembers members)

def ofItems : List Json → List JsonText
  | [] => []
  | item :: rest => ofValue item :: ofItems rest

def ofMembers : List (String × Json) → List (List StringUnit × JsonText)
  | [] => []
  | (key, value) :: rest => (StringUnit.ofText key, ofValue value) :: ofMembers rest

end

mutual

/-- The characters of a tree, without any white space. -/
def toChars : JsonText → List Char
  | .null => "null".toList
  | .bool true => "true".toList
  | .bool false => "false".toList
  | .number n => n.toChars
  | .string units => StringUnit.quoted units
  | .array items => '[' :: itemChars items ++ [']']
  | .object members => '\x7b' :: memberChars members ++ ['\x7d']

def itemChars : List JsonText → List Char
  | [] => []
  | [item] => item.toChars
  | item :: rest => item.toChars ++ ',' :: itemChars rest

def memberChars : List (List StringUnit × JsonText) → List Char
  | [] => []
  | [(key, value)] => StringUnit.quoted key ++ ':' :: value.toChars
  | (key, value) :: rest => StringUnit.quoted key ++ ':' :: value.toChars ++ ',' :: memberChars rest

end

/-- The text of a tree. -/
def toText (t : JsonText) : String := String.ofList t.toChars

end JsonText

/-- The compact text of a value. -/
def Json.toText (j : Json) : String := (JsonText.ofValue j).toText

end BoundSql
