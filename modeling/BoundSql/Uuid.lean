import BoundSql.Text.Digits

/-!
# UUIDs

Sixteen bytes, written as lower-case hexadecimal digits in groups of 8, 4, 4, 4
and 12 between hyphens.  Reading also takes the digits without hyphens, and the
hyphenated form in braces or after `urn:uuid:`; the case of all letters is free.
-/

namespace BoundSql

/-- Sixteen bytes. -/
structure Uuid where
  bytes : List UInt8
  length_eq : bytes.length = 16
  deriving DecidableEq

namespace Uuid

/-- The value of sixteen bytes. -/
def ofBytes? (bytes : List UInt8) : Option Uuid :=
  if h : bytes.length = 16 then some ⟨bytes, h⟩ else none

/-- The lengths of the five groups of digits. -/
def groups : List Nat := [8, 4, 4, 4, 12]

/-- The hyphenated text. -/
def toText (u : Uuid) : String :=
  let hex (lo hi : Nat) := String.ofList (Text.hexOfBytes ((u.bytes.take hi).drop lo))
  s!"{hex 0 4}-{hex 4 6}-{hex 6 8}-{hex 8 10}-{hex 10 16}"

/-- Takes the hyphens out of a text of 36 characters, if they stand where they
should. -/
def unhyphenate? (cs : List Char) : List Nat → Option (List Char)
  | [] => if cs.isEmpty then some [] else none
  | [n] => if cs.length = n then some cs else none
  | n :: rest =>
    match cs.drop n with
    | '-' :: more => (unhyphenate? more rest).map (cs.take n ++ ·)
    | _ => none

/-- Takes braces or `urn:uuid:` off the hyphenated form. -/
def unwrap (cs : List Char) : List Char :=
  if cs.length = 38 && cs.head? == some '\x7b' && cs.getLast? == some '\x7d' then
    (cs.drop 1).dropLast
  else if cs.length = 45 && (cs.take 9).map Char.toLower == "urn:uuid:".toList then cs.drop 9
  else cs

/-- Reads one of the four written forms. -/
def ofText? (s : String) : Option Uuid := do
  let cs := s.toList
  let digits ← if cs.length = 32 then some cs else unhyphenate? (unwrap cs) groups
  ofBytes? (← Text.bytesOfHex? digits)

end Uuid

end BoundSql
