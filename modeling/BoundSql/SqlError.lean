import BoundSql.Text.Digits

/-!
# Errors

What can go wrong between building a statement and reading its rows, with the
wording of each error.
-/

namespace BoundSql

/-- An error of compiling or running a statement. -/
inductive SqlError
  /-- A filter document that is unreadable or misshapen at a path. -/
  | malformedFilter (path message : String)
  /-- Condition text that cannot be parsed, with the byte offset of the fault. -/
  | unparsable (message : String) (offset : Nat)
  /-- A call whose arguments are refused. -/
  | validation (message : String)
  /-- A row, map or record that does not fit the columns. -/
  | rowMismatch (index : Nat) (message : String)
  /-- A record type or record without a mapping for the tag. -/
  | schema (message : String)
  | notFound (message : String)
  | tooManyRows (expected got : Nat)
  | uniqueViolation (message : String)
  | foreignKeyViolation (message : String)
  | checkViolation (message : String)
  /-- An error that the database reports. -/
  | query (message : String)
  /-- A column of a row that cannot be read. -/
  | decode (column message : String)
  | timeout (nanoseconds : Nat)
  deriving DecidableEq

namespace SqlError

/-- A duration in the largest of the units s, ms, µs and ns that it reaches, with
the exact decimal fraction. -/
def durationText (nanoseconds : Nat) : String :=
  let scaled (size digits : Nat) : String :=
    let zeros := Text.padZeros digits (Text.digitsOfNat (nanoseconds % size))
    let fraction := (zeros.reverse.dropWhile (· == '0')).reverse
    let whole := toString (nanoseconds / size)
    if fraction.isEmpty then whole else whole ++ "." ++ String.ofList fraction
  if 1000000000 ≤ nanoseconds then scaled 1000000000 9 ++ "s"
  else if 1000000 ≤ nanoseconds then scaled 1000000 6 ++ "ms"
  else if 1000 ≤ nanoseconds then scaled 1000 3 ++ "µs"
  else toString nanoseconds ++ "ns"

/-- The wording of an error. -/
def message : SqlError → String
  | .malformedFilter path m => s!"Malformed filter at {path}: {m}"
  | .unparsable m offset => s!"Syntax error at offset {offset}: {m}"
  | .validation m => s!"Validation error: {m}"
  | .rowMismatch index m => s!"Validation error in row {index}: {m}"
  | .schema m => s!"Schema error: {m}"
  | .notFound m => s!"Not found: {m}"
  | .tooManyRows expected got => s!"Expected {expected} row(s), got {got}"
  | .uniqueViolation m => s!"Unique constraint violation: {m}"
  | .foreignKeyViolation m => s!"Foreign key violation: {m}"
  | .checkViolation m => s!"Check constraint violation: {m}"
  | .query m => s!"Query error: {m}"
  | .decode column m => s!"Decode error on column '{column}': {m}"
  | .timeout nanoseconds => s!"Query timeout after {durationText nanoseconds}"

/-- Puts what was being checked in front of a refusal. -/
def inContext (context : String) : SqlError → SqlError
  | .validation m => .validation s!"{context}: {m}"
  | e => e

def isMalformedFilter : SqlError → Bool
  | .malformedFilter .. => true
  | _ => false

def isUnparsable : SqlError → Bool
  | .unparsable .. => true
  | _ => false

/-- A refused call, or a row that does not fit. -/
def isValidation : SqlError → Bool
  | .validation .. | .rowMismatch .. => true
  | _ => false

def isSchema : SqlError → Bool
  | .schema .. => true
  | _ => false

def isNotFound : SqlError → Bool
  | .notFound .. => true
  | _ => false

def isUniqueViolation : SqlError → Bool
  | .uniqueViolation .. => true
  | _ => false

def isTimeout : SqlError → Bool
  | .timeout .. => true
  | _ => false

/-- The row that an error is about. -/
def rowIndex? : SqlError → Option Nat
  | .rowMismatch index _ => some index
  | _ => none

end SqlError

end BoundSql
