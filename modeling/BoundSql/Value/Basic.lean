import BoundSql.Calendar.Time
import BoundSql.Json.Reader
import BoundSql.Uuid

/-!
# Values

The values that a statement binds and that a row holds.  A value never becomes
part of a statement's text.
-/

namespace BoundSql

/-- A bound value. -/
inductive Value
  | null
  | bool (b : Bool)
  | int (n : Int64)
  | uint (n : UInt64)
  | float (d : Double)
  | text (s : String)
  | bytes (bs : List UInt8)
  | json (j : Json)
  | date (d : Date)
  | time (t : Time)
  | timestamp (t : Timestamp)
  /-- A timestamp in UTC. -/
  | timestampTz (t : Timestamp)
  | uuid (u : Uuid)

namespace Value

/-- The name of a value's kind, as it appears in messages. -/
def kind : Value → String
  | .null => "null"
  | .bool _ => "bool"
  | .int _ => "int"
  | .uint _ => "uint"
  | .float _ => "float"
  | .text _ => "text"
  | .bytes _ => "bytes"
  | .json _ => "json"
  | .date _ => "date"
  | .time _ => "time"
  | .timestamp _ => "timestamp"
  | .timestampTz _ => "timestamptz"
  | .uuid _ => "uuid"

def isNull : Value → Bool
  | .null => true
  | _ => false

/-- The value of a JSON number: a signed integer if it fits, else an unsigned
one, else a float. -/
def ofJsonNumber : JsonNumber → Value
  | .integer n _ _ => if n < 0x8000000000000000 then .int (Int64.ofInt n) else .uint (UInt64.ofNat n.toNat)
  | .double d _ => .float d

/-- The value of a JSON document.  Scalars become plain values; arrays and
objects stay JSON. -/
def ofJson : Json → Value
  | .null => .null
  | .bool b => .bool b
  | .number n => ofJsonNumber n
  | .string s => .text s
  | .array items => .json (.array items)
  | .object members => .json (.object members)

end Value

/-- The values of named columns or parameters. -/
abbrev ValueMap := KeyMap Value

end BoundSql
