import BoundSql.Number.BigEndian
import BoundSql.Postgres.ColumnType
import BoundSql.Value.Codec

/-!
# Binary forms of values

How a value is sent as a parameter and how a cell of a result is read.  All
numbers are big-endian.

| value | bytes |
| --- | --- |
| `bool` | one, zero for false |
| `int` | two for `int2`, four for `int4`, else eight |
| `uint` | eight, as a signed number |
| `float` | four for `float4`, else eight |
| `text`, `bytes` | the text in UTF-8, the bytes |
| `json` | its text in UTF-8, after a version byte for `jsonb` |
| `date` | four, days from 2000-01-01 |
| `time` | eight, microseconds from midnight |
| either timestamp | eight, microseconds from 2000-01-01 |
| `uuid` | its sixteen bytes |

A null has no bytes.  Other kinds of value are sent in their own form whatever
the type of the parameter; the server judges whether it fits.
-/

namespace BoundSql.Postgres

/-- A parameter or a cell: its bytes, none for a null. -/
abbrev Cell := Option (List UInt8)

/-- The version of the binary form of `jsonb`. -/
def jsonbVersion : UInt8 := 1

/-- The bytes of an integer that must be in the range of a type. -/
def encodeWithin (t : IntegerType) (width : Nat) (n : Int) : Except RangeFault Cell :=
  (t.member n).map fun m => some (BigEndian.ofInt width m.val)

/-- A value as a parameter of a type. -/
def encode (t : ColumnType) : Value → Except RangeFault Cell
  | .null => .ok none
  | .bool b => .ok (some [if b then 1 else 0])
  | .int n =>
    match t with
    | .int2 => encodeWithin .int16 2 n.toInt
    | .int4 => encodeWithin .int32 4 n.toInt
    | _ => .ok (some (BigEndian.ofInt 8 n.toInt))
  | .uint n => encodeWithin .int64 8 n.toNat
  | .float d =>
    match t with
    | .float4 => .ok (some (BigEndian.ofNat 4 d.toSingle.bits.toNat))
    | _ => .ok (some (BigEndian.ofNat 8 d.bits.toNat))
  | .text s => .ok (some (Text.encodeUtf8 s))
  | .bytes bytes => .ok (some bytes)
  | .json j =>
    let bytes := Text.encodeUtf8 j.toText
    .ok (some (if t = .jsonb then jsonbVersion :: bytes else bytes))
  | .date d => .ok (some (BigEndian.ofInt 4 d.day))
  | .time t => .ok (some (BigEndian.ofInt 8 t.micros))
  | .timestamp t | .timestampTz t => .ok (some (BigEndian.ofInt 8 t.micros))
  | .uuid u => .ok (some u.bytes)

/-- Bytes, if there are exactly `width` of them. -/
def exactly? (width : Nat) (bytes : List UInt8) : Option (List UInt8) :=
  if bytes.length = width then some bytes else none

/-- The integer of exactly `width` bytes. -/
def integer? (width : Nat) (bytes : List UInt8) : Option Int :=
  (exactly? width bytes).map BigEndian.toInt

/-- The natural number of exactly `width` bytes. -/
def natural? (width : Nat) (bytes : List UInt8) : Option Nat :=
  (exactly? width bytes).map BigEndian.toNat

/-- The text of UTF-8 bytes. -/
def text? (bytes : List UInt8) : Option String := (Text.decodeUtf8 bytes).toOption

/-- The JSON value of a text in UTF-8. -/
def json? (bytes : List UInt8) : Option Json := do Json.ofText? (← text? bytes)

/-- The timestamp of eight bytes. -/
def timestamp? (bytes : List UInt8) : Option Timestamp := do
  Timestamp.ofMicros? (← integer? 8 bytes)

/-- The value of a cell that is not null, in a column of a type. -/
def decodeBytes? (t : ColumnType) (bytes : List UInt8) : Option Value :=
  match t with
  | .bool => (natural? 1 bytes).map fun n => .bool (n != 0)
  | .int2 => (integer? 2 bytes).map fun n => .int (Int64.ofInt n)
  | .int4 => (integer? 4 bytes).map fun n => .int (Int64.ofInt n)
  | .int8 => (integer? 8 bytes).map fun n => .int (Int64.ofInt n)
  | .oid => (natural? 4 bytes).map fun n => .int (Int64.ofNat n)
  | .float4 => (natural? 4 bytes).map fun n => .float (Single.toDouble ⟨UInt32.ofNat n⟩)
  | .float8 => (natural? 8 bytes).map fun n => .float ⟨UInt64.ofNat n⟩
  | .text | .varchar | .bpchar | .name | .unknown => (text? bytes).map .text
  | .bytea => some (.bytes bytes)
  | .json => (json? bytes).map .json
  | .jsonb =>
    match bytes with
    | version :: rest => if version = jsonbVersion then (json? rest).map .json else none
    | [] => none
  | .date => do return .date (← Date.ofDay? (← integer? 4 bytes))
  | .time => (integer? 8 bytes).map fun n => .time (Time.ofMicros n)
  | .timestamp => (timestamp? bytes).map .timestamp
  | .timestamptz => (timestamp? bytes).map .timestampTz
  | .uuid => (Uuid.ofBytes? bytes).map .uuid
  | .other _ => none

/-- The value of a cell in a column of a type.  A column without a binary form here
has no value, not even null. -/
def decode? (t : ColumnType) (cell : Cell) : Option Value :=
  match t, cell with
  | .other _, _ => none
  | _, none => some .null
  | t, some bytes => decodeBytes? t bytes

end BoundSql.Postgres
