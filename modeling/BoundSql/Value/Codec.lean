import BoundSql.Text.Utf8
import BoundSql.Value.Basic

/-!
# Codecs

How a typed datum becomes a value and how it is read back.  Reading is lenient
in a few directions:

| datum | read from |
| --- | --- |
| truth value | `bool`; an integer other than zero is true |
| integer | `int` and `uint` within its range |
| float | `float`, `int` and `uint`, the nearest one |
| text | `text`, and `bytes` that are UTF-8 |
| bytes | `bytes` and `text` |
| JSON, date, UUID | their own kind and readable `text` |
| either timestamp | both kinds of timestamp |

Why a value is not read is one of a closed list of faults (`DecodeFault`).  A codec of one's own
may read values in any way, but fails in one of these words.
-/

namespace BoundSql

/-- On which side an integer lies outside a range. -/
inductive RangeFault
  | tooLarge
  | tooSmall
  deriving DecidableEq

/-- The wording of a fault. -/
def RangeFault.message : RangeFault → String
  | .tooLarge => "number too large to fit in target type"
  | .tooSmall => "number too small to fit in target type"

/-- Why a value cannot be read as a datum.  The list is closed: a codec chooses among these
faults and words none itself. -/
inductive DecodeFault
  /-- The value is of another kind than the expected one. -/
  | mismatch (expected found : String)
  /-- An integer outside the range. -/
  | range (fault : RangeFault)
  /-- Bytes that are no text. -/
  | utf8 (fault : Text.Utf8Fault)
  /-- A text that does not spell the expected datum.  One wording stands for whatever the
  reader of JSON, of dates or of UUIDs has to say about the text. -/
  | unreadable (expected : String)
  deriving DecidableEq

/-- The wording of a fault. -/
def DecodeFault.message : DecodeFault → String
  | .mismatch expected found => s!"expected {expected}, got {found}"
  | .range fault => fault.message
  | .utf8 fault => fault.message
  | .unreadable expected => s!"text is not a readable {expected}"

/-- How data of a type become values and are read back. -/
structure Codec (α : Type) where
  encode : α → Value
  decode : Value → Except DecodeFault α

/-- A type of integers: its name and its range. -/
structure IntegerType where
  name : String
  least : Int
  greatest : Int

namespace IntegerType

def int8 : IntegerType := ⟨"i8", -0x80, 0x7F⟩
def int16 : IntegerType := ⟨"i16", -0x8000, 0x7FFF⟩
def int32 : IntegerType := ⟨"i32", -0x80000000, 0x7FFFFFFF⟩
def int64 : IntegerType := ⟨"i64", -0x8000000000000000, 0x7FFFFFFFFFFFFFFF⟩
def uint8 : IntegerType := ⟨"u8", 0, 0xFF⟩
def uint16 : IntegerType := ⟨"u16", 0, 0xFFFF⟩
def uint32 : IntegerType := ⟨"u32", 0, 0xFFFFFFFF⟩
def uint64 : IntegerType := ⟨"u64", 0, 0xFFFFFFFFFFFFFFFF⟩
/-- The unsigned integers of a 64-bit machine word. -/
def word : IntegerType := ⟨"usize", 0, 0xFFFFFFFFFFFFFFFF⟩

/-- An integer in the range of a type. -/
structure Member (t : IntegerType) where
  val : Int
  least_le : t.least ≤ val
  le_greatest : val ≤ t.greatest

/-- The integer as a member of a type, or on which side it lies outside. -/
def member (t : IntegerType) (n : Int) : Except RangeFault t.Member :=
  if low : n < t.least then .error .tooSmall
  else if high : t.greatest < n then .error .tooLarge
  else .ok ⟨n, Int.not_lt.1 low, Int.not_lt.1 high⟩

/-- The integer that a value holds. -/
def decode (t : IntegerType) : Value → Except DecodeFault t.Member
  | .int n => (t.member n.toInt).mapError .range
  | .uint n => (t.member n.toNat).mapError .range
  | v => .error (.mismatch t.name v.kind)

/-- Types within 64 signed bits are bound as signed integers, others as unsigned ones. -/
def encode (t : IntegerType) (m : t.Member) : Value :=
  if t.greatest < 0x8000000000000000 then .int (Int64.ofInt m.val) else .uint (UInt64.ofNat m.val.toNat)

/-- The codec of a type of integers. -/
def codec (t : IntegerType) : Codec t.Member := ⟨t.encode, t.decode⟩

end IntegerType

namespace Codec

/-- Values as they are. -/
def value : Codec Value := ⟨id, .ok⟩

def bool : Codec Bool where
  encode := .bool
  decode
    | .bool b => .ok b
    | .int n => .ok (n != 0)
    | .uint n => .ok (n != 0)
    | v => .error (.mismatch "bool" v.kind)

def double : Codec Double where
  encode := .float
  decode
    | .float d => .ok d
    | .int n => .ok (Double.ofInt n.toInt)
    | .uint n => .ok (Double.ofInt n.toNat)
    | v => .error (.mismatch "f64" v.kind)

/-- Singles travel as doubles. -/
def single : Codec Single where
  encode s := .float s.toDouble
  decode v := (double.decode v).map Double.toSingle

def text : Codec String where
  encode := .text
  decode
    | .text s => .ok s
    | .bytes bs => (Text.decodeUtf8 bs).mapError .utf8
    | v => .error (.mismatch "text" v.kind)

def bytes : Codec (List UInt8) where
  encode := .bytes
  decode
    | .bytes bs => .ok bs
    | .text s => .ok (Text.encodeUtf8 s)
    | v => .error (.mismatch "bytes" v.kind)

/-- What a text spells, if it spells anything. -/
def spelled {α : Type} (expected : String) : Option α → Except DecodeFault α
  | some a => .ok a
  | none => .error (.unreadable expected)

def json : Codec Json where
  encode := Value.ofJson
  decode
    | .json j => .ok j
    | .text s => spelled "json" (Json.ofText? s)
    | v => .error (.mismatch "json" v.kind)

def date : Codec Date where
  encode := .date
  decode
    | .date d => .ok d
    | .text s => spelled "date" (Date.ofText? s)
    | v => .error (.mismatch "date" v.kind)

def time : Codec Time where
  encode := .time
  decode
    | .time t => .ok t
    | v => .error (.mismatch "time" v.kind)

def timestamp : Codec Timestamp where
  encode := .timestamp
  decode
    | .timestamp t => .ok t
    | .timestampTz t => .ok t
    | v => .error (.mismatch "timestamp" v.kind)

def timestampTz : Codec Timestamp where
  encode := .timestampTz
  decode
    | .timestampTz t => .ok t
    | .timestamp t => .ok t
    | v => .error (.mismatch "timestamptz" v.kind)

def uuid : Codec Uuid where
  encode := .uuid
  decode
    | .uuid u => .ok u
    | .text s => spelled "uuid" (Uuid.ofText? s)
    | v => .error (.mismatch "uuid" v.kind)

/-- Data that may be missing: null stands for none. -/
def option {α : Type} (c : Codec α) : Codec (Option α) where
  encode
    | some a => c.encode a
    | none => .null
  decode
    | .null => .ok none
    | v => (c.decode v).map some

end Codec

end BoundSql
