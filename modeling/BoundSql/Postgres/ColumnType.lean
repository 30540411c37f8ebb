/-!
# Column types of PostgreSQL

The types whose binary form is known here, and all others by their name.
-/

namespace BoundSql.Postgres

/-- The type of a parameter or of a column. -/
inductive ColumnType
  | bool
  | int2 | int4 | int8 | oid
  | float4 | float8
  | text | varchar | bpchar | name | unknown
  | bytea
  | json | jsonb
  | date | time | timestamp | timestamptz
  | uuid
  /-- A type without a binary form here. -/
  | other (name : String)
  deriving DecidableEq

namespace ColumnType

/-- The types with a binary form here, by their names. -/
def known : List (String × ColumnType) :=
  [("bool", bool), ("int2", int2), ("int4", int4), ("int8", int8), ("oid", oid),
    ("float4", float4), ("float8", float8), ("text", text), ("varchar", varchar),
    ("bpchar", bpchar), ("name", name), ("unknown", unknown), ("bytea", bytea), ("json", json),
    ("jsonb", jsonb), ("date", date), ("time", time), ("timestamp", timestamp),
    ("timestamptz", timestamptz), ("uuid", uuid)]

/-- The type of a name.  The arrays of a type, written with brackets after its name,
are a type named after it with an underscore in front. -/
def ofName (s : String) : ColumnType :=
  match known.lookup s with
  | some t => t
  | none =>
    match s.toList.reverse with
    | ']' :: '[' :: element => .other ("_" ++ String.ofList element.reverse)
    | _ => .other s

end ColumnType

end BoundSql.Postgres
