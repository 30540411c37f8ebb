import BoundSql.Dialect
import BoundSql.Json.Fields

/-!
# Settings

What a statement is built for: the tag under which record types list their
columns, and the dialect.  Settings can be kept as JSON, with every key optional:

```text
{"tag": "db", "dialect": {"quote": "\"", "placeholder": "dollar"}}
```
-/

namespace BoundSql

/-- The tag of record types and the dialect. -/
structure Settings where
  tag : String
  dialect : Dialect

namespace Settings

/-- The tag that every record type maps. -/
def standardTag : String := "db"

/-- The settings where nothing else is set. -/
def standard : Settings := ⟨standardTag, .standard⟩

def withTag (s : Settings) (tag : String) : Settings := { s with tag }

def withDialect (s : Settings) (dialect : Dialect) : Settings := { s with dialect }

def withQuote (s : Settings) (quote : Char) : Settings :=
  { s with dialect := { s.dialect with quote } }

def withPlaceholder (s : Settings) (placeholder : Placeholder) : Settings :=
  { s with dialect := { s.dialect with placeholder } }

end Settings

/-- The style that a tree names, by a word or by an object with the word as its
only key. -/
def Placeholder.ofTree? : JsonText → Option Placeholder
  | .string units => do Placeholder.ofKeyword? (← StringUnit.text? units)
  | .object [(key, .null)] => do Placeholder.ofKeyword? (← StringUnit.text? key)
  | _ => none

/-- The character of a string of just one. -/
def Dialect.quoteOfTree? : JsonText → Option Char
  | .string units =>
    match StringUnit.chars? units with
    | some [c] => some c
    | _ => none
  | _ => none

/-- The dialect of a tree. -/
def Dialect.ofTree? (tree : JsonText) : Option Dialect :=
  JsonText.readRecord?
    [("quote", fun tree d => (quoteOfTree? tree).map fun quote => { d with quote }),
      ("placeholder", fun tree d =>
        (Placeholder.ofTree? tree).map fun placeholder => { d with placeholder })]
    tree .standard

/-- The settings that a JSON text holds. -/
def Settings.ofText? (text : String) : Option Settings := do
  JsonText.readRecord?
    [("tag", fun tree (s : Settings) =>
        match tree with
        | .string units => (StringUnit.text? units).map s.withTag
        | _ => none),
      ("dialect", fun tree s => (Dialect.ofTree? tree).map s.withDialect)]
    (← JsonText.ofText? text) .standard

/-- The members of a tree in the order given. -/
def JsonText.ofFields (members : List (String × JsonText)) : JsonText :=
  .object (members.map fun (key, tree) => (StringUnit.ofText key, tree))

/-- The tree of a dialect; a custom style of placeholders has none. -/
def Dialect.toTree? (d : Dialect) : Option JsonText :=
  d.placeholder.keyword?.map fun word =>
    .ofFields [("quote", .string [StringUnit.ofChar d.quote]),
      ("placeholder", .string (StringUnit.ofText word))]

/-- The tree of settings. -/
def Settings.toTree? (s : Settings) : Option JsonText :=
  s.dialect.toTree?.map fun dialect =>
    .ofFields [("tag", .string (StringUnit.ofText s.tag)), ("dialect", dialect)]

end BoundSql
