import BoundSql.Record.Attribute.Token
import BoundSql.Record.Mapping

/-!
# Mapping attributes

A field says how it is mapped in attributes, each a list of items between commas:

| item | the field |
| --- | --- |
| `skip` | is left out under every tag |
| `tag = "column"` | is that column under the tag |
| `tag = "-"` | is left out under the tag |

A comma may end the list.  The items of all attributes of a field count together:
no tag may occur twice, and `skip` excludes every other item.
-/

namespace BoundSql

/-- Why the attributes of a field are refused. -/
inductive AttributeFault
  /-- An item begins with something else than a word. -/
  | nameExpected
  /-- An item begins with a reserved word. -/
  | reservedWord (word : String)
  | equalsExpected
  | textExpected
  /-- The attribute ends where a text should be. -/
  | textMissing
  | emptyColumn
  /-- Something other than a comma follows an item. -/
  | leftover
  | repeatedTag (tag : String)
  /-- The field is left out and yet mapped. -/
  | skippedAndMapped (tag : String)
  deriving DecidableEq

/-- The wording of a fault. -/
def AttributeFault.message : AttributeFault → String
  | .nameExpected => "expected identifier"
  | .reservedWord word => s!"expected identifier, found keyword `{word}`"
  | .equalsExpected => "expected `=`"
  | .textExpected => "expected string literal"
  | .textMissing => "unexpected end of input, expected string literal"
  | .emptyColumn => "column name cannot be empty; use \"-\" to exclude the field"
  | .leftover => "unexpected token"
  | .repeatedTag tag => s!"duplicate mapping for tag `{tag}`"
  | .skippedAndMapped tag =>
    s!"`skip` cannot be combined with a mapping for tag `{tag}`; " ++
      s!"use `{tag} = \"-\"` to exclude under one tag"

namespace Attribute

/-- An item of an attribute. -/
inductive Item
  | skip
  | column (tag column : String)
  deriving DecidableEq

/-- The word that leaves a field out. -/
def skipWord : String := "skip"

/-- The words that are no tags. -/
def reserved : List String :=
  ["_", "abstract", "as", "async", "await", "become", "box", "break", "const", "continue",
    "crate", "do", "dyn", "else", "enum", "extern", "false", "final", "fn", "for", "if", "impl",
    "in", "let", "loop", "macro", "match", "mod", "move", "mut", "override", "priv", "pub", "ref",
    "return", "Self", "self", "static", "struct", "super", "trait", "true", "try", "type",
    "typeof", "unsafe", "unsized", "use", "virtual", "where", "while", "yield"]

mutual

/-- The items that tokens write. -/
def items : List Token → Except AttributeFault (List Item)
  | [] => .ok []
  | .word w :: rest =>
    if w ∈ reserved then .error (.reservedWord w)
    else if w = skipWord then itemsAfter .skip rest
    else
      match rest with
      | .equals :: .quoted column :: rest =>
        if column.isEmpty then .error .emptyColumn else itemsAfter (.column w column) rest
      | [.equals] => .error .textMissing
      | .equals :: _ => .error .textExpected
      | _ => .error .equalsExpected
  | _ => .error .nameExpected

/-- An item, and those after the comma that follows it. -/
def itemsAfter (item : Item) : List Token → Except AttributeFault (List Item)
  | [] => .ok [item]
  | .comma :: rest => (items rest).map (item :: ·)
  | _ => .error .leftover

end

/-- The items of an attribute. -/
def ofText (text : String) : Except AttributeFault (List Item) := items (Token.scan text.toList)

end Attribute

namespace FieldMapping

/-- A field without attributes. -/
def ofName (name : String) : FieldMapping := ⟨name, false, []⟩

/-- What a field says with one more item. -/
def addItem (f : FieldMapping) : Attribute.Item → FieldMapping
  | .skip => { f with skipped := true }
  | .column tag column => { f with columns := f.columns ++ [(tag, column)] }

/-- The first element that occurs before. -/
def firstRepeated? (seen : List String) : List String → Option String
  | [] => none
  | tag :: rest => if tag ∈ seen then some tag else firstRepeated? (seen ++ [tag]) rest

/-- Refuses a tag that occurs twice, then a field that is left out and yet mapped. -/
def validate (f : FieldMapping) : Except AttributeFault Unit :=
  match firstRepeated? [] (f.columns.map Prod.fst) with
  | some tag => .error (.repeatedTag tag)
  | none =>
    match f.skipped, f.columns with
    | true, (tag, _) :: _ => .error (.skippedAndMapped tag)
    | _, _ => .ok ()

/-- What a field says with one more attribute. -/
def addAttribute (f : FieldMapping) (text : String) : Except AttributeFault FieldMapping := do
  let f := (← Attribute.ofText text).foldl addItem f
  f.validate
  return f

/-- The mapping of a field with attributes. -/
def ofAttributes (name : String) (texts : List String) : Except AttributeFault FieldMapping :=
  texts.foldlM addAttribute (ofName name)

end FieldMapping

end BoundSql
