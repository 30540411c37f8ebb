/-!
# Dialects

A dialect is the quote character of identifiers and the style of placeholders:

| style | placeholders |
| --- | --- |
| `question` | `?`, `?`, … |
| `dollar` | `$1`, `$2`, … |
| `atP` | `@p1`, `@p2`, … |
| `custom` | any text for each index |
-/

namespace BoundSql

/-- How the placeholder of a parameter is written, by the parameter's index from
zero. -/
inductive Placeholder
  | question
  | dollar
  | atP
  /-- A text of its own for every index, which may be empty. -/
  | custom (text : Nat → String)

namespace Placeholder

/-- The placeholder of the parameter at an index. -/
def render : Placeholder → Nat → String
  | .question, _ => "?"
  | .dollar, index => "$" ++ toString (index + 1)
  | .atP, index => "@p" ++ toString (index + 1)
  | .custom text, index => text index

/-- Placeholders that count from `base` between two fixed texts. -/
def numbered (before : String) (base : Nat) (after : String) : Placeholder :=
  .custom fun index => before ++ toString (index + base) ++ after

/-- The name under which a style is listed. -/
def name : Placeholder → String
  | .question => "Question"
  | .dollar => "Dollar"
  | .atP => "AtP"
  | .custom .. => "Custom(..)"

/-- The word for a style in a settings document; a custom style has none. -/
def keyword? : Placeholder → Option String
  | .question => some "question"
  | .dollar => some "dollar"
  | .atP => some "at_p"
  | .custom .. => none

/-- The style that a word in a settings document names. -/
def ofKeyword? (word : String) : Option Placeholder :=
  if word = "question" then some .question
  else if word = "dollar" then some .dollar
  else if word = "at_p" then some .atP
  else none

end Placeholder

/-- The quote character of identifiers and the style of placeholders. -/
structure Dialect where
  quote : Char
  placeholder : Placeholder

namespace Dialect

/-- The backtick. -/
def backtick : Char := '\x60'

def mysql : Dialect := ⟨backtick, .question⟩

def postgres : Dialect := ⟨'\x22', .dollar⟩

def sqlite : Dialect := ⟨'\x22', .question⟩

/-- The dialect where nothing else is set. -/
def standard : Dialect := mysql

end Dialect

end BoundSql
