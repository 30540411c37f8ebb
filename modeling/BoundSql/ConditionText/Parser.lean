import BoundSql.ConditionText.Token

/-!
# Parsing condition text

```text
condition   := disjunction
disjunction := conjunction ("OR" conjunction)*
conjunction := unary ("AND" unary)*
unary       := "NOT" unary | "(" disjunction ")" | predicate
predicate   := operand comparison operand
             | operand ["NOT"] "LIKE" operand
             | column "IS" ["NOT"] "NULL"
             | column ["NOT"] "IN" "(" literal ("," literal)* ")"
             | column ["NOT"] "BETWEEN" literal "AND" literal
operand     := column | literal
```

Names become columns, literals become bound values, and nothing else does.  The
whole text must be used up.  Negations and parentheses nest at most 63 deep
around a predicate.
-/

namespace BoundSql

namespace ConditionText

/-- What the grammar asks for at a place. -/
inductive Expectation
  | comparison
  | value
  /-- A value where there is a parenthesis. -/
  | plainValue
  | token (t : Token)
  deriving DecidableEq

/-- The wording of an expectation. -/
def Expectation.message : Expectation → String
  | .comparison => "expected comparison operator"
  | .value => "expected a value"
  | .plainValue => "nested expressions are not allowed here"
  | .token t => s!"expected {t.describe}"

/-- The forms whose left side must be a column. -/
inductive ColumnForm
  | isNull | in | between
  deriving DecidableEq

/-- The words of a form. -/
def ColumnForm.words : ColumnForm → String
  | .isNull => "IS NULL"
  | .in => "IN"
  | .between => "BETWEEN"

/-- Why a text is no condition. -/
inductive Fault
  | lexical (fault : LexFault)
  | empty
  | trailing
  | tooDeep
  | expected (what : Expectation) (found : Option Token)
  | needsColumn (form : ColumnForm)
  deriving DecidableEq

/-- The wording of a fault. -/
def Fault.message : Fault → String
  | .lexical fault => fault.message
  | .empty => "empty condition"
  | .trailing => "unexpected trailing input"
  | .tooDeep => "condition nested too deeply"
  | .expected what found =>
    let found := match found with
      | some t => t.describe
      | none => "end of input"
    s!"{what.message}, found {found}"
  | .needsColumn form => s!"{form.words} requires a column on the left"

/-- A fault at a lexeme, or at the end of the text if no offset is given. -/
structure Failure where
  fault : Fault
  offset? : Option Nat

/-- The lexemes that are left of `all`. -/
structure Rest (all : List Lexeme) where
  lexemes : List Lexeme
  isSuffix : lexemes <:+ all

/-- Reads something from the front of some lexemes. -/
def Parse (α : Type) : Type := (all : List Lexeme) → Except Failure (α × Rest all)

namespace Parse

/-- Reads nothing. -/
def pure {α : Type} (a : α) : Parse α := fun all => .ok (a, ⟨all, List.suffix_refl all⟩)

/-- Reads one thing after another. -/
def bind {α β : Type} (p : Parse α) (f : α → Parse β) : Parse β := fun all =>
  match p all with
  | .error e => .error e
  | .ok (a, rest) =>
    match f a rest.lexemes with
    | .error e => .error e
    | .ok (b, last) => .ok (b, ⟨last.lexemes, last.isSuffix.trans rest.isSuffix⟩)

instance : Monad Parse where
  pure := Parse.pure
  bind := Parse.bind

end Parse

/-- The place of the next lexeme. -/
def here : Parse (Option Nat) := fun all =>
  .ok (all.head?.map Lexeme.offset, ⟨all, List.suffix_refl all⟩)

/-- The next token, which stays unread. -/
def peek : Parse (Option Token) := fun all =>
  .ok (all.head?.map Lexeme.token, ⟨all, List.suffix_refl all⟩)

/-- Passes over the next lexeme. -/
def skip : Parse Unit := fun all => .ok ((), ⟨all.tail, List.tail_suffix all⟩)

/-- Fails at a place. -/
def failAt {α : Type} (offset? : Option Nat) (fault : Fault) : Parse α :=
  fun _ => .error ⟨fault, offset?⟩

/-- Fails at the next lexeme, which is not what the grammar asks for. -/
def unexpected {α : Type} (what : Expectation) : Parse α := fun all =>
  .error ⟨.expected what (all.head?.map Lexeme.token), all.head?.map Lexeme.offset⟩

/-- Passes over the next lexeme if it has the given token, and tells whether it
did. -/
def eat (t : Token) : Parse Bool := do
  if (← peek) = some t then
    skip
    return true
  else return false

/-- Passes over a lexeme that must have the given token. -/
def expect (t : Token) : Parse Unit := do
  unless ← eat t do unexpected (.token t)

/-- A literal. -/
def literal : Parse Value := do
  match ← peek with
  | some t =>
    match t.literal? with
    | some v =>
      skip
      return v
    | none => unexpected (if t = .open then .plainValue else .value)
  | none => unexpected .value

/-- A column or a literal. -/
def operand : Parse Operand := do
  match ← peek with
  | some (.name text) =>
    skip
    return .column (Identifier.ofText text)
  | _ => return .value (← literal)

/-- One or more things with a separator between them. -/
def chain {α : Type} (separator : Token) (item : Parse α) (all : List Lexeme) :
    Except Failure (List α × Rest all) :=
  match item all with
  | .error e => .error e
  | .ok (first, rest) =>
    match h : rest.lexemes with
    | [] => .ok ([first], rest)
    | next :: more =>
      if next.token = separator then
        match chain separator item more with
        | .error e => .error e
        | .ok (others, last) =>
          .ok (first :: others, ⟨last.lexemes,
            last.isSuffix.trans ((List.suffix_cons next more).trans (h ▸ rest.isSuffix))⟩)
      else .ok ([first], rest)
termination_by all.length
decreasing_by
  have := rest.isSuffix.length_le
  simp only [h, List.length_cons] at this
  omega

/-- The column on the left of a form that needs one. -/
def column (form : ColumnForm) (start : Option Nat) : Operand → Parse Identifier
  | .column name => return name
  | .value _ => failAt start (.needsColumn form)

/-- The values in parentheses after IN. -/
def valueList : Parse (List Value) := do
  expect .open
  let values ← chain .comma literal
  expect .close
  return values

/-- The rest of a predicate after its left side and the word NOT, if that stood there. -/
def predicateTail (start : Option Nat) (left : Operand) (negated : Bool) : Parse Predicate := do
  match ← peek, negated with
  | some (.comparison op), false =>
    skip
    return .compare left op (← operand)
  | some (.keyword .like), negated =>
    skip
    let like := Predicate.compare left .like (← operand)
    return if negated then .not like else like
  | some (.keyword .is), false =>
    skip
    let name ← column .isNull start left
    let negated ← eat (.keyword .not)
    expect (.keyword .null)
    return .nullTest name negated
  | some (.keyword .in), negated =>
    skip
    let name ← column .in start left
    let values ← valueList
    return if negated then Predicate.notAmong name values else Predicate.among name values
  | some (.keyword .between), negated =>
    skip
    let name ← column .between start left
    let low ← literal
    expect (.keyword .and)
    let range := Predicate.between name low (← literal)
    return if negated then .not range else range
  | _, _ => unexpected .comparison

/-- A predicate, without negations and parentheses around it. -/
def predicate : Parse Predicate := do
  let start ← here
  let left ← operand
  let negated ← eat (.keyword .not)
  predicateTail start left negated

/-- A group of several members, or its only member by itself. -/
def collapse (group : List Predicate → Predicate) : List Predicate → Predicate
  | [only] => only
  | members => group members

/-- A chain of ANDs. -/
def conjunction (unary : Parse Predicate) : Parse Predicate := do
  return collapse .and (← chain (.keyword .and) unary)

/-- A chain of ORs. -/
def disjunction (unary : Parse Predicate) : Parse Predicate := do
  return collapse .or (← chain (.keyword .or) (conjunction unary))

/-- A predicate with negations and parentheses around it, fewer than `room` deep. -/
def unary : Nat → Parse Predicate
  | 0 => do failAt (← here) .tooDeep
  | room + 1 => do
    if ← eat (.keyword .not) then
      return .not (← unary room)
    else if ← eat .open then
      let inner ← disjunction (unary room)
      expect .close
      return inner
    else predicate

/-- One more than the negations and parentheses that may stand around a predicate. -/
def maxDepth : Nat := 64

/-- The condition that a text spells, or a fault with its byte offset. -/
def parse (text : String) : Except (Fault × Nat) Predicate :=
  let lexed := Lexed.scan text
  match lexed.fault? with
  | some fault => .error (.lexical fault, lexed.stop)
  | none =>
    if lexed.lexemes.isEmpty then .error (.empty, 0)
    else
      match disjunction (unary maxDepth) lexed.lexemes with
      | .error e => .error (e.fault, e.offset?.getD lexed.stop)
      | .ok (p, rest) =>
        match rest.lexemes with
        | [] => .ok p
        | next :: _ => .error (.trailing, next.offset)

end ConditionText

/-- The predicate that a condition text spells. -/
def Predicate.ofText (text : String) : Except SqlError Predicate :=
  (ConditionText.parse text).mapError fun (fault, offset) => .unparsable fault.message offset

end BoundSql
