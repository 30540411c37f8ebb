import BoundSql.SqlError
import BoundSql.Template.Marker

/-!
# Named markers

A statement may name its values: `:name` stands for the value of that name.  A
name is the longest run of ASCII letters, digits and underscores that does not
start with a digit.  Colons in quoted sections and doubled colons are text.
-/

namespace BoundSql

namespace Named

/-- A character that starts a name. -/
def startsName (c : Char) : Bool := c == '_' || c.isAlpha

/-- A character within a name. -/
def inName (c : Char) : Bool := c == '_' || c.isAlphanum

/-- What starts a name may stand within one. -/
theorem inName_of_startsName {c : Char} (h : startsName c = true) : inName c = true := by
  simp only [startsName, inName, Char.isAlphanum, Bool.or_eq_true] at h ⊢
  rcases h with h | h
  · exact .inl h
  · exact .inr (.inl h)

/-- A text that can be used as a name. -/
def isName (s : String) : Bool :=
  match s.toList with
  | [] => false
  | c :: rest => startsName c && rest.all inName

/-- A piece of a statement with named markers. -/
inductive Part
  | char (c : Char)
  | marker (name : String)
  deriving DecidableEq

/-- The parts of a text that goes on inside `section?`. -/
def partsFrom (section? : Option Char) : List Char → List Part
  | [] => []
  | c :: rest =>
    if section? = none ∧ c = ':' then
      match rest with
      | ':' :: rest => .char ':' :: .char ':' :: partsFrom none rest
      | first :: more =>
        if startsName first then
          .marker (String.ofList (first :: more.takeWhile inName)) ::
            partsFrom none (more.dropWhile inName)
        else .char c :: partsFrom none (first :: more)
      | [] => [.char c]
    else .char c :: partsFrom (Quoting.after section? c) rest
termination_by cs => cs.length
decreasing_by
  all_goals simp only [List.length_cons]
  · omega
  · have := (List.dropWhile_suffix inName (l := more)).length_le
    omega
  all_goals omega

/-- The parts of a statement's text. -/
def parts (sql : String) : List Part := partsFrom none sql.toList

/-- A part with the value of its name. -/
def bindPart (lookup : ValueMap) : Part → Except SqlError Piece
  | .char c => .ok (.text (String.singleton c))
  | .marker name =>
    match lookup.get? name with
    | some v => .ok (.bind v)
    | none => .error (.validation s!"named parameter ':{name}' has no value")

end Named

/-- A statement with named markers, the values looked up; the first name without
a value is an error. -/
def Template.ofNamed (sql : String) (lookup : ValueMap) : Except SqlError Template :=
  (Named.parts sql).mapM (Named.bindPart lookup)

end BoundSql
