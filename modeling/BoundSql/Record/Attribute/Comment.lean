/-!
# Comments in mapping attributes

A comment counts as white space.

| comment | ends |
| --- | --- |
| `// …` | before the end of the line, or with the text |
| `/* … */` | at the mark that closes it; a comment inside is closed first |

What begins with `///`, `/**`, `//!` or `/*!` is documentation and no comment; but
`////` and `/***` begin comments again, and `/**/` is an empty one.
-/

namespace BoundSql

namespace Attribute

namespace Comment

/-- The text begins with documentation. -/
def isDocumentation : List Char → Bool
  | '/' :: '/' :: '!' :: _ => true
  | '/' :: '*' :: '!' :: _ => true
  | '/' :: '/' :: '/' :: rest => rest.head? != some '/'
  | '/' :: '*' :: '*' :: rest => rest.head? != some '*' && rest.head? != some '/'
  | _ => false

/-- What follows the mark that closes a comment, with `depth` comments open inside it. -/
def afterClose? (depth : Nat) : List Char → Option (List Char)
  | '/' :: '*' :: rest => afterClose? (depth + 1) rest
  | '*' :: '/' :: rest => if depth = 0 then some rest else afterClose? (depth - 1) rest
  | _ :: rest => afterClose? depth rest
  | [] => none

/-- What follows the comment that the text begins with, if it does and the comment ends. -/
def after? (cs : List Char) : Option (List Char) :=
  if isDocumentation cs then none
  else
    match cs with
    | '/' :: '/' :: rest => some (rest.dropWhile (· != '\n'))
    | '/' :: '*' :: rest => afterClose? 0 rest
    | _ => none

/-- What follows a comment is no longer than what it was read from. -/
theorem length_afterClose? {depth : Nat} {cs rest : List Char}
    (h : afterClose? depth cs = some rest) : rest.length ≤ cs.length := by
  fun_induction afterClose? depth cs with
  | case1 depth cs ih => have := ih h; simp only [List.length_cons]; omega
  | case2 cs => obtain rfl := Option.some.inj h; simp only [List.length_cons]; omega
  | case3 depth cs _ ih => have := ih h; simp only [List.length_cons]; omega
  | case4 depth c cs _ _ ih => have := ih h; simp only [List.length_cons]; omega
  | case5 => cases h

/-- A comment is not empty. -/
theorem length_after? {cs rest : List Char} (h : after? cs = some rest) :
    rest.length < cs.length := by
  unfold after? at h
  split at h
  · cases h
  · split at h
    · obtain rfl := Option.some.inj h
      have := fun line : List Char => (List.dropWhile_suffix (· != '\n') (l := line)).length_le
      exact Nat.lt_of_le_of_lt (this _) (by simp only [List.length_cons]; omega)
    · have := length_afterClose? h
      simp only [List.length_cons]; omega
    · cases h

end Comment

end Attribute

end BoundSql
