import BoundSql.Identifier

/-!
# Reading quoted names

A reader of SQL goes into a quoted part at the quote character, takes a doubled quote
as one and leaves the part at a single one.  A dot and another quote go on with the next
part of the name; anything else ends the name and is left unread.

What it reads from a written name are the parts of the name, whatever stands in them
(`Identifier.readName_toSql`).  So the names in a text can be found by going through it
from quote to quote (`Identifier.namesIn`): a text without a quote has none, and a
written name in front of a text is the first of its names.
-/

namespace BoundSql

namespace Identifier

/-- A character in front of the first part. -/
def consChar (c : Char) : List (List Char) → List (List Char)
  | [] => [[c]]
  | part :: parts => (c :: part) :: parts

/-- The parts of a name read from within its first part, and the text after the
name. -/
def readParts (quote : Char) : List Char → Option (List (List Char) × List Char)
  | [] => none
  | [c] => if c = quote then some ([[]], []) else none
  | c :: d :: rest =>
    if c = quote then
      if d = quote then
        (readParts quote rest).map fun (parts, after) => (consChar quote parts, after)
      else if d = '.' then
        match rest with
        | [] => none
        | e :: more =>
          if e = quote then (readParts quote more).map fun (parts, after) => ([] :: parts, after)
          else none
      else some ([[]], d :: rest)
    else (readParts quote (d :: rest)).map fun (parts, after) => (consChar c parts, after)

/-- The parts of a name at the front of a text, and the text after it. -/
def readName (quote : Char) : List Char → Option (List (List Char) × List Char)
  | [] => none
  | c :: rest => if c = quote then readParts quote rest else none

variable {quote : Char}

/-- Within a part another character than the quote belongs to the part. -/
theorem readParts_cons {c : Char} (hc : c ≠ quote) (rest : List Char) :
    readParts quote (c :: rest) =
      (readParts quote rest).map fun (parts, after) => (consChar c parts, after) := by
  rw [readParts.eq_def quote (c :: rest)]
  cases rest with
  | nil => exact if_neg hc
  | cons d rest => exact if_neg hc

/-- A doubled quote is a quote. -/
theorem readParts_doubled (rest : List Char) :
    readParts quote (quote :: quote :: rest) =
      (readParts quote rest).map fun (parts, after) => (consChar quote parts, after) := by
  rw [readParts.eq_def]
  simp only [if_true]

/-- A single quote ends the name where no dot follows. -/
theorem readParts_close {rest : List Char} (hquote : rest.head? ≠ some quote)
    (hdot : rest.head? ≠ some '.') : readParts quote (quote :: rest) = some ([[]], rest) := by
  rw [readParts.eq_def]
  cases rest with
  | nil => exact if_pos rfl
  | cons d rest =>
      have hd : d ≠ quote := fun h => hquote (congrArg some h)
      have hd' : d ≠ '.' := fun h => hdot (congrArg some h)
      simp only [if_true, if_neg hd, if_neg hd']

/-- A single quote, a dot and another quote end a part. -/
theorem readParts_next (hdot : quote ≠ '.') (rest : List Char) :
    readParts quote (quote :: '.' :: quote :: rest) =
      (readParts quote rest).map fun (parts, after) => ([] :: parts, after) := by
  rw [readParts.eq_def]
  simp only [if_true, if_neg (Ne.symm hdot)]

/-- The inside of a quoted part is the part. -/
theorem readParts_escaped (part rest : List Char) :
    readParts quote
        (part.flatMap (fun c => if c = quote then [quote, quote] else [c]) ++ rest) =
      (readParts quote rest).map fun (parts, after) => (part.foldr consChar parts, after) := by
  induction part with
  | nil => exact Option.map_id'.symm
  | cons c part ih =>
      have hmap : ((readParts quote rest).map fun (parts, after) =>
          (part.foldr consChar parts, after)).map
            (fun (parts, after) => (consChar c parts, after)) =
          (readParts quote rest).map fun (parts, after) =>
            ((c :: part).foldr consChar parts, after) := by
        rw [Option.map_map]
        rfl
      rw [List.flatMap_cons, List.append_assoc]
      by_cases hc : c = quote
      · subst hc
        rw [if_pos rfl, List.cons_append, List.singleton_append, readParts_doubled, ih, hmap]
      · rw [if_neg hc, List.singleton_append, readParts_cons hc, ih, hmap]

/-- Characters in front belong to the first part. -/
theorem foldr_consChar (part first : List Char) (others : List (List Char)) :
    part.foldr consChar (first :: others) = (part ++ first) :: others := by
  induction part with
  | nil => rfl
  | cons c part ih => rw [List.foldr_cons, ih, consChar, List.cons_append]

/-- A quoted part is read up to its closing quote. -/
theorem readName_quotePart (part : String) (rest : List Char) :
    readName quote (quotePart quote part ++ rest) =
      (readParts quote (quote :: rest)).map fun (parts, after) =>
        (part.toList.foldr consChar parts, after) := by
  rw [quotePart, List.append_assoc, List.cons_append, readName, if_pos rfl, readParts_escaped,
    List.singleton_append]

/-- In front of others a part is followed by a dot. -/
theorem quoteParts_cons (part next : String) (parts : List String) :
    quoteParts quote (part :: next :: parts) =
      quotePart quote part ++ '.' :: quoteParts quote (next :: parts) := rfl

/-- Written parts start with a quote. -/
theorem exists_quoteParts_cons (quote : Char) (part : String) (parts : List String) :
    ∃ rest, quoteParts quote (part :: parts) = quote :: rest := by
  cases parts with
  | nil => exact ⟨_, rfl⟩
  | cons next parts => exact ⟨_, rfl⟩

/-- What is read from written parts are the parts. -/
theorem readName_quoteParts (hdot : quote ≠ '.') {parts : List String} (hparts : parts ≠ [])
    {rest : List Char} (hrest : rest.head? ≠ some quote) (hrest' : rest.head? ≠ some '.') :
    readName quote (quoteParts quote parts ++ rest) = some (parts.map String.toList, rest) := by
  induction parts with
  | nil => exact absurd rfl hparts
  | cons part parts ih =>
      cases parts with
      | nil =>
          rw [quoteParts, readName_quotePart, readParts_close hrest hrest']
          simp only [Option.map_some, foldr_consChar, List.append_nil, List.map_cons, List.map_nil]
      | cons next parts =>
          have ih := ih (List.cons_ne_nil _ _)
          obtain ⟨more, hmore⟩ := exists_quoteParts_cons quote next parts
          rw [hmore, List.cons_append, readName, if_pos rfl] at ih
          rw [quoteParts_cons, List.append_assoc, readName_quotePart, hmore, List.cons_append,
            List.cons_append, readParts_next hdot, ih]
          simp only [Option.map_some, foldr_consChar, List.append_nil, List.map_cons]

/-- **A written name is read back,** whatever stands in its parts. -/
theorem readName_toSql (i : Identifier) (hdot : quote ≠ '.') {rest : List Char}
    (hrest : rest.head? ≠ some quote) (hrest' : rest.head? ≠ some '.') :
    readName quote ((i.toSql quote).toList ++ rest) = some (i.parts.map String.toList, rest) := by
  rw [toSql, String.toList_ofList]
  exact readName_quoteParts hdot i.parts_ne_nil hrest hrest'

/-! ## Names in a text -/

/-- Reading parts never lengthens the rest. -/
theorem length_readParts {cs after : List Char} {parts : List (List Char)}
    (h : readParts quote cs = some (parts, after)) : after.length ≤ cs.length := by
  fun_induction readParts quote cs generalizing parts after
  case case1 | case3 | case5 | case7 => simp at h
  case case2 | case8 =>
      obtain ⟨-, rfl⟩ := Prod.mk.inj (Option.some.inj h)
      simp
  case case4 ih | case6 ih | case9 ih =>
      obtain ⟨_, hread, heq⟩ := Option.map_eq_some_iff.1 h
      obtain ⟨-, rfl⟩ := Prod.mk.inj heq
      have hlength := ih hread
      simp only [List.length_cons] at hlength ⊢
      omega

/-- The names in a text, each with its parts; a name that does not end is none. -/
def namesIn (quote : Char) : List Char → List (List (List Char))
  | [] => []
  | c :: rest =>
    if c = quote then
      match _h : readParts quote rest with
      | some (parts, after) => parts :: namesIn quote after
      | none => []
    else namesIn quote rest
termination_by cs => cs.length
decreasing_by
  · exact Nat.lt_succ_of_le (length_readParts _h)
  · exact Nat.lt_succ_self _

theorem namesIn_nil : namesIn quote [] = [] := by rw [namesIn]

/-- A text without a quote has no names. -/
theorem namesIn_append {word : List Char} (h : quote ∉ word) (rest : List Char) :
    namesIn quote (word ++ rest) = namesIn quote rest := by
  induction word with
  | nil => rfl
  | cons c word ih =>
      rw [List.cons_append, namesIn, if_neg fun hc => h (by simp [hc]),
        ih fun hmem => h (List.mem_cons_of_mem c hmem)]

/-- **A written name is the first name of a text that it stands in front of.** -/
theorem namesIn_toSql_append (i : Identifier) (hdot : quote ≠ '.') {rest : List Char}
    (hrest : rest.head? ≠ some quote) (hrest' : rest.head? ≠ some '.') :
    namesIn quote ((i.toSql quote).toList ++ rest) =
      i.parts.map String.toList :: namesIn quote rest := by
  have hread := readName_toSql i hdot hrest hrest'
  cases hcs : (i.toSql quote).toList ++ rest with
  | nil => simp [hcs, readName] at hread
  | cons c cs =>
      rw [hcs, readName] at hread
      split at hread
      · rename_i hc
        rw [namesIn, if_pos hc]
        split
        · rename_i parts after hparts
          rw [hread] at hparts
          obtain ⟨rfl, rfl⟩ := Prod.mk.inj (Option.some.inj hparts)
          rfl
        · rename_i hnone
          rw [hread] at hnone
          exact absurd hnone (Option.some_ne_none _)
      · exact absurd hread.symm (Option.some_ne_none _)

end Identifier

end BoundSql
