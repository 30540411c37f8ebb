import BoundSql.Proofs.Identifier.Reading

/-!
# Names that cannot be escaped from

The reader of `BoundSql.Proofs.Identifier.Reading` takes back the parts of a written
name.  The other direction holds as well: a name that it reads stands at the front of the
text as that name is written, and what it leaves unread starts with neither a quote nor a
dot (`Identifier.eq_of_readName`).  So reading and writing name the same texts
(`Identifier.readName_eq_some`).

Where a character is read, inside or outside quotes, is a matter of the quotes alone.
Going through a text and keeping what stands outside them (`Identifier.outside`) leaves
of a written name the dots between its parts (`Identifier.outside_toSql`), and of the
text after the name what is left of it without the name.
-/

namespace BoundSql

namespace Identifier

variable {quote : Char}

/-! ## What is read is what was written -/

/-- The inside of a written part. -/
def escape (quote : Char) (part : List Char) : List Char :=
  part.flatMap fun c => if c = quote then [quote, quote] else [c]

/-- The quote character is doubled, and any other character stays. -/
theorem escape_cons (c : Char) (part : List Char) :
    escape quote (c :: part) =
      (if c = quote then [quote, quote] else [c]) ++ escape quote part :=
  List.flatMap_cons

/-- A part is written between two quotes, escaped. -/
theorem quotePart_ofList (part : List Char) :
    quotePart quote (String.ofList part) = quote :: (escape quote part ++ [quote]) := by
  rw [quotePart, String.toList_ofList, escape, List.cons_append]

/-- Written parts without the quote in front. -/
def openParts (quote : Char) : List (List Char) → List Char
  | [] => []
  | [part] => escape quote part ++ [quote]
  | part :: rest => escape quote part ++ quote :: '.' :: quote :: openParts quote rest

/-- Between two parts stand a quote, a dot and a quote. -/
theorem openParts_cons (part next : List Char) (parts : List (List Char)) :
    openParts quote (part :: next :: parts) =
      escape quote part ++ quote :: '.' :: quote :: openParts quote (next :: parts) := rfl

/-- A name is its opening quote and what a reader meets within. -/
theorem quoteParts_ofList {parts : List (List Char)} (h : parts ≠ []) :
    quoteParts quote (parts.map String.ofList) = quote :: openParts quote parts := by
  induction parts with
  | nil => exact absurd rfl h
  | cons part parts ih =>
      cases parts with
      | nil => exact quotePart_ofList part
      | cons next parts =>
          have ih := ih (List.cons_ne_nil _ _)
          rw [List.map_cons] at ih ⊢
          rw [List.map_cons, quoteParts_cons, ih, quotePart_ofList, openParts_cons,
            List.cons_append, List.append_assoc, List.singleton_append]

/-- A character in front of the first part is written in front of the parts. -/
theorem openParts_consChar (c : Char) {parts : List (List Char)} (h : parts ≠ []) :
    openParts quote (consChar c parts) =
      (if c = quote then [quote, quote] else [c]) ++ openParts quote parts := by
  cases parts with
  | nil => exact absurd rfl h
  | cons part parts =>
      cases parts with
      | nil => rw [consChar, openParts, openParts, escape_cons, List.append_assoc]
      | cons next parts =>
          rw [consChar, openParts_cons, openParts_cons, escape_cons, List.append_assoc]

/-- A character is always in some part. -/
theorem consChar_ne_nil (c : Char) (parts : List (List Char)) : consChar c parts ≠ [] := by
  cases parts with
  | nil => exact List.cons_ne_nil _ _
  | cons part parts => exact List.cons_ne_nil _ _

/-- What is read from within a name is written there, and the name ends there. -/
theorem eq_of_readParts {cs rest : List Char} {parts : List (List Char)}
    (h : readParts quote cs = some (parts, rest)) :
    parts ≠ [] ∧ cs = openParts quote parts ++ rest ∧ rest.head? ≠ some quote ∧
      rest.head? ≠ some '.' := by
  fun_induction readParts quote cs generalizing parts rest
  case case1 | case3 | case5 | case7 => simp at h
  case case2 =>
      -- the closing quote is the last character
      obtain ⟨rfl, rfl⟩ := Prod.mk.inj (Option.some.inj h)
      simp [openParts, escape, *]
  case case8 =>
      -- a closing quote in front of another character
      obtain ⟨rfl, rfl⟩ := Prod.mk.inj (Option.some.inj h)
      simp [openParts, escape, *]
  case case4 ih =>
      -- a doubled quote
      obtain ⟨⟨read, after⟩, hread, heq⟩ := Option.map_eq_some_iff.1 h
      obtain ⟨rfl, rfl⟩ := Prod.mk.inj heq
      obtain ⟨hne, rfl, hquote, hdot⟩ := ih hread
      refine ⟨consChar_ne_nil _ _, ?_, hquote, hdot⟩
      rw [openParts_consChar _ hne, if_pos rfl]
      simp [*]
  case case6 ih =>
      -- a quote, a dot and the quote of the next part
      obtain ⟨⟨read, after⟩, hread, heq⟩ := Option.map_eq_some_iff.1 h
      obtain ⟨rfl, rfl⟩ := Prod.mk.inj heq
      obtain ⟨hne, rfl, hquote, hdot⟩ := ih hread
      refine ⟨List.cons_ne_nil _ _, ?_, hquote, hdot⟩
      rw [openParts]
      · simp [escape, *]
      · exact hne
  case case9 hc ih =>
      -- a character of the part
      obtain ⟨⟨read, after⟩, hread, heq⟩ := Option.map_eq_some_iff.1 h
      obtain ⟨rfl, rfl⟩ := Prod.mk.inj heq
      obtain ⟨hne, htext, hquote, hdot⟩ := ih hread
      refine ⟨consChar_ne_nil _ _, ?_, hquote, hdot⟩
      rw [openParts_consChar _ hne, if_neg hc, htext]
      rfl

/-- **A name that is read stands there as it is written.** -/
theorem eq_of_readName {cs rest : List Char} {parts : List (List Char)}
    (h : readName quote cs = some (parts, rest)) :
    parts ≠ [] ∧ cs = quoteParts quote (parts.map String.ofList) ++ rest ∧
      rest.head? ≠ some quote ∧ rest.head? ≠ some '.' := by
  cases cs with
  | nil => exact absurd h.symm (Option.some_ne_none _)
  | cons c cs =>
      rw [readName] at h
      split at h
      · rename_i hc
        obtain ⟨hne, rfl, hends⟩ := eq_of_readParts h
        exact ⟨hne, by rw [quoteParts_ofList hne, hc, List.cons_append], hends⟩
      · exact absurd h.symm (Option.some_ne_none _)

/-- **Reading is the inverse of writing.**  The reader takes a name from a text just when
the text is that name as it is written and a rest that could not belong to it. -/
theorem readName_eq_some (hdot : quote ≠ '.') {cs rest : List Char}
    {parts : List (List Char)} :
    readName quote cs = some (parts, rest) ↔
      ∃ i : Identifier, i.parts.map String.toList = parts ∧
        cs = (i.toSql quote).toList ++ rest ∧ rest.head? ≠ some quote ∧
        rest.head? ≠ some '.' := by
  constructor
  · intro h
    obtain ⟨hne, htext, hends⟩ := eq_of_readName h
    refine ⟨⟨parts.map String.ofList, by simpa using hne⟩, ?_, ?_, hends⟩
    · rw [List.map_map]
      exact (List.map_congr_left fun part _ => String.toList_ofList).trans (List.map_id' parts)
    · rw [toSql, String.toList_ofList]
      exact htext
  · rintro ⟨i, rfl, rfl, hrest, hrest'⟩
    exact readName_toSql i hdot hrest hrest'

/-- An identifier is known by the characters of its parts. -/
theorem parts_injective {i j : Identifier}
    (h : i.parts.map String.toList = j.parts.map String.toList) : i = j := by
  have hparts : i.parts = j.parts :=
    List.map_inj_right (fun _ _ => String.toList_inj.1) |>.1 h
  cases i
  cases j
  simpa using hparts

/-! ## What stands outside the quotes -/

/-- The characters of a text that a reader sees outside quotes, from inside a quoted part
(`true`) or from outside.  Inside, a doubled quote is one character of the part. -/
def outside (quote : Char) : Bool → List Char → List Char
  | _, [] => []
  | false, c :: rest =>
    if c = quote then outside quote true rest else c :: outside quote false rest
  | true, [_] => []
  | true, c :: d :: rest =>
    if c = quote then
      if d = quote then outside quote true rest else outside quote false (d :: rest)
    else outside quote true (d :: rest)

/-- A quote outside opens a part. -/
theorem outside_open (rest : List Char) :
    outside quote false (quote :: rest) = outside quote true rest := by
  rw [outside, if_pos rfl]

/-- A dot between parts is seen. -/
theorem outside_dot (hdot : quote ≠ '.') (rest : List Char) :
    outside quote false ('.' :: rest) = '.' :: outside quote false rest := by
  rw [outside, if_neg (Ne.symm hdot)]

/-- A single quote closes a part. -/
theorem outside_close {rest : List Char} (hquote : rest.head? ≠ some quote) :
    outside quote true (quote :: rest) = outside quote false rest := by
  cases rest with
  | nil => rw [outside, outside]
  | cons d rest =>
      have hd : d ≠ quote := fun h => hquote (congrArg some h)
      simp only [outside, if_true, if_neg hd]

/-- Nothing of a part is seen outside the quotes. -/
theorem outside_escape (part : List Char) {rest : List Char}
    (hquote : rest.head? ≠ some quote) :
    outside quote true (escape quote part ++ quote :: rest) = outside quote false rest := by
  induction part with
  | nil => exact outside_close hquote
  | cons c part ih =>
      rw [escape_cons, List.append_assoc]
      by_cases hc : c = quote
      · rw [if_pos hc, List.cons_append, List.singleton_append, outside, if_pos rfl, if_pos rfl,
          ih]
      · rw [if_neg hc, List.singleton_append]
        obtain ⟨d, more, hmore⟩ := List.exists_cons_of_ne_nil
          (List.append_ne_nil_of_right_ne_nil (escape quote part) (List.cons_ne_nil quote rest))
        rw [hmore] at ih ⊢
        rw [outside, if_neg hc, ih]

/-- A quoted part has no character outside its quotes. -/
theorem outside_quotePart (part : String) {rest : List Char}
    (hquote : rest.head? ≠ some quote) :
    outside quote false (quotePart quote part ++ rest) = outside quote false rest := by
  have hpart : quotePart quote part ++ rest =
      quote :: (escape quote part.toList ++ quote :: rest) := by
    simp [quotePart, escape]
  rw [hpart, outside_open, outside_escape _ hquote]

/-- A quoted name has nothing outside its quotes but the dots between its parts. -/
theorem outside_quoteParts (hdot : quote ≠ '.') {parts : List String} (hparts : parts ≠ [])
    {rest : List Char} (hquote : rest.head? ≠ some quote) :
    outside quote false (quoteParts quote parts ++ rest) =
      List.replicate (parts.length - 1) '.' ++ outside quote false rest := by
  induction parts with
  | nil => exact absurd rfl hparts
  | cons part parts ih =>
      cases parts with
      | nil => rw [quoteParts, outside_quotePart _ hquote]; rfl
      | cons next parts =>
          have hnext : ('.' :: (quoteParts quote (next :: parts) ++ rest)).head? ≠ some quote :=
            fun h => hdot (Option.some.inj h).symm
          rw [quoteParts_cons, List.append_assoc, List.cons_append, outside_quotePart _ hnext,
            outside_dot hdot, ih (List.cons_ne_nil _ _)]
          rfl

/-- **Of a written name only the dots between its parts are seen outside the quotes,** and
the text after it is seen as it would be without the name. -/
theorem outside_toSql (i : Identifier) (hdot : quote ≠ '.') {rest : List Char}
    (hquote : rest.head? ≠ some quote) :
    outside quote false ((i.toSql quote).toList ++ rest) =
      List.replicate (i.parts.length - 1) '.' ++ outside quote false rest := by
  rw [toSql, String.toList_ofList, outside_quoteParts hdot i.parts_ne_nil hquote]

/-! ## Written names -/

/-- **A name is read back and cannot be escaped from,** whatever its parts are.  In front
of a text that starts with neither the quote nor a dot the reader takes exactly its parts
and stops at that text; alone it is read to its end.  Two names that start the same text
are the same name.  Outside the quotes stand only the dots between the parts. -/
theorem quoted_names_read_back (quote : Char) (hdot : quote ≠ '.') (i : Identifier) :
    (∀ rest : List Char, rest.head? ≠ some quote → rest.head? ≠ some '.' →
      readName quote ((i.toSql quote).toList ++ rest) = some (i.parts.map String.toList, rest) ∧
      outside quote false ((i.toSql quote).toList ++ rest) =
        List.replicate (i.parts.length - 1) '.' ++ outside quote false rest ∧
      ∀ (j : Identifier) (rest' : List Char), rest'.head? ≠ some quote → rest'.head? ≠ some '.' →
        (i.toSql quote).toList ++ rest = (j.toSql quote).toList ++ rest' → i = j ∧ rest = rest') ∧
    readName quote (i.toSql quote).toList = some (i.parts.map String.toList, []) ∧
    ∀ j : Identifier, i.toSql quote = j.toSql quote → i = j := by
  have hread : ∀ (j : Identifier) (rest : List Char), rest.head? ≠ some quote →
      rest.head? ≠ some '.' →
      readName quote ((j.toSql quote).toList ++ rest) = some (j.parts.map String.toList, rest) :=
    fun j _ hrest hrest' => readName_toSql j hdot hrest hrest'
  have hwhole : ∀ j : Identifier,
      readName quote (j.toSql quote).toList = some (j.parts.map String.toList, []) := by
    intro j
    simpa using hread j [] (by simp) (by simp)
  refine ⟨fun rest hrest hrest' => ⟨hread i rest hrest hrest', outside_toSql i hdot hrest, ?_⟩,
    hwhole i, ?_⟩
  · intro j rest' hj hj' htext
    have heq := hread i rest hrest hrest'
    rw [htext, hread j rest' hj hj'] at heq
    obtain ⟨hparts, rfl⟩ := Prod.mk.inj (Option.some.inj heq)
    exact ⟨(parts_injective hparts).symm, rfl⟩
  · intro j htext
    have heq := hwhole i
    rw [htext, hwhole j] at heq
    exact (parts_injective (Prod.mk.inj (Option.some.inj heq)).1).symm

/-- A name of a lone quote, nothing, and a quote behind a dot. -/
def quotedParts : Identifier := ⟨["\x60", "", "x.\x60"], by decide⟩

/-- Parts with nothing but a quote, without characters and with a dot in front of a quote,
in a condition. -/
theorem quoted_parts_read_back :
    '\x60' ≠ '.' ∧ quotedParts.toSql '\x60' = "\x60\x60\x60\x60.\x60\x60.\x60x.\x60\x60\x60" ∧
    readName '\x60' ((quotedParts.toSql '\x60').toList ++ " = 1".toList) =
      some (quotedParts.parts.map String.toList, " = 1".toList) ∧
    outside '\x60' false ((quotedParts.toSql '\x60').toList ++ " = 1".toList) =
      ".. = 1".toList := by
  have hread := (quoted_names_read_back '\x60' (by decide) quotedParts).1 " = 1".toList
    (by decide) (by decide)
  exact ⟨by decide, rfl, hread.1, hread.2.1.trans rfl⟩

end Identifier

end BoundSql
