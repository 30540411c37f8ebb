import BoundSql.Proofs.Json.Numbers
import BoundSql.Proofs.Json.Strings

/-!
# JSON trees read back

The text of a tree is read back as the tree, whatever its depth, if its numbers and strings
have their form; what a value is written as has this form.  A reader takes two steps for a
character at most, so the steps that it is given suffice.
-/

namespace BoundSql

namespace JsonText

mutual

/-- The numbers and strings of a tree have their form. -/
def WellFormed : JsonText → Prop
  | .null => True
  | .bool _ => True
  | .number n => n.WellFormed
  | .string units => ∀ u ∈ units, u.Readable
  | .array items => ItemsWellFormed items
  | .object members => MembersWellFormed members

def ItemsWellFormed : List JsonText → Prop
  | [] => True
  | item :: rest => item.WellFormed ∧ ItemsWellFormed rest

def MembersWellFormed : List (List StringUnit × JsonText) → Prop
  | [] => True
  | (key, value) :: rest =>
    ((∀ u ∈ key, u.Readable) ∧ value.WellFormed) ∧ MembersWellFormed rest

end

/-- Members can be read if their keys and their values can, one by one. -/
theorem membersWellFormed_iff {members : List (List StringUnit × JsonText)} :
    MembersWellFormed members ↔
      ∀ member ∈ members, (∀ u ∈ member.1, u.Readable) ∧ member.2.WellFormed := by
  induction members with
  | nil => exact iff_of_true trivial (List.forall_mem_nil _)
  | cons member rest ih =>
      obtain ⟨key, value⟩ := member
      rw [MembersWellFormed, ih, List.forall_mem_cons]

variable {fuel : Nat} {rest : List Char}

/-- What is no space is not skipped. -/
theorem skipSpace_cons {c : Char} (h : isSpace c = false) (rest : List Char) :
    skipSpace (c :: rest) = c :: rest := by
  rw [skipSpace, List.dropWhile_cons, h]
  rfl

/-- A text with its quotes, as the reader meets them. -/
theorem quoted_append (units : List StringUnit) (rest : List Char) :
    StringUnit.quoted units ++ rest =
      '\x22' :: (units.flatMap StringUnit.toChars ++ '\x22' :: rest) := by
  simp [StringUnit.quoted]

/-- A text in quotes is a value as soon as there is fuel for one step. -/
theorem readValue?_string {units : List StringUnit} (h : ∀ u ∈ units, u.Readable)
    (fuel : Nat) (rest : List Char) :
    readValue? (fuel + 1) (StringUnit.quoted units ++ rest) = some (.string units, rest) := by
  have hunits := readString?_units h rest
  rw [quoted_append, readValue?, skipSpace_cons rfl]
  simp only [if_true, hunits, Option.map_some]

/-- A character that starts a number. -/
def StartsNumber (c : Char) : Prop := c = '-' ∨ c.isDigit = true

/-- A number starts with a minus sign or a digit alone. -/
theorem StartsNumber.ne {c d : Char} (h : StartsNumber c) (hminus : d ≠ '-')
    (hdigit : d.isDigit = false) : c ≠ d := by
  rintro rfl
  rcases h with h | h
  · exact hminus h
  · exact Bool.false_ne_true (hdigit.symm.trans h)

/-- No number starts with a space. -/
theorem StartsNumber.isSpace {c : Char} (h : StartsNumber c) : isSpace c = false := by
  simp [JsonText.isSpace, h.ne (d := ' ') (by decide) rfl, h.ne (d := '\t') (by decide) rfl,
    h.ne (d := '\r') (by decide) rfl, h.ne (d := '\n') (by decide) rfl]

/-- The first character of a number tells that it is one. -/
theorem exists_head_number {n : NumberText} (h : n.WellFormed) :
    ∃ c cs, n.toChars = c :: cs ∧ StartsNumber c := by
  rw [NumberText.toChars_eq]
  cases n.negative with
  | true => exact ⟨'-', _, rfl, .inl rfl⟩
  | false =>
      obtain ⟨c, ds, hwhole⟩ := List.exists_cons_of_ne_nil h.whole.1
      have hdigits := h.whole.2
      rw [hwhole] at hdigits ⊢
      exact ⟨c, _, rfl, .inr (Bool.and_eq_true_iff.1 (List.all_cons.symm.trans hdigits)).1⟩

/-- A number is a value as soon as there is fuel for one step. -/
theorem readValue?_number {n : NumberText} (h : n.WellFormed) (hrest : Follows rest)
    (fuel : Nat) : readValue? (fuel + 1) (n.toChars ++ rest) = some (.number n, rest) := by
  have hread := readNumber?_toChars h hrest
  obtain ⟨c, cs, hchars, hc⟩ := exists_head_number h
  have hopens : (c = '-' || c.isDigit) = true := by simpa [StartsNumber] using hc
  rw [hchars, List.cons_append] at hread ⊢
  rw [readValue?, skipSpace_cons hc.isSpace]
  simp only [hc.ne (d := '\x22') (by decide) rfl, hc.ne (d := '[') (by decide) rfl,
    hc.ne (d := '\x7b') (by decide) rfl, hopens, if_true, if_false, hread, Option.map_some]

/-- A value starts with a character that is no space and does not close an array. -/
theorem exists_head {t : JsonText} (h : t.WellFormed) : ∃ c cs, t.toChars = c :: cs ∧
    isSpace c = false ∧ c ≠ ']' := by
  cases t with
  | null => exact ⟨'n', _, rfl, rfl, by decide⟩
  | bool b => cases b <;> exact ⟨_, _, rfl, rfl, by decide⟩
  | string units => exact ⟨'\x22', _, rfl, rfl, by decide⟩
  | array items => exact ⟨'[', _, rfl, rfl, by decide⟩
  | object members => exact ⟨'\x7b', _, rfl, rfl, by decide⟩
  | number n =>
      obtain ⟨c, cs, hchars, hc⟩ := exists_head_number h
      exact ⟨c, cs, hchars, hc.isSpace, hc.ne (by decide) rfl⟩

/-- The items of an array start as the first of them does. -/
theorem exists_head_items {item : JsonText} {items : List JsonText}
    (h : ItemsWellFormed (item :: items)) : ∃ c cs, itemChars (item :: items) = c :: cs ∧
      isSpace c = false ∧ c ≠ ']' := by
  obtain ⟨c, cs, hchars, hc⟩ := exists_head h.1
  cases items with
  | nil => exact ⟨c, cs, hchars, hc⟩
  | cons next more =>
      refine ⟨c, cs ++ ',' :: itemChars (next :: more), ?_, hc⟩
      rw [itemChars, hchars, List.cons_append]
      exact List.cons_ne_nil _ _

/-- The members of an object start with a quote. -/
theorem exists_head_members (member : List StringUnit × JsonText)
    (members : List (List StringUnit × JsonText)) :
    ∃ cs, memberChars (member :: members) = '\x22' :: cs := by
  obtain ⟨key, value⟩ := member
  cases members with
  | nil => exact ⟨_, rfl⟩
  | cons next more => exact ⟨_, rfl⟩

/-- An array is read if its items are. -/
theorem readValue?_array {items : List JsonText} (h : ItemsWellFormed items)
    (hitems : items ≠ [] →
      readItems? fuel (itemChars items ++ ']' :: rest) = some (items, rest)) :
    readValue? (fuel + 1) ((array items).toChars ++ rest) = some (.array items, rest) := by
  have hchars : (array items).toChars ++ rest = '[' :: (itemChars items ++ ']' :: rest) := by
    simp [toChars]
  rw [hchars, readValue?, skipSpace_cons rfl]
  cases items with
  | nil => rfl
  | cons item items =>
      obtain ⟨c, cs, hhead, hspace, hclose⟩ := exists_head_items h
      have hread := hitems (List.cons_ne_nil _ _)
      rw [hhead, List.cons_append] at hread ⊢
      simp only [Char.reduceEq, if_true, if_false, skipSpace_cons hspace]
      split
      · rename_i heq
        exact absurd (List.cons.inj heq).1 hclose
      · rw [hread, Option.map_some]

/-- An object is read if its members are. -/
theorem readValue?_object {members : List (List StringUnit × JsonText)}
    (hmembers : members ≠ [] →
      readMembers? fuel (memberChars members ++ '\x7d' :: rest) = some (members, rest)) :
    readValue? (fuel + 1) ((object members).toChars ++ rest) = some (.object members, rest) := by
  have hchars : (object members).toChars ++ rest =
      '\x7b' :: (memberChars members ++ '\x7d' :: rest) := by
    simp [toChars]
  rw [hchars, readValue?, skipSpace_cons rfl]
  cases members with
  | nil => rfl
  | cons member members =>
      obtain ⟨cs, hhead⟩ := exists_head_members member members
      have hread := hmembers (List.cons_ne_nil _ _)
      rw [hhead, List.cons_append] at hread ⊢
      have hspace : isSpace '\x22' = false := rfl
      simp only [Char.reduceEq, if_true, if_false, skipSpace_cons hspace]
      show Option.map _ (readMembers? fuel _) = _
      rw [hread, Option.map_some]

/-- The last item of an array. -/
theorem readItems?_last {input : List Char} {item : JsonText}
    (h : readValue? fuel input = some (item, ']' :: rest)) :
    readItems? (fuel + 1) input = some ([item], rest) := by
  rw [readItems?, h]
  rfl

/-- An item of an array with others behind it. -/
theorem readItems?_cons {input more : List Char} {item : JsonText} {items : List JsonText}
    (h : readValue? fuel input = some (item, ',' :: more))
    (hmore : readItems? fuel more = some (items, rest)) :
    readItems? (fuel + 1) input = some (item :: items, rest) := by
  rw [readItems?, h]
  simp only [Option.bind_eq_bind, Option.bind_some, skipSpace_cons (c := ',') rfl, hmore]
  rfl

/-- The last member of an object. -/
theorem readMembers?_last {key : List StringUnit} (hkey : ∀ u ∈ key, u.Readable)
    {input : List Char} {value : JsonText}
    (h : readValue? fuel input = some (value, '\x7d' :: rest)) :
    readMembers? (fuel + 1) (StringUnit.quoted key ++ ':' :: input) =
      some ([(key, value)], rest) := by
  rw [quoted_append, readMembers?, skipSpace_cons rfl]
  simp only [readString?_units hkey, Option.bind_eq_bind, Option.bind_some,
    skipSpace_cons (c := ':') rfl, h]
  rfl

/-- A member of an object with others behind it. -/
theorem readMembers?_cons {key : List StringUnit} (hkey : ∀ u ∈ key, u.Readable)
    {input more : List Char} {value : JsonText} {members : List (List StringUnit × JsonText)}
    (h : readValue? fuel input = some (value, ',' :: more))
    (hmore : readMembers? fuel more = some (members, rest)) :
    readMembers? (fuel + 1) (StringUnit.quoted key ++ ':' :: input) =
      some ((key, value) :: members, rest) := by
  rw [quoted_append, readMembers?, skipSpace_cons rfl]
  simp only [readString?_units hkey, Option.bind_eq_bind, Option.bind_some,
    skipSpace_cons (c := ':') rfl, skipSpace_cons (c := ',') rfl, h, hmore]
  rfl

/-- No value is spelled by the empty text, so each takes fuel that its container has left. -/
theorem length_toChars_pos {t : JsonText} (h : t.WellFormed) : 0 < t.toChars.length := by
  obtain ⟨c, cs, hchars, -⟩ := exists_head h
  rw [hchars]
  exact Nat.succ_pos _

-- An item is read with one step less than its list, so a list needs a step more than twice
-- its characters; its brackets make up for this in the value around it.
mutual

/-- **A tree is read back by itself**, where nothing follows that belongs to it. -/
theorem readValue?_toChars : ∀ {t : JsonText} {fuel : Nat} {rest : List Char}, t.WellFormed →
    2 * t.toChars.length ≤ fuel → Follows rest →
      readValue? fuel (t.toChars ++ rest) = some (t, rest)
  | t, 0, _, h, hfuel, _ => by
      have hlength := length_toChars_pos h
      omega
  | .null, _ + 1, _, _, _, _ => rfl
  | .bool true, _ + 1, _, _, _, _ => rfl
  | .bool false, _ + 1, _, _, _, _ => rfl
  | .number n, fuel + 1, _, h, _, hrest => readValue?_number h hrest fuel
  | .string units, fuel + 1, rest, h, _, _ => readValue?_string h fuel rest
  | .array items, fuel + 1, rest, h, hfuel, _ => by
      have hlength : 2 * (itemChars items).length + 1 ≤ fuel := by
        simp only [toChars, List.length_cons, List.length_append, List.length_nil] at hfuel
        omega
      exact readValue?_array h fun hne => readItems?_itemChars hne h hlength
  | .object members, fuel + 1, rest, h, hfuel, _ => by
      have hlength : 2 * (memberChars members).length + 1 ≤ fuel := by
        simp only [toChars, List.length_cons, List.length_append, List.length_nil] at hfuel
        omega
      exact readValue?_object fun hne => readMembers?_memberChars hne h hlength

/-- Items are read back up to the bracket behind them, with fuel for two steps a character. -/
theorem readItems?_itemChars : ∀ {items : List JsonText} {fuel : Nat} {rest : List Char},
    items ≠ [] → ItemsWellFormed items → 2 * (itemChars items).length + 1 ≤ fuel →
      readItems? fuel (itemChars items ++ ']' :: rest) = some (items, rest)
  | _, 0, _, _, _, hfuel => absurd hfuel (Nat.not_succ_le_zero _)
  | [], _ + 1, _, hne, _, _ => absurd rfl hne
  | [item], fuel + 1, rest, _, h, hfuel => by
      have hlength : 2 * item.toChars.length ≤ fuel := Nat.le_of_succ_le_succ hfuel
      exact readItems?_last (readValue?_toChars h.1 hlength rfl)
  | item :: next :: more, fuel + 1, rest, _, h, hfuel => by
      have hchars : itemChars (item :: next :: more) =
          item.toChars ++ ',' :: itemChars (next :: more) := by
        rw [itemChars]
        exact List.cons_ne_nil _ _
      rw [hchars, List.length_append, List.length_cons] at hfuel
      rw [hchars, List.append_assoc, List.cons_append]
      exact readItems?_cons (readValue?_toChars h.1 (by omega) rfl)
        (readItems?_itemChars (List.cons_ne_nil _ _) h.2 (by omega))

/-- Members are read back up to the brace behind them, with fuel for two steps a character. -/
theorem readMembers?_memberChars :
    ∀ {members : List (List StringUnit × JsonText)} {fuel : Nat} {rest : List Char},
    members ≠ [] → MembersWellFormed members → 2 * (memberChars members).length + 1 ≤ fuel →
      readMembers? fuel (memberChars members ++ '\x7d' :: rest) = some (members, rest)
  | _, 0, _, _, _, hfuel => absurd hfuel (Nat.not_succ_le_zero _)
  | [], _ + 1, _, hne, _, _ => absurd rfl hne
  | [(key, value)], fuel + 1, rest, _, h, hfuel => by
      have hchars : memberChars [(key, value)] = StringUnit.quoted key ++ ':' :: value.toChars :=
        rfl
      rw [hchars, List.length_append, List.length_cons] at hfuel
      rw [hchars, List.append_assoc, List.cons_append]
      exact readMembers?_last h.1.1 (readValue?_toChars h.1.2 (by omega) rfl)
  | (key, value) :: next :: more, fuel + 1, rest, _, h, hfuel => by
      have hchars : memberChars ((key, value) :: next :: more) =
          StringUnit.quoted key ++ ':' :: (value.toChars ++ ',' :: memberChars (next :: more)) :=
        by
        rw [memberChars, List.append_assoc, List.cons_append]
        exact List.cons_ne_nil _ _
      rw [hchars, List.length_append, List.length_cons, List.length_append,
        List.length_cons] at hfuel
      rw [hchars, List.append_assoc, List.cons_append, List.append_assoc, List.cons_append]
      exact readMembers?_cons h.1.1 (readValue?_toChars h.1.2 (by omega) rfl)
        (readMembers?_memberChars (List.cons_ne_nil _ _) h.2 (by omega))

end

/-- **The text of a tree is read back as the tree**, whatever its depth. -/
theorem ofText?_toText {t : JsonText} (h : t.WellFormed) : ofText? t.toText = some t := by
  have hend : Follows [] := rfl
  have hread := readValue?_toChars h (Nat.le_add_right _ 2) hend
  rw [List.append_nil] at hread
  rw [ofText?, toText, String.toList_ofList]
  simp only [hread, Option.bind_eq_bind, Option.bind_some]
  rfl

mutual

/-- **What a value is written as has its form.** -/
theorem wellFormed_ofValue : ∀ j : Json, (ofValue j).WellFormed
  | .null => trivial
  | .bool _ => trivial
  | .number n => NumberText.wellFormed_ofNumber n
  | .string s => StringUnit.readable_ofText s
  | .array items => wellFormed_ofItems items
  | .object members => wellFormed_ofMembers members

/-- The spellings of items can be read. -/
theorem wellFormed_ofItems : ∀ items : List Json, ItemsWellFormed (ofItems items)
  | [] => trivial
  | item :: rest => ⟨wellFormed_ofValue item, wellFormed_ofItems rest⟩

/-- The spellings of members can be read, keys included. -/
theorem wellFormed_ofMembers : ∀ members : List (String × Json),
    MembersWellFormed (ofMembers members)
  | [] => trivial
  | (key, value) :: rest =>
    ⟨⟨StringUnit.readable_ofText key, wellFormed_ofValue value⟩, wellFormed_ofMembers rest⟩

end

end JsonText

end BoundSql
