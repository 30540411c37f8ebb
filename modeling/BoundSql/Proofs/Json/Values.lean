import BoundSql.Proofs.Json.Reading
import BoundSql.Proofs.KeyMap

/-!
# JSON values read back

A value is read back from the tree it is written as if its objects are ordered, its numbers
are read back and the room for its containers suffices.  Conversely every value that is read
is ordered and fits in the room that was given.
-/

namespace BoundSql

namespace JsonText

mutual

/-- How deep the containers of a tree nest. -/
def depth : JsonText → Nat
  | .null | .bool _ | .number _ | .string _ => 0
  | .array items => itemsDepth items + 1
  | .object members => membersDepth members + 1

def itemsDepth : List JsonText → Nat
  | [] => 0
  | item :: rest => max item.depth (itemsDepth rest)

def membersDepth : List (List StringUnit × JsonText) → Nat
  | [] => 0
  | (_, value) :: rest => max value.depth (membersDepth rest)

end

/-- Items are as deep as the deepest of them. -/
theorem itemsDepth_le_iff {items : List JsonText} {room : Nat} :
    itemsDepth items ≤ room ↔ ∀ item ∈ items, item.depth ≤ room := by
  induction items with
  | nil => exact iff_of_true (Nat.zero_le _) (List.forall_mem_nil _)
  | cons item rest ih => rw [itemsDepth, Nat.max_le, ih, List.forall_mem_cons]

/-- Members are as deep as the deepest value among them. -/
theorem membersDepth_le_iff {members : List (List StringUnit × JsonText)} {room : Nat} :
    membersDepth members ≤ room ↔ ∀ member ∈ members, member.2.depth ≤ room := by
  induction members with
  | nil => exact iff_of_true (Nat.zero_le _) (List.forall_mem_nil _)
  | cons member rest ih =>
      obtain ⟨key, value⟩ := member
      rw [membersDepth, Nat.max_le, ih, List.forall_mem_cons]

/-- Items are spelled one by one. -/
theorem ofItems_eq (items : List Json) : ofItems items = items.map ofValue := by
  induction items with
  | nil => rfl
  | cons item rest ih => rw [ofItems, ih, List.map_cons]

/-- Members are spelled one by one, the key and then the value. -/
theorem ofMembers_eq (members : List (String × Json)) : ofMembers members =
    members.map fun member => (StringUnit.ofText member.1, ofValue member.2) := by
  induction members with
  | nil => rfl
  | cons member rest ih =>
      obtain ⟨key, value⟩ := member
      rw [ofMembers, ih, List.map_cons]

end JsonText

open JsonText

/-! ## What is read -/

namespace Json

variable {room : Nat}

/-- Items are in order if each of them is. -/
theorem itemsOrdered_iff {items : List Json} :
    itemsOrdered items ↔ ∀ item ∈ items, item.Ordered := by
  induction items with
  | nil => exact iff_of_true trivial (List.forall_mem_nil _)
  | cons item rest ih => rw [itemsOrdered, ih, List.forall_mem_cons]

/-- Members are in order if the value of each of them is. -/
theorem membersOrdered_iff {members : List (String × Json)} :
    membersOrdered members ↔ ∀ member ∈ members, member.2.Ordered := by
  induction members with
  | nil => exact iff_of_true trivial (List.forall_mem_nil _)
  | cons member rest ih =>
      obtain ⟨key, value⟩ := member
      rw [membersOrdered, ih, List.forall_mem_cons]

/-- A value with ordered objects and no more than so many containers within each other. -/
def Fits (room : Nat) (j : Json) : Prop := j.Ordered ∧ (ofValue j).depth ≤ room

/-- An array takes one level of depth, and its items have the rest. -/
theorem fits_array_iff {items : List Json} :
    (array items).Fits (room + 1) ↔ ∀ item ∈ items, item.Fits room := by
  have hdepth : (ofValue (array items)).depth ≤ room + 1 ↔
      ∀ item ∈ items, (ofValue item).depth ≤ room := by
    rw [ofValue, depth, Nat.add_le_add_iff_right, itemsDepth_le_iff, ofItems_eq,
      List.forall_mem_map]
  rw [Fits, hdepth, Ordered, itemsOrdered_iff, ← forall₂_and]
  rfl

/-- An object takes one level of depth, and has its keys in strictly ascending order. -/
theorem fits_object_iff {members : List (String × Json)} :
    (object members).Fits (room + 1) ↔ (members.Pairwise fun a b => a.1 < b.1) ∧
      ∀ member ∈ members, member.2.Fits room := by
  have hdepth : (ofValue (object members)).depth ≤ room + 1 ↔
      ∀ member ∈ members, (ofValue member.2).depth ≤ room := by
    rw [ofValue, depth, Nat.add_le_add_iff_right, membersDepth_le_iff, ofMembers_eq,
      List.forall_mem_map]
  rw [Fits, hdepth, Ordered, membersOrdered_iff, and_assoc, ← forall₂_and]
  rfl

/-- Members that are entered into an object one by one give an object that fits. -/
theorem fits_ofMembers {members : List (String × Json)}
    (h : ∀ member ∈ members, member.2.Fits room) : (ofMembers members).Fits (room + 1) :=
  fits_object_iff.2 ⟨(KeyMap.ofList members).sorted, fun member hmember =>
    h member (KeyMap.mem_ofList hmember)⟩

end Json

namespace JsonText

mutual

/-- **A value that is read is ordered and fits in its room.** -/
theorem fits_of_value? : ∀ {t : JsonText} {room : Nat} {j : Json}, t.value? room = some j →
    j.Fits room
  | .null, _, _, h => by
      obtain rfl := Option.some.inj h
      exact ⟨trivial, Nat.zero_le _⟩
  | .bool _, _, _, h => by
      obtain rfl := Option.some.inj h
      exact ⟨trivial, Nat.zero_le _⟩
  | .number n, _, _, h => by
      obtain ⟨_, -, rfl⟩ := Option.map_eq_some_iff.1 h
      exact ⟨trivial, Nat.zero_le _⟩
  | .string units, _, _, h => by
      obtain ⟨_, -, rfl⟩ := Option.map_eq_some_iff.1 h
      exact ⟨trivial, Nat.zero_le _⟩
  | .array items, 0, _, h => absurd h (Option.some_ne_none _).symm
  | .array items, room + 1, _, h => by
      obtain ⟨js, hjs, rfl⟩ := Option.map_eq_some_iff.1 h
      exact Json.fits_array_iff.2 (fits_of_items? hjs)
  | .object members, 0, _, h => absurd h (Option.some_ne_none _).symm
  | .object members, room + 1, _, h => by
      obtain ⟨ms, hms, rfl⟩ := Option.map_eq_some_iff.1 h
      exact Json.fits_ofMembers (fits_of_members? hms)

/-- Items are read within the room that is left, so they fit there. -/
theorem fits_of_items? : ∀ {items : List JsonText} {room : Nat} {js : List Json},
    items? room items = some js → ∀ j ∈ js, j.Fits room
  | [], _, _, h => by
      obtain rfl := Option.some.inj h
      exact List.forall_mem_nil _
  | item :: rest, _, _, h => by
      obtain ⟨j, hj, h⟩ := Option.bind_eq_some_iff.1 h
      obtain ⟨js, hjs, h⟩ := Option.bind_eq_some_iff.1 h
      obtain rfl := Option.some.inj h
      exact List.forall_mem_cons.2 ⟨fits_of_value? hj, fits_of_items? hjs⟩

/-- The values of members are read within the room that is left, so they fit there. -/
theorem fits_of_members? : ∀ {members : List (List StringUnit × JsonText)} {room : Nat}
    {ms : List (String × Json)}, members? room members = some ms → ∀ m ∈ ms, m.2.Fits room
  | [], _, _, h => by
      obtain rfl := Option.some.inj h
      exact List.forall_mem_nil _
  | (key, value) :: rest, _, _, h => by
      obtain ⟨key, -, h⟩ := Option.bind_eq_some_iff.1 h
      obtain ⟨j, hj, h⟩ := Option.bind_eq_some_iff.1 h
      obtain ⟨ms, hms, h⟩ := Option.bind_eq_some_iff.1 h
      obtain rfl := Option.some.inj h
      exact List.forall_mem_cons.2 ⟨fits_of_value? hj, fits_of_members? hms⟩

end

end JsonText

/-! ## What is read back -/

/-- A number is read back from its text. -/
def JsonNumber.ReadsBack (n : JsonNumber) : Prop :=
  Json.ofText? (Json.number n).toText = some (.number n)

/-- Reading what was written comes down to evaluating what was spelled. -/
theorem Json.ofText?_toText (j : Json) : Json.ofText? j.toText = (ofValue j).value? maxDepth := by
  rw [Json.ofText?, Json.toText, JsonText.ofText?_toText (wellFormed_ofValue j)]
  rfl

namespace JsonNumber

/-- A number reads back if its own spelling evaluates to it. -/
theorem readsBack_iff {n : JsonNumber} :
    n.ReadsBack ↔ (NumberText.ofNumber n).value? = some n := by
  have hvalue : (ofValue (.number n)).value? Json.maxDepth =
      (NumberText.ofNumber n).value?.map .number := by
    rw [ofValue, value?]
  rw [ReadsBack, Json.ofText?_toText, hvalue, Option.map_eq_some_iff]
  refine ⟨?_, fun h => ⟨n, h, rfl⟩⟩
  rintro ⟨m, hm, heq⟩
  exact Json.number.inj heq ▸ hm

/-- **Integers are read back.** -/
theorem readsBack_integer (n : Int) (lower : -0x8000000000000000 ≤ n)
    (upper : n < 0x10000000000000000) : (integer n lower upper).ReadsBack :=
  readsBack_iff.2 (NumberText.value?_ofNumber_integer n lower upper)

/-- Not every double is: `1e-23` is read as a neighbour. -/
example : (NumberText.ofDouble ⟨0x3b282db34012b251⟩).value? ≠
    some (.double ⟨0x3b282db34012b251⟩ rfl) := by
  decide +kernel

end JsonNumber

namespace Json

mutual

/-- Every number in the value is read back from its text. -/
def ReadsBack : Json → Prop
  | .null | .bool _ | .string _ => True
  | .number n => n.ReadsBack
  | .array items => ItemsReadBack items
  | .object members => MembersReadBack members

def ItemsReadBack : List Json → Prop
  | [] => True
  | item :: rest => item.ReadsBack ∧ ItemsReadBack rest

def MembersReadBack : List (String × Json) → Prop
  | [] => True
  | (_, value) :: rest => value.ReadsBack ∧ MembersReadBack rest

end

/-- Items read back if each of them does. -/
theorem itemsReadBack_iff {items : List Json} :
    ItemsReadBack items ↔ ∀ item ∈ items, item.ReadsBack := by
  induction items with
  | nil => exact iff_of_true trivial (List.forall_mem_nil _)
  | cons item rest ih => rw [ItemsReadBack, ih, List.forall_mem_cons]

end Json

namespace JsonText

mutual

/-- **A value is read back from its tree** where there is room for it. -/
theorem value?_ofValue : ∀ {j : Json} {room : Nat}, j.Fits room → j.ReadsBack →
    (ofValue j).value? room = some j
  | .null, _, _, _ => rfl
  | .bool _, _, _, _ => rfl
  | .number n, _, _, hback => by
      rw [ofValue, value?, JsonNumber.readsBack_iff.1 hback, Option.map_some]
  | .string s, _, _, _ => by
      rw [ofValue, value?, StringUnit.text?_ofText, Option.map_some]
  | .array items, 0, hfits, _ => absurd hfits.2 (Nat.not_succ_le_zero _)
  | .array items, room + 1, hfits, hback => by
      have hitems := items?_ofItems (Json.fits_array_iff.1 hfits) hback
      rw [ofValue, value?, if_neg (Nat.succ_ne_zero room), Nat.add_sub_cancel, hitems,
        Option.map_some]
  | .object members, 0, hfits, _ => absurd hfits.2 (Nat.not_succ_le_zero _)
  | .object members, room + 1, hfits, hback => by
      obtain ⟨hsorted, hfits⟩ := Json.fits_object_iff.1 hfits
      have hmembers := members?_ofMembers hfits hback
      rw [ofValue, value?, if_neg (Nat.succ_ne_zero room), Nat.add_sub_cancel, hmembers,
        Option.map_some, Json.ofMembers, KeyMap.entries_ofList hsorted]

/-- Items that fit are read back one by one. -/
theorem items?_ofItems : ∀ {items : List Json} {room : Nat}, (∀ item ∈ items, item.Fits room) →
    Json.ItemsReadBack items → items? room (ofItems items) = some items
  | [], _, _, _ => rfl
  | item :: rest, room, hfits, hback => by
      obtain ⟨hitem, hrest⟩ := List.forall_mem_cons.1 hfits
      rw [ofItems, items?, value?_ofValue hitem hback.1, items?_ofItems hrest hback.2]
      rfl

/-- Members that fit are read back one by one. -/
theorem members?_ofMembers : ∀ {members : List (String × Json)} {room : Nat},
    (∀ member ∈ members, member.2.Fits room) → Json.MembersReadBack members →
      members? room (ofMembers members) = some members
  | [], _, _, _ => rfl
  | (key, value) :: rest, room, hfits, hback => by
      obtain ⟨hmember, hrest⟩ := List.forall_mem_cons.1 hfits
      rw [ofMembers, members?, StringUnit.text?_ofText, value?_ofValue hmember hback.1,
        members?_ofMembers hrest hback.2]
      rfl

end

end JsonText

end BoundSql
