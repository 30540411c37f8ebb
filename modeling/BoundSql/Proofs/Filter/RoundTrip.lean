import BoundSql.Filter.Document
import BoundSql.Filter.Predicate
import BoundSql.Proofs.Json.Values

/-!
# Filters read back

A filter is written field by field, and a reader that has read some of the fields holds the
filter with just these (`Filter.restrict`): a field that is written is read as what it is, and
a field that is left out has its default.  After all fields the reader holds the filter.

What a filter must be for this is what every filter that is read is: its values have ordered
objects, and its containers fit in the room (`Filter.Fits`).
-/

namespace BoundSql

open JsonText

namespace Filter

/-- The JSON values in a node. -/
def operands (f : Filter) : List Json :=
  f.value.toList ++ f.values.getD [] ++ f.lower.toList ++ f.upper.toList

mutual

/-- Every JSON value in a filter has a property. -/
def All (P : Json → Prop) : Filter → Prop
  | ⟨type, column, value, values, lower, upper, children⟩ =>
    (∀ j ∈ operands ⟨type, column, value, values, lower, upper, children⟩, P j) ∧
      EachAll P children

def EachAll (P : Json → Prop) : List Filter → Prop
  | [] => True
  | f :: rest => f.All P ∧ EachAll P rest

end

variable {P : Json → Prop} {f g : Filter} {room : Nat}

/-- Filters have a property if each of them has it. -/
theorem eachAll_iff {fs : List Filter} : EachAll P fs ↔ ∀ f ∈ fs, f.All P := by
  induction fs with
  | nil => exact iff_of_true trivial (List.forall_mem_nil _)
  | cons f rest ih => rw [EachAll, ih, List.forall_mem_cons]

/-- A filter has a property if its own operands and its children have it. -/
theorem all_iff : f.All P ↔ (∀ j ∈ f.operands, P j) ∧ ∀ c ∈ f.children, c.All P := by
  obtain ⟨type, column, value, values, lower, upper, children⟩ := f
  rw [All, eachAll_iff]

/-- The operands are the value, the list of values and the two bounds. -/
theorem forall_operands_iff : (∀ j ∈ f.operands, P j) ↔ (∀ j ∈ f.value, P j) ∧
    (∀ js ∈ f.values, ∀ j ∈ js, P j) ∧ (∀ j ∈ f.lower, P j) ∧ ∀ j ∈ f.upper, P j := by
  cases hvalues : f.values <;>
    simp [operands, hvalues, or_imp, forall_and, Option.mem_def]

/-! ## The tree of a filter -/

/-- The tree in which a field is written. -/
def tree? (f : Filter) : Slot → Option JsonText
  | .type => if f.type.isEmpty then .none else some (.string (StringUnit.ofText f.type))
  | .column => f.column.map fun c => .string (StringUnit.ofText c)
  | .value => f.value.map ofValue
  | .values => f.values.map fun js => .array (ofItems js)
  | .lower => f.lower.map ofValue
  | .upper => f.upper.map ofValue
  | .children => if f.children.isEmpty then .none else some (.array (toTrees f.children))

/-- A filter is written as an object of the fields that it has. -/
theorem toTree_eq (f : Filter) :
    f.toTree = .object (Slot.all.flatMap fun slot => member slot (f.tree? slot)) := by
  obtain ⟨type, column, value, values, lower, upper, children⟩ := f
  simp [toTree, Slot.all, tree?]

/-- Filters are written one by one. -/
theorem toTrees_eq (fs : List Filter) : toTrees fs = fs.map toTree := by
  induction fs with
  | nil => rfl
  | cons f rest ih => rw [toTrees, ih, List.map_cons]

/-- There are no other slots than those that are listed. -/
theorem mem_all (slot : Slot) : slot ∈ Slot.all := by cases slot <;> decide

/-- What is written of a node is written of its fields. -/
theorem mem_members_iff {m : List StringUnit × JsonText} :
    m ∈ (Slot.all.flatMap fun slot => member slot (f.tree? slot)) ↔
      ∃ slot, m.1 = StringUnit.ofText slot.key ∧ f.tree? slot = some m.2 := by
  rw [List.mem_flatMap]
  refine exists_congr fun slot => ?_
  rw [and_iff_right (mem_all slot), member.eq_def]
  cases f.tree? slot with
  | none => simp
  | some tree => simp [Prod.ext_iff, eq_comm]

/-- What holds of the trees of all fields. -/
theorem forall_tree?_iff {Q : JsonText → Prop} : (∀ slot, ∀ tree ∈ f.tree? slot, Q tree) ↔
    (f.type ≠ "" → Q (.string (StringUnit.ofText f.type))) ∧
      (∀ c ∈ f.column, Q (.string (StringUnit.ofText c))) ∧ (∀ j ∈ f.value, Q (ofValue j)) ∧
      (∀ js ∈ f.values, Q (ofValue (.array js))) ∧ (∀ j ∈ f.lower, Q (ofValue j)) ∧
      (∀ j ∈ f.upper, Q (ofValue j)) ∧
      (f.children ≠ [] → Q (.array (toTrees f.children))) := by
  have hslots : ∀ {R : Slot → Prop}, (∀ slot, R slot) ↔ R .type ∧ R .column ∧ R .value ∧
      R .values ∧ R .lower ∧ R .upper ∧ R .children := by
    refine fun {R} => ⟨fun h => ⟨h _, h _, h _, h _, h _, h _, h _⟩, ?_⟩
    rintro ⟨_, _, _, _, _, _, _⟩ slot
    cases slot <;> assumption
  rw [hslots]
  simp [tree?, ofValue]

mutual

/-- **A filter is written as JSON.** -/
theorem wellFormed_toTree : ∀ f : Filter, f.toTree.WellFormed
  | ⟨type, column, value, values, lower, upper, children⟩ => by
      rw [toTree_eq]
      refine membersWellFormed_iff.2 fun m hm => ?_
      obtain ⟨slot, hkey, htree⟩ := mem_members_iff.1 hm
      refine ⟨hkey ▸ StringUnit.readable_ofText slot.key, forall_tree?_iff.2 ?_ slot _ htree⟩
      exact ⟨fun _ => StringUnit.readable_ofText _, fun _ _ => StringUnit.readable_ofText _,
        fun _ _ => wellFormed_ofValue _, fun _ _ => wellFormed_ofValue _,
        fun _ _ => wellFormed_ofValue _, fun _ _ => wellFormed_ofValue _,
        fun _ => wellFormed_toTrees children⟩

/-- The spellings of children can be read. -/
theorem wellFormed_toTrees : ∀ fs : List Filter, ItemsWellFormed (toTrees fs)
  | [] => trivial
  | f :: rest => ⟨wellFormed_toTree f, wellFormed_toTrees rest⟩

end

/-! ## What fits -/

/-- A filter whose JSON values have ordered objects and whose tree has no more than so many
containers within each other. -/
def Fits (room : Nat) (f : Filter) : Prop := f.All Json.Ordered ∧ f.toTree.depth ≤ room

/-- A filter is one level deeper than the deepest of its fields. -/
theorem depth_toTree_le_iff : f.toTree.depth ≤ room + 1 ↔
    ∀ slot, ∀ tree ∈ f.tree? slot, tree.depth ≤ room := by
  rw [toTree_eq, depth, Nat.add_le_add_iff_right, membersDepth_le_iff]
  refine ⟨fun h slot tree htree => ?_, fun h m hm => ?_⟩
  · exact h (StringUnit.ofText slot.key, tree) (mem_members_iff.2 ⟨slot, rfl, htree⟩)
  · obtain ⟨slot, -, htree⟩ := mem_members_iff.1 hm
    exact h slot m.2 htree

/-- The fields of a node fit in the room inside the node. -/
structure FieldsFit (room : Nat) (f : Filter) : Prop where
  value : ∀ j ∈ f.value, j.Fits room
  values : ∀ js ∈ f.values, (Json.array js).Fits room
  lower : ∀ j ∈ f.lower, j.Fits room
  upper : ∀ j ∈ f.upper, j.Fits room
  /-- Children take an array of their own. -/
  children : f.children ≠ [] → ∃ inner, room = inner + 1 ∧ ∀ c ∈ f.children, c.Fits inner

/-- Children are one level deeper than the deepest of them. -/
theorem depth_children_le_iff {fs : List Filter} : (JsonText.array (toTrees fs)).depth ≤ room ↔
    ∃ inner, room = inner + 1 ∧ ∀ f ∈ fs, f.toTree.depth ≤ inner := by
  cases room with
  | zero => exact iff_of_false (Nat.not_succ_le_zero _) (by simp)
  | succ room =>
      rw [depth, Nat.add_le_add_iff_right, itemsDepth_le_iff, toTrees_eq, List.forall_mem_map]
      refine ⟨fun h => ⟨room, rfl, h⟩, ?_⟩
      rintro ⟨inner, heq, h⟩
      exact Nat.succ.inj heq ▸ h

/-- **A filter fits if its fields do**, with a container less. -/
theorem fits_iff : f.Fits (room + 1) ↔ f.FieldsFit room := by
  rw [Fits, all_iff, forall_operands_iff, depth_toTree_le_iff, forall_tree?_iff]
  constructor
  · rintro ⟨⟨⟨hvalue, hvalues, hlower, hupper⟩, hchildren⟩, -, -, hvalue', hvalues', hlower',
      hupper', hchildren'⟩
    refine ⟨fun j hj => ⟨hvalue j hj, hvalue' j hj⟩, fun js hjs => ?_,
      fun j hj => ⟨hlower j hj, hlower' j hj⟩, fun j hj => ⟨hupper j hj, hupper' j hj⟩,
      fun hne => ?_⟩
    · exact ⟨Json.itemsOrdered_iff.2 (hvalues js hjs), hvalues' js hjs⟩
    · obtain ⟨inner, hroom, hinner⟩ := depth_children_le_iff.1 (hchildren' hne)
      exact ⟨inner, hroom, fun c hc => ⟨hchildren c hc, hinner c hc⟩⟩
  · rintro ⟨hvalue, hvalues, hlower, hupper, hchildren⟩
    refine ⟨⟨⟨fun j hj => (hvalue j hj).1, fun js hjs => ?_, fun j hj => (hlower j hj).1,
      fun j hj => (hupper j hj).1⟩, fun c hc => ?_⟩, fun _ => Nat.zero_le _,
      fun _ _ => Nat.zero_le _, fun j hj => (hvalue j hj).2, fun js hjs => (hvalues js hjs).2,
      fun j hj => (hlower j hj).2, fun j hj => (hupper j hj).2, fun hne => ?_⟩
    · exact Json.itemsOrdered_iff.1 (hvalues js hjs).1
    · obtain ⟨inner, -, hinner⟩ := hchildren (List.ne_nil_of_mem hc)
      exact (hinner c hc).1
    · obtain ⟨inner, hroom, hinner⟩ := hchildren hne
      exact depth_children_le_iff.2 ⟨inner, hroom, fun c hc => (hinner c hc).2⟩

/-! ## Reading what is written -/

/-- The filter with only some of its fields. -/
def restrict (f : Filter) (slots : List Slot) : Filter :=
  ⟨if .type ∈ slots then f.type else "", if .column ∈ slots then f.column else .none,
    if .value ∈ slots then f.value else .none, if .values ∈ slots then f.values else .none,
    if .lower ∈ slots then f.lower else .none, if .upper ∈ slots then f.upper else .none,
    if .children ∈ slots then f.children else []⟩

/-- **A field that is left out has its default.** -/
theorem restrict_of_absent {slot : Slot} (h : f.tree? slot = .none) (done : List Slot) :
    f.restrict (slot :: done) = f.restrict done := by
  cases slot <;> simp_all [tree?, restrict]

variable {slot : Slot} {done : List Slot} {tree : JsonText}

/-- A field that is not the children is read without recursion. -/
theorem readField?_of_ne (h : slot ≠ .children) (room : Nat) (tree : JsonText) (f : Filter) :
    readField? room slot tree f = setField? room slot tree f := by
  rw [readField?.eq_def, if_neg h]

/-- A list of operands is read back, if it fits and its numbers do. -/
theorem itemTrees?_ofItems {js : List Json} (hfits : (Json.array js).Fits room)
    (hback : ∀ j ∈ js, j.ReadsBack) : itemTrees? room (.array (ofItems js)) = some js := by
  cases room with
  | zero => exact absurd hfits.2 (Nat.not_succ_le_zero _)
  | succ room =>
      rw [itemTrees?, if_neg (Nat.succ_ne_zero room)]
      exact items?_ofItems (Json.fits_array_iff.1 hfits) (Json.itemsReadBack_iff.2 hback)

/-- A slot is known by its key. -/
theorem ofKey?_key (slot : Slot) : Slot.ofKey? slot.key = some slot := by
  cases slot <;> rfl

section

variable (hfits : f.FieldsFit room) (hback : f.All Json.ReadsBack)
  (hchildren : ∀ inner, (∀ c ∈ f.children, c.Fits inner) →
    readChildren? inner (toTrees f.children) = some f.children)

include hfits hback hchildren

/-- **A field that is written is read as what it is.** -/
theorem readField?_tree (htree : f.tree? slot = some tree) (done : List Slot) :
    readField? room slot tree (f.restrict done) = some (f.restrict (slot :: done)) := by
  obtain ⟨hvalue, hvalues, hlower, hupper⟩ := forall_operands_iff.1 (all_iff.1 hback).1
  cases slot with
  | type =>
      rw [tree?] at htree
      split at htree
      · exact absurd htree (Option.some_ne_none tree).symm
      · obtain rfl := Option.some.inj htree
        rw [readField?_of_ne (by decide), setField?, stringTree?, StringUnit.text?_ofText]
        simp [restrict]
  | column =>
      obtain ⟨c, hc, rfl⟩ := Option.map_eq_some_iff.1 htree
      rw [readField?_of_ne (by decide), setField?, optional, stringTree?, StringUnit.text?_ofText]
      · simp [restrict, hc]
      · exact JsonText.noConfusion
  | value =>
      obtain ⟨j, hj, rfl⟩ := Option.map_eq_some_iff.1 htree
      rw [readField?_of_ne (by decide), setField?,
        value?_ofValue (hfits.value j hj) (hvalue j hj)]
      simp [restrict, hj]
  | values =>
      obtain ⟨js, hjs, rfl⟩ := Option.map_eq_some_iff.1 htree
      rw [readField?_of_ne (by decide), setField?, optional,
        itemTrees?_ofItems (hfits.values js hjs) (hvalues js hjs)]
      · simp [restrict, hjs]
      · exact JsonText.noConfusion
  | lower =>
      obtain ⟨j, hj, rfl⟩ := Option.map_eq_some_iff.1 htree
      rw [readField?_of_ne (by decide), setField?,
        value?_ofValue (hfits.lower j hj) (hlower j hj)]
      simp [restrict, hj]
  | upper =>
      obtain ⟨j, hj, rfl⟩ := Option.map_eq_some_iff.1 htree
      rw [readField?_of_ne (by decide), setField?,
        value?_ofValue (hfits.upper j hj) (hupper j hj)]
      simp [restrict, hj]
  | children =>
      rw [tree?] at htree
      split at htree
      · exact absurd htree (Option.some_ne_none tree).symm
      · rename_i hne
        obtain rfl := Option.some.inj htree
        obtain ⟨inner, rfl, hinner⟩ := hfits.children (by simpa using hne)
        rw [readField?, if_pos rfl]
        simp only [Nat.succ_ne_zero, if_false, Nat.add_sub_cancel, hchildren inner hinner]
        simp [restrict]

/-- **All fields are read in their order**, after those that were read before. -/
theorem readMembers?_slots : ∀ slots seen done : List Slot, slots.Nodup →
    (∀ slot ∈ slots, slot ∉ seen) →
      readMembers? room (slots.flatMap fun slot => member slot (f.tree? slot)) seen
        (f.restrict done) = some (f.restrict (slots.reverse ++ done))
  | [], _, _, _, _ => rfl
  | slot :: slots, seen, done, hslots, hseen => by
      obtain ⟨hslot, hslots⟩ := List.nodup_cons.1 hslots
      obtain ⟨hunseen, hseen⟩ := List.forall_mem_cons.1 hseen
      rw [List.flatMap_cons, List.reverse_cons, List.append_assoc, List.singleton_append]
      -- Both cases go on with the filter of one more field; only a field that is there is seen.
      cases htree : f.tree? slot with
      | none =>
          rw [member, List.nil_append, ← restrict_of_absent htree]
          exact readMembers?_slots slots seen _ hslots hseen
      | some tree =>
          have hfield := readField?_tree hfits hback hchildren htree done
          rw [member, List.singleton_append, readMembers?, StringUnit.text?_ofText]
          simp only [Option.bind_eq_bind, Option.bind_some, ofKey?_key, if_neg hunseen, hfield]
          refine readMembers?_slots slots _ _ hslots fun other hother => ?_
          rw [List.mem_cons, not_or]
          exact ⟨fun heq => hslot (heq ▸ hother), hseen other hother⟩

end

mutual

/-- **A filter is read back from its tree** where there is room for it. -/
theorem ofTree?_toTree : ∀ {f : Filter} {room : Nat}, f.Fits room → f.All Json.ReadsBack →
    ofTree? room f.toTree = some f
  | f, 0, hfits, _ => by
      have hdepth := hfits.2
      rw [toTree_eq] at hdepth
      exact absurd hdepth (Nat.not_succ_le_zero _)
  | ⟨type, column, value, values, lower, upper, children⟩, room + 1, hfits, hback => by
      have hslots : Slot.all.Nodup := by decide
      rw [toTree_eq, ofTree?, if_neg (Nat.succ_ne_zero room)]
      exact readMembers?_slots (fits_iff.1 hfits) hback
        (fun inner hinner => readChildren?_toTrees hinner hback.2) Slot.all [] [] hslots
        (fun slot _ => List.not_mem_nil)

/-- Children are read back one by one. -/
theorem readChildren?_toTrees : ∀ {fs : List Filter} {room : Nat}, (∀ f ∈ fs, f.Fits room) →
    EachAll Json.ReadsBack fs → readChildren? room (toTrees fs) = some fs
  | [], _, _, _ => rfl
  | f :: rest, room, hfits, hback => by
      obtain ⟨hf, hrest⟩ := List.forall_mem_cons.1 hfits
      rw [toTrees, readChildren?, ofTree?_toTree hf hback.1, readChildren?_toTrees hrest hback.2]
      rfl

end

/-! ## What is read -/

/-- A filter without fields fits anywhere. -/
theorem fieldsFit_none (room : Nat) : none.FieldsFit room := by
  constructor <;> simp [none]

/-- A field that may be null was read if it is there. -/
theorem exists_of_optional {α : Type} {read : JsonText → Option α} {a? : Option α}
    (h : optional read tree = some a?) : ∀ a ∈ a?, read tree = some a := by
  intro a ha
  rw [optional.eq_def] at h
  split at h
  · obtain rfl := Option.some.inj h
    exact absurd ha (Option.not_mem_none a)
  · obtain ⟨b, hb, rfl⟩ := Option.map_eq_some_iff.1 h
    exact Option.some.inj ha ▸ hb

/-- A list of operands that was read fits in the room there was. -/
theorem fits_of_itemTrees? {js : List Json} (h : itemTrees? room tree = some js) :
    (Json.array js).Fits room := by
  rw [itemTrees?.eq_def] at h
  split at h
  · split at h
    · exact absurd h (Option.some_ne_none js).symm
    · rename_i hroom
      obtain ⟨inner, rfl⟩ := Nat.exists_eq_succ_of_ne_zero hroom
      exact Json.fits_array_iff.2 (fits_of_items? h)
  · exact absurd h (Option.some_ne_none js).symm

/-- A field that is read fits. -/
theorem FieldsFit.setField? (hf : f.FieldsFit room) (h : setField? room slot tree f = some g) :
    g.FieldsFit room := by
  cases slot with
  | type =>
      obtain ⟨s, -, rfl⟩ := Option.map_eq_some_iff.1 h
      exact { hf with }
  | column =>
      obtain ⟨c, -, rfl⟩ := Option.map_eq_some_iff.1 h
      exact { hf with }
  | value =>
      obtain ⟨j, hj, rfl⟩ := Option.map_eq_some_iff.1 h
      exact { hf with value := fun _ heq => Option.some.inj heq ▸ fits_of_value? hj }
  | values =>
      obtain ⟨js?, hjs, rfl⟩ := Option.map_eq_some_iff.1 h
      exact { hf with values := fun js hmem => fits_of_itemTrees? (exists_of_optional hjs js hmem) }
  | lower =>
      obtain ⟨j, hj, rfl⟩ := Option.map_eq_some_iff.1 h
      exact { hf with lower := fun _ heq => Option.some.inj heq ▸ fits_of_value? hj }
  | upper =>
      obtain ⟨j, hj, rfl⟩ := Option.map_eq_some_iff.1 h
      exact { hf with upper := fun _ heq => Option.some.inj heq ▸ fits_of_value? hj }
  | children => exact absurd h (Option.some_ne_none g).symm

mutual

/-- **A filter that is read fits in its room.** -/
theorem fits_of_ofTree? : ∀ {tree : JsonText} {room : Nat} {f : Filter},
    ofTree? room tree = some f → f.Fits room
  | .object _, room + 1, _, h =>
    fits_iff.2 (fieldsFit_of_readMembers? (fieldsFit_none room) h)
  | .array _, room + 1, _, h =>
    fits_iff.2 (fieldsFit_of_readItems? (fieldsFit_none room) h)
  | .object _, 0, f, h => absurd h (Option.some_ne_none f).symm
  | .array _, 0, f, h => absurd h (Option.some_ne_none f).symm
  | .null, _, f, h => absurd h (Option.some_ne_none f).symm
  | .bool _, _, f, h => absurd h (Option.some_ne_none f).symm
  | .number _, _, f, h => absurd h (Option.some_ne_none f).symm
  | .string _, _, f, h => absurd h (Option.some_ne_none f).symm

/-- Members are read into fields that fit in the room there was. -/
theorem fieldsFit_of_readMembers? : ∀ {members : List (List StringUnit × JsonText)} {room : Nat}
    {seen : List Slot} {f g : Filter}, f.FieldsFit room →
      readMembers? room members seen f = some g → g.FieldsFit room
  | [], _, _, _, _, hf, h => Option.some.inj h ▸ hf
  | (key, tree) :: rest, _, seen, _, _, hf, h => by
      obtain ⟨key, -, h⟩ := Option.bind_eq_some_iff.1 h
      split at h
      · exact fieldsFit_of_readMembers? hf h
      · split at h
        · exact absurd h (Option.some_ne_none _).symm
        · obtain ⟨f', hf', h⟩ := Option.bind_eq_some_iff.1 h
          exact fieldsFit_of_readMembers? (fieldsFit_of_readField? hf hf') h

/-- Items are read into fields that fit in the room there was. -/
theorem fieldsFit_of_readItems? : ∀ {items : List JsonText} {room : Nat} {slots : List Slot}
    {f g : Filter}, f.FieldsFit room → readItems? room items slots f = some g → g.FieldsFit room
  | [], _, _, _, _, hf, h => Option.some.inj h ▸ hf
  | _ :: _, _, [], _, g, _, h => absurd h (Option.some_ne_none g).symm
  | tree :: rest, _, slot :: slots, _, _, hf, h => by
      obtain ⟨f', hf', h⟩ := Option.bind_eq_some_iff.1 h
      exact fieldsFit_of_readItems? (fieldsFit_of_readField? hf hf') h

/-- A field is read that fits in the room there was. -/
theorem fieldsFit_of_readField? : ∀ {tree : JsonText} {room : Nat} {slot : Slot} {f g : Filter},
    f.FieldsFit room → readField? room slot tree f = some g → g.FieldsFit room
  | tree, room, slot, f, g, hf, h => by
      by_cases hslot : slot = .children
      · cases tree with
        | array items =>
            rw [readField?, if_pos hslot] at h
            split at h
            · exact absurd h (Option.some_ne_none g).symm
            · rename_i hroom
              obtain ⟨inner, rfl⟩ := Nat.exists_eq_succ_of_ne_zero hroom
              obtain ⟨fs, hfs, rfl⟩ := Option.map_eq_some_iff.1 h
              exact { hf with children := fun _ => ⟨inner, rfl, fits_of_readChildren? hfs⟩ }
        | _ =>
            rw [readField?.eq_def, if_pos hslot] at h
            exact absurd h (Option.some_ne_none g).symm
      · rw [readField?_of_ne hslot] at h
        exact hf.setField? h

/-- Children are read that fit in the room there was. -/
theorem fits_of_readChildren? : ∀ {items : List JsonText} {room : Nat} {fs : List Filter},
    readChildren? room items = some fs → ∀ f ∈ fs, f.Fits room
  | [], _, _, h => by
      obtain rfl := Option.some.inj h
      exact List.forall_mem_nil _
  | tree :: rest, _, _, h => by
      obtain ⟨f, hf, h⟩ := Option.bind_eq_some_iff.1 h
      obtain ⟨fs, hfs, h⟩ := Option.bind_eq_some_iff.1 h
      obtain rfl := Option.some.inj h
      exact List.forall_mem_cons.2 ⟨fits_of_ofTree? hf, fits_of_readChildren? hfs⟩

end

/-- **Filter documents survive being written and read.**  A filter whose numbers are read back
and whose text nests no deeper than a reader follows comes back as itself, every field as it
was, and so with the same predicate or error; and no reader returns a filter that nests
deeper. -/
theorem round_trip :
    (∀ f : Filter, f.All Json.Ordered → f.All Json.ReadsBack → f.toTree.depth ≤ Json.maxDepth →
      ∃ g, ofText? f.toText = some g ∧ g = f ∧ g.toPredicate = f.toPredicate) ∧
    ∀ (text : String) (f : Filter), ofText? text = some f →
      f.All Json.Ordered ∧ f.toTree.depth ≤ Json.maxDepth := by
  refine ⟨fun f hordered hback hdepth => ⟨f, ?_, rfl, rfl⟩, fun text f h => ?_⟩
  · rw [ofText?, toText, JsonText.ofText?_toText (wellFormed_toTree f)]
    exact ofTree?_toTree ⟨hordered, hdepth⟩ hback
  · obtain ⟨tree, -, htree⟩ := Option.bind_eq_some_iff.1 h
    exact fits_of_ofTree? htree

/-- A group with a null value, a list without values, no filter and a range from an integer
to a double. -/
theorem round_trip_group : ∃ f : Filter,
    f = node "and" [compare "eq" "deleted_at" .null, list "in" "id" [], none,
      between "score" (.number (.integer (-1) (by decide) (by decide)))
        (.number (.double ⟨0x4023000000000000⟩ rfl))] ∧
    f.All Json.Ordered ∧ f.All Json.ReadsBack ∧ f.toTree.depth ≤ Json.maxDepth ∧
    ∃ g, ofText? f.toText = some g ∧ g = f ∧ g.toPredicate = f.toPredicate := by
  obtain ⟨f, hf⟩ : ∃ f, f = node "and" [compare "eq" "deleted_at" .null, list "in" "id" [], none,
      between "score" (.number (.integer (-1) (by decide) (by decide)))
        (.number (.double ⟨0x4023000000000000⟩ rfl))] := ⟨_, rfl⟩
  have hinteger := JsonNumber.readsBack_integer (-1) (by decide) (by decide)
  have hdouble : (JsonNumber.double ⟨0x4023000000000000⟩ rfl).ReadsBack :=
    JsonNumber.readsBack_iff.2 (by decide +kernel)
  have hordered : f.All Json.Ordered := by
    simp [hf, node, compare, list, none, between, All, EachAll, operands, Json.Ordered]
  have hback : f.All Json.ReadsBack := by
    simp [hf, node, compare, list, none, between, All, EachAll, operands, Json.ReadsBack,
      hinteger, hdouble]
  have hdepth : f.toTree.depth ≤ Json.maxDepth := by
    rw [hf]
    decide +kernel
  exact ⟨f, hf, hordered, hback, hdepth, round_trip.1 f hordered hback hdepth⟩

end Filter

end BoundSql
