import BoundSql.Filter.Document
import BoundSql.Filter.Predicate
import BoundSql.Proofs.Except
import BoundSql.Proofs.Filter.Nodes
import BoundSql.Proofs.Text.Digits
import BoundSql.Proofs.Text.Runs

/-!
# Faults of filters

A node is at fault if its type is unknown, if it has a field that is none of its type's, or
if it lacks one of them (`Filter.Faulty`).  The check of a node is spread over its type, its
number of children, its fields and, for a node without children, what these hold; all of it
comes before the children, and untyped nodes are not looked into.  So a filter is refused
just if a live node is at fault, and the report is about the first of them in document order
(`Filter.toPredicate_reports`).
-/

namespace BoundSql

namespace Filter

/-! ## What can be wrong with a node -/

/-- The fields of the nodes of a type. -/
def Kind.slots : Kind → List Slot
  | .and | .or | .not => [.type, .children]
  | .compare _ | .notLike => [.type, .column, .value]
  | .oneOf _ => [.type, .column, .values]
  | .between => [.type, .column, .lower, .upper]
  | .nullTest _ => [.type, .column]

/-- The field is present in the node. -/
def has (f : Filter) : Slot → Bool
  | .type => !f.type.isEmpty
  | .column => f.column.isSome
  | .value => f.value.isSome
  | .values => f.values.isSome
  | .lower => f.lower.isSome
  | .upper => f.upper.isSome
  | .children => !f.children.isEmpty

/-- The node has the fault, whatever its children are. -/
inductive Faulty (f : Filter) : Fault → Prop
  | unknownType (typed : f.type ≠ "") (h : Kind.ofType? f.type = .none) :
    Faulty f (.unknownType f.type)
  /-- A field is present that the nodes of this type do not have. -/
  | foreignField {kind : Kind} {slot : Slot} (hkind : Kind.ofType? f.type = some kind)
    (hslot : slot ∉ kind.slots) (h : f.has slot = true) :
    Faulty f (.foreignField slot.key f.type)
  | noChildren {kind : Kind} (hkind : Kind.ofType? f.type = some kind)
    (hgroup : kind = .and ∨ kind = .or) (h : f.children = []) : Faulty f (.noChildren f.type)
  | childCount (hkind : Kind.ofType? f.type = some .not) (h : f.children.length ≠ 1) :
    Faulty f (.childCount f.children.length)
  /-- The column is absent or blank. -/
  | noColumn {kind : Kind} (hkind : Kind.ofType? f.type = some kind)
    (hslot : .column ∈ kind.slots) (h : ∀ c, f.column = some c → Text.allBlank c = true) :
    Faulty f (.noColumn f.type)
  /-- The values are absent, or there are none of them. -/
  | noValues {kind : Kind} (hkind : Kind.ofType? f.type = some kind)
    (hslot : .values ∈ kind.slots) (h : ∀ js, f.values = some js → js = []) :
    Faulty f (.noValues f.type)
  | missing {kind : Kind} {slot : Slot} (hkind : Kind.ofType? f.type = some kind)
    (hslot : slot ∈ kind.slots) (hoperand : slot = .value ∨ slot = .lower ∨ slot = .upper)
    (h : f.has slot = false) : Faulty f (.missing slot.key)

/-! ## The check of a node -/

variable {f : Filter} {kind : Kind} {fault : Fault}

/-- The shapes that have a field. -/
def Slot.shapes : Slot → List Shape
  | .type => [.group, .single, .comparison, .list, .range, .column]
  | .column => [.comparison, .list, .range, .column]
  | .value => [.comparison]
  | .values => [.list]
  | .lower | .upper => [.range]
  | .children => [.group, .single]

/-- A slot belongs to a shape just when it belongs to the kinds of this shape. -/
theorem Slot.mem_shapes_iff {slot : Slot} : kind.shape ∈ slot.shapes ↔ slot ∈ kind.slots := by
  cases kind <;> cases slot <;> simp [Kind.shape, Slot.shapes, Kind.slots]

/-- A field that the shape does not have, the first one in the order of checking. -/
def foreign? (f : Filter) (shape : Shape) : Option Slot :=
  [.column, .value, .values, .lower, .upper, .children].find? fun slot =>
    f.has slot && !slot.shapes.contains shape

/-- A shape is wrong for its number of children, or else for the first field that is foreign to
it. -/
theorem shapeFault?_eq (f : Filter) (shape : Shape) : f.shapeFault? shape =
    if shape = .group ∧ f.children = [] then some (.noChildren f.type)
    else if shape = .single ∧ f.children.length ≠ 1 then some (.childCount f.children.length)
    else (f.foreign? shape).map fun slot => .foreignField slot.key f.type := by
  have hfields : f.fields =
      [Slot.column, .value, .values, .lower, .upper, .children].map fun slot =>
        (slot.key, f.has slot, slot.shapes) := rfl
  rw [shapeFault?, hfields, List.find?_map, Option.map_map]
  rfl

/-- A node whose shape is right has no field that the shape does not have. -/
theorem foreign?_of_shapeFault? {shape : Shape} (h : f.shapeFault? shape = .none) :
    f.foreign? shape = .none := by
  rw [shapeFault?_eq] at h
  split at h
  · exact absurd h (by simp)
  · split at h
    · exact absurd h (by simp)
    · exact Option.map_eq_none_iff.1 h

/-- Without foreign fields all that are given belong to the kind. -/
theorem mem_slots_of_foreign? (h : f.foreign? kind.shape = .none) {slot : Slot}
    (hslot : f.has slot = true) : slot ∈ kind.slots := by
  rw [← Slot.mem_shapes_iff]
  rw [foreign?, List.find?_eq_none] at h
  by_cases htype : slot = .type
  · subst htype
    cases kind <;> simp [Kind.shape, Slot.shapes]
  · have hmem : slot ∈ [Slot.column, .value, .values, .lower, .upper, .children] := by
      cases slot <;> simp at htype ⊢
    simpa [hslot] using h slot hmem

/-- A node of a kind without children has none. -/
theorem children_eq_nil (h : f.shapeFault? kind.shape = .none) (hslots : .children ∉ kind.slots) :
    f.children = [] := by
  have habsent : ¬f.has .children = true :=
    fun hpresent => hslots (mem_slots_of_foreign? (foreign?_of_shapeFault? h) hpresent)
  simpa [has] using habsent

/-- A foreign field is given and does not belong to the kind. -/
theorem of_foreign? {slot : Slot} (h : f.foreign? kind.shape = some slot) :
    f.has slot = true ∧ slot ∉ kind.slots := by
  have hfound := List.find?_some h
  rw [Bool.and_eq_true, Bool.not_eq_true', List.contains_eq_mem, decide_eq_false_iff_not,
    Slot.mem_shapes_iff] at hfound
  exact hfound

/-- What a node lacks in a field of its type. -/
def slotFault? (f : Filter) : Slot → Option Fault
  | .column => errorOf? f.columnOf
  | .value => errorOf? (required "value" f.value)
  | .values => errorOf? f.valuesOf
  | .lower => errorOf? (required "from" f.lower)
  | .upper => errorOf? (required "to" f.upper)
  | .type | .children => .none

/-- A column is missing if none is given or a blank one. -/
theorem errorOf?_columnOf : errorOf? f.columnOf = some fault ↔
    .noColumn f.type = fault ∧ ∀ c, f.column = some c → Text.allBlank c = true := by
  rw [columnOf]
  cases f.column with
  | none => simp [errorOf?]
  | some c => cases hc : Text.allBlank c <;> simp [errorOf?, hc]

/-- An operand is missing if none is given. -/
theorem errorOf?_required {key : String} {j? : Option Json} :
    errorOf? (required key j?) = some fault ↔ .missing key = fault ∧ j?.isSome = false := by
  cases j? <;> simp [required, errorOf?]

/-- Operands are missing if none are given or an empty list. -/
theorem errorOf?_valuesOf : errorOf? f.valuesOf = some fault ↔
    .noValues f.type = fault ∧ ∀ js, f.values = some js → js = [] := by
  rw [valuesOf]
  rcases f.values with _ | _ | ⟨j, js⟩ <;> simp [errorOf?]

/-- The fields of a node without children are checked in order. -/
theorem errorOf?_leaf (h : kind.shape ≠ .group ∧ kind.shape ≠ .single) :
    errorOf? (f.leaf kind) = kind.slots.findSome? f.slotFault? := by
  have hsteps : ∀ slots : List Slot, slots.findSome? f.slotFault? =
      slots.foldr (fun slot e? => (f.slotFault? slot).or e?) .none := by
    intro slots
    induction slots with
    | nil => rfl
    | cons slot slots ih =>
        rw [List.findSome?_cons, List.foldr_cons, ← ih]
        cases f.slotFault? slot <;> rfl
  rw [hsteps]
  cases kind
  all_goals simp only [leaf, Kind.slots, List.foldr_cons, List.foldr_nil, slotFault?,
    Option.none_or]
  case compare | notLike | oneOf =>
    exact errorOf?_bind (fun _ => errorOf?_bind (fun _ => by rfl) _) _
  case between =>
    exact errorOf?_bind (fun _ => errorOf?_bind (fun _ => errorOf?_bind (fun _ => by rfl) _) _) _
  case nullTest => exact errorOf?_bind (fun _ => by rfl) _
  case and | or => exact absurd rfl h.1
  case not => exact absurd rfl h.2

/-- What is wrong with a node by itself, the first of it in the order of checking. -/
def fault? (f : Filter) : Option Fault :=
  if f.type.isEmpty then .none
  else
    match Kind.ofType? f.type with
    | .none => some (.unknownType f.type)
    | some kind => (f.shapeFault? kind.shape).or (kind.slots.findSome? f.slotFault?)

/-- A node without a type has no fault. -/
theorem fault?_untyped (h : f.type = "") : f.fault? = .none := by
  rw [fault?, h]
  rfl

/-- A type that names no kind is a fault. -/
theorem fault?_unknown (htyped : f.type ≠ "") (h : Kind.ofType? f.type = .none) :
    f.fault? = some (.unknownType f.type) := by
  rw [fault?, if_neg (by simpa using htyped), h]

/-- A node of a known type has a type. -/
theorem not_isEmpty_type (h : Kind.ofType? f.type = some kind) : ¬f.type.isEmpty = true := by
  rw [String.isEmpty_iff]
  intro hempty
  have hnone : Kind.ofType? "" = .none := by decide
  rw [hempty, hnone] at h
  exact absurd h (by simp)

/-- A node of a known kind has the fault of its shape, or else of its first slot with one. -/
theorem fault?_known (h : Kind.ofType? f.type = some kind) :
    f.fault? = (f.shapeFault? kind.shape).or (kind.slots.findSome? f.slotFault?) := by
  rw [fault?, if_neg (not_isEmpty_type h), h]

/-- A wrong shape is a fault by the rules. -/
theorem faulty_of_shapeFault? (hkind : Kind.ofType? f.type = some kind)
    (h : f.shapeFault? kind.shape = some fault) : f.Faulty fault := by
  rw [shapeFault?_eq] at h
  split at h
  · rename_i hgroup
    obtain rfl := Option.some.inj h
    refine .noChildren hkind ?_ hgroup.2
    cases kind <;> simp [Kind.shape] at hgroup ⊢
  · split at h
    · rename_i hsingle
      obtain rfl := Option.some.inj h
      obtain rfl : kind = .not := by cases kind <;> simp [Kind.shape] at hsingle ⊢
      exact .childCount hkind hsingle.2
    · obtain ⟨slot, hslot, rfl⟩ := Option.map_eq_some_iff.1 h
      obtain ⟨hpresent, hforeign⟩ := of_foreign? hslot
      exact .foreignField hkind hforeign hpresent

/-- A slot that lacks what it needs is a fault by the rules. -/
theorem faulty_of_slotFault? (hkind : Kind.ofType? f.type = some kind) {slot : Slot}
    (hslot : slot ∈ kind.slots) (h : f.slotFault? slot = some fault) : f.Faulty fault := by
  cases slot with
  | type => exact absurd h (by simp [slotFault?])
  | children => exact absurd h (by simp [slotFault?])
  | column =>
      obtain ⟨rfl, hcolumn⟩ := errorOf?_columnOf.1 h
      exact .noColumn hkind hslot hcolumn
  | values =>
      obtain ⟨rfl, hvalues⟩ := errorOf?_valuesOf.1 h
      exact .noValues hkind hslot hvalues
  | value =>
      obtain ⟨rfl, hvalue⟩ := errorOf?_required.1 h
      exact .missing hkind hslot (.inl rfl) hvalue
  | lower =>
      obtain ⟨rfl, hlower⟩ := errorOf?_required.1 h
      exact .missing hkind hslot (.inr (.inl rfl)) hlower
  | upper =>
      obtain ⟨rfl, hupper⟩ := errorOf?_required.1 h
      exact .missing hkind hslot (.inr (.inr rfl)) hupper

/-- What a check reports of a node is wrong with it. -/
theorem faulty_of_fault? (h : f.fault? = some fault) : f.Faulty fault := by
  by_cases htyped : f.type = ""
  · exact absurd h (by simp [fault?_untyped htyped])
  · cases hkind : Kind.ofType? f.type with
    | none =>
        rw [fault?_unknown htyped hkind] at h
        obtain rfl := Option.some.inj h
        exact .unknownType htyped hkind
    | some kind =>
        rw [fault?_known hkind, Option.or_eq_some_iff] at h
        rcases h with hshape | ⟨-, hlacks⟩
        · exact faulty_of_shapeFault? hkind hshape
        · obtain ⟨slot, hslot, hfault⟩ := List.exists_of_findSome?_eq_some hlacks
          exact faulty_of_slotFault? hkind hslot hfault

/-- A slot for a single operand lacks it if it is not given. -/
theorem slotFault?_of_missing {slot : Slot} (h : f.has slot = false)
    (hoperand : slot = .value ∨ slot = .lower ∨ slot = .upper) :
    f.slotFault? slot = some (.missing slot.key) := by
  rcases hoperand with rfl | rfl | rfl
  all_goals exact errorOf?_required.2 ⟨rfl, h⟩

/-- A check finds what is wrong with a node. -/
theorem fault?_ne_none (h : f.Faulty fault) : f.fault? ≠ .none := by
  intro hnone
  have hchecked : ∀ {kind}, Kind.ofType? f.type = some kind →
      f.shapeFault? kind.shape = .none ∧ ∀ slot ∈ kind.slots, f.slotFault? slot = .none := by
    intro kind hkind
    rw [fault?_known hkind, Option.or_eq_none_iff, List.findSome?_eq_none_iff] at hnone
    exact hnone
  cases h with
  | unknownType typed hkind =>
      rw [fault?_unknown typed hkind] at hnone
      exact absurd hnone (by simp)
  | foreignField hkind hslot hpresent =>
      have hforeign := foreign?_of_shapeFault? (hchecked hkind).1
      exact hslot (mem_slots_of_foreign? hforeign hpresent)
  | noChildren hkind hgroup hchildren =>
      have hshape := (hchecked hkind).1
      rw [shapeFault?_eq, if_pos ⟨by rcases hgroup with rfl | rfl <;> rfl, hchildren⟩] at hshape
      exact absurd hshape (by simp)
  | childCount hkind hcount =>
      have hshape := (hchecked hkind).1
      rw [shapeFault?_eq, if_neg (by simp [Kind.shape]), if_pos ⟨rfl, hcount⟩] at hshape
      exact absurd hshape (by simp)
  | noColumn hkind hslot hcolumn =>
      have hslotFault := (hchecked hkind).2 _ hslot
      rw [slotFault?, errorOf?_columnOf.2 ⟨rfl, hcolumn⟩] at hslotFault
      exact absurd hslotFault (by simp)
  | noValues hkind hslot hvalues =>
      have hslotFault := (hchecked hkind).2 _ hslot
      rw [slotFault?, errorOf?_valuesOf.2 ⟨rfl, hvalues⟩] at hslotFault
      exact absurd hslotFault (by simp)
  | missing hkind hslot hoperand habsent =>
      have hslotFault := (hchecked hkind).2 _ hslot
      rw [slotFault?_of_missing habsent hoperand] at hslotFault
      exact absurd hslotFault (by simp)

/-! ## The check of a filter -/

/-- The first fault of nodes. -/
def firstFault? (nodes : List (List Nat × Filter)) : Option Located :=
  nodes.findSome? fun n => n.2.fault?.map (Located.mk n.1)

/-- The way to a node goes on from the end of a path. -/
def Located.under (path : List Nat) (l : Located) : Located := ⟨path ++ l.path, l.fault⟩

/-- A kind of node has children, or the fields that it has are checked one by one. -/
theorem Kind.parent_or_leaf (kind : Kind) :
    (kind.shape = .group ∨ kind.shape = .single) ∧ kind.slots = [.type, .children] ∨
      (kind.shape ≠ .group ∧ kind.shape ≠ .single) ∧ .children ∉ kind.slots := by
  cases kind <;> simp [Kind.shape, Kind.slots]

variable (path : List Nat)

/-- A node without a type becomes nothing. -/
theorem predicateAt_untyped (h : f.type = "") : predicateAt path f = .ok .none := by
  obtain ⟨type, column, value, values, lower, upper, children⟩ := f
  obtain rfl : type = "" := h
  rw [predicateAt]
  rfl

/-- A node whose type names no kind is refused where it stands. -/
theorem predicateAt_unknown (htyped : f.type ≠ "") (h : Kind.ofType? f.type = .none) :
    predicateAt path f = .error ⟨path, .unknownType f.type⟩ := by
  obtain ⟨type, column, value, values, lower, upper, children⟩ := f
  rw [predicateAt, if_neg (by simpa using htyped)]
  simp only [h]

/-- A node of a wrong shape is refused where it stands, before its children are looked at. -/
theorem predicateAt_misshapen (hkind : Kind.ofType? f.type = some kind)
    (h : f.shapeFault? kind.shape = some fault) : predicateAt path f = .error ⟨path, fault⟩ := by
  have htyped := not_isEmpty_type hkind
  obtain ⟨type, column, value, values, lower, upper, children⟩ := f
  rw [predicateAt, if_neg htyped]
  simp only [hkind, h]

/-- A node with children becomes what is made of them, and fails as they do. -/
theorem predicateAt_parent (hkind : Kind.ofType? f.type = some kind)
    (hshape : f.shapeFault? kind.shape = .none)
    (h : kind.shape = .group ∨ kind.shape = .single) :
    predicateAt path f = (predicatesFrom path 0 f.children).map (ofChildren kind) := by
  have htyped := not_isEmpty_type hkind
  obtain ⟨type, column, value, values, lower, upper, children⟩ := f
  rw [predicateAt, if_neg htyped]
  simp only [hkind, hshape]
  rcases h with h | h <;> rw [h]

/-- A leaf becomes its predicate, or is refused where it stands. -/
theorem predicateAt_leaf (hkind : Kind.ofType? f.type = some kind)
    (hshape : f.shapeFault? kind.shape = .none)
    (h : kind.shape ≠ .group ∧ kind.shape ≠ .single) :
    predicateAt path f = ((f.leaf kind).map some).mapError (Located.mk path) := by
  have htyped := not_isEmpty_type hkind
  obtain ⟨type, column, value, values, lower, upper, children⟩ := f
  rw [predicateAt, if_neg htyped]
  simp only [hkind, hshape]
  obtain ⟨hgroup, hsingle⟩ := h
  generalize leaf _ kind = p
  cases hkindShape : kind.shape <;> simp only
  case group => exact absurd hkindShape hgroup
  case single => exact absurd hkindShape hsingle
  all_goals cases p <;> rfl

/-- What an accepted node with a type is. -/
theorem predicateAt_eq_ok {path : List Nat} {p? : Option Predicate}
    (htyped : f.type.isEmpty = false) (h : predicateAt path f = .ok p?) :
    ∃ kind, Kind.ofType? f.type = some kind ∧ f.shapeFault? kind.shape = .none ∧
      (((kind = .and ∨ kind = .or ∨ kind = .not) ∧
          ∃ ps, predicatesFrom path 0 f.children = .ok ps ∧ p? = ofChildren kind ps) ∨
        ∃ p, f.leaf kind = .ok p ∧ p? = some p) := by
  cases hkind : Kind.ofType? f.type with
  | none =>
      rw [predicateAt_unknown path (by simpa using htyped) hkind] at h
      exact absurd h (by simp)
  | some kind =>
      cases hshape : f.shapeFault? kind.shape with
      | some fault =>
          rw [predicateAt_misshapen path hkind hshape] at h
          exact absurd h (by simp)
      | none =>
          refine ⟨kind, rfl, hshape, ?_⟩
          rcases kind.parent_or_leaf with ⟨hparent, -⟩ | ⟨hleaf, -⟩
          · rw [predicateAt_parent path hkind hshape hparent, map_eq_ok] at h
            obtain ⟨ps, hps, rfl⟩ := h
            refine .inl ⟨?_, ps, hps, rfl⟩
            cases kind <;> simp [Kind.shape] at hparent ⊢
          · rw [predicateAt_leaf path hkind hshape hleaf, mapError_eq_ok, map_eq_ok] at h
            obtain ⟨p, hp, rfl⟩ := h
            exact .inr ⟨p, hp, rfl⟩

/-- A group of the right shape has a child. -/
theorem children_ne_nil (h : f.shapeFault? .group = .none) : f.children ≠ [] := by
  intro hnil
  rw [shapeFault?, if_pos ⟨rfl, hnil⟩] at h
  exact absurd h (by simp)

/-- A negation of the right shape has one child. -/
theorem exists_child (h : f.shapeFault? .single = .none) : ∃ child, f.children = [child] := by
  refine List.length_eq_one_iff.1 (Decidable.byContradiction fun hlength => ?_)
  rw [shapeFault?, if_neg (by simp), if_pos ⟨rfl, hlength⟩] at h
  exact absurd h (by simp)

/-- The fault of the first node comes before those of the others. -/
theorem firstFault?_cons (below : List Nat) (f : Filter) (ns : List (List Nat × Filter)) :
    firstFault? ((below, f) :: ns) = (f.fault?.map (Located.mk below)).or (firstFault? ns) := by
  rw [firstFault?, List.findSome?_cons]
  cases f.fault? <;> rfl

/-- A fault of the root counts before those of its children. -/
theorem firstFault?_nodes (f : Filter) : firstFault? f.nodes =
    if f.type = "" then .none
    else (f.fault?.map (Located.mk [])).or (firstFault? (nodesFrom 0 f.children)) := by
  split
  · rename_i htyped
    rw [nodes_untyped htyped, firstFault?_cons, fault?_untyped htyped]
    rfl
  · rename_i htyped
    rw [nodes_typed htyped, firstFault?_cons]

/-- The faults of nodes in front come before those of nodes behind. -/
theorem firstFault?_append (ns more : List (List Nat × Filter)) :
    firstFault? (ns ++ more) = (firstFault? ns).or (firstFault? more) := List.findSome?_append

/-- Nodes below a child have the same faults, one step further down. -/
theorem firstFault?_below (place : Nat) (ns : List (List Nat × Filter)) :
    firstFault? (ns.map fun n => (place :: n.1, n.2)) =
      (firstFault? ns).map (Located.under [place]) := by
  rw [firstFault?, firstFault?, List.findSome?_map, List.map_findSome?]
  refine congrArg (ns.findSome? ·) (funext fun n => ?_)
  simp only [Function.comp_apply, Option.map_map]
  rfl

/-- A fault below a child of a node is below the node, one step further down. -/
theorem under_under (place : Nat) :
    Located.under path ∘ Located.under [place] = Located.under (path ++ [place]) := by
  funext l
  simp [Located.under]

/-- A fault of a node itself stands where the node does. -/
theorem under_mk (fault : Fault) : Located.under path ⟨[], fault⟩ = ⟨path, fault⟩ := by
  rw [Located.under, List.append_nil]

/-- **The check of a node comes before that of its children.** -/
theorem errorOf?_predicateAt_node (h : errorOf? (predicatesFrom path 0 f.children) =
      (firstFault? (nodesFrom 0 f.children)).map (Located.under path)) :
    errorOf? (predicateAt path f) = (firstFault? f.nodes).map (Located.under path) := by
  rw [firstFault?_nodes]
  split
  · rename_i htyped
    rw [predicateAt_untyped path htyped]
    rfl
  · rename_i htyped
    cases hkind : Kind.ofType? f.type with
    | none =>
        rw [predicateAt_unknown path htyped hkind, fault?_unknown htyped hkind]
        exact congrArg some (under_mk path _).symm
    | some kind =>
        rw [fault?_known hkind]
        cases hshape : f.shapeFault? kind.shape with
        | some fault =>
            rw [predicateAt_misshapen path hkind hshape]
            exact congrArg some (under_mk path fault).symm
        | none =>
            rcases kind.parent_or_leaf with ⟨hparent, hslots⟩ | ⟨hleaf, hslots⟩
            · rw [predicateAt_parent path hkind hshape hparent, errorOf?_map, h, hslots]
              rfl
            · rw [predicateAt_leaf path hkind hshape hleaf, children_eq_nil hshape hslots,
                errorOf?_mapError, errorOf?_map, errorOf?_leaf hleaf]
              cases kind.slots.findSome? f.slotFault? with
              | none => rfl
              | some fault => exact congrArg some (under_mk path fault).symm

mutual

/-- The error of a node is the first fault of its live nodes, in document order. -/
theorem errorOf?_predicateAt : ∀ (f : Filter) (path : List Nat),
    errorOf? (predicateAt path f) = (firstFault? f.nodes).map (Located.under path)
  | ⟨_, _, _, _, _, _, children⟩, path =>
      errorOf?_predicateAt_node path (errorOf?_predicatesFrom children path 0)

/-- The error of children is the first fault of the live nodes below them. -/
theorem errorOf?_predicatesFrom : ∀ (fs : List Filter) (path : List Nat) (place : Nat),
    errorOf? (predicatesFrom path place fs) =
      (firstFault? (nodesFrom place fs)).map (Located.under path)
  | [], path, place => rfl
  | f :: rest, path, place => by
      have hrest : ∀ p? : Option Predicate, errorOf? (do
          let ps ← predicatesFrom path (place + 1) rest
          return p?.toList ++ ps) =
            (firstFault? (nodesFrom (place + 1) rest)).map (Located.under path) := by
        intro p?
        rw [← errorOf?_predicatesFrom rest path (place + 1)]
        cases predicatesFrom path (place + 1) rest <;> rfl
      rw [predicatesFrom, errorOf?_bind hrest, errorOf?_predicateAt f, nodesFrom,
        firstFault?_append, firstFault?_below, Option.map_or, Option.map_map, under_under]

end

/-! ## Reports -/

/-- The characters of a step as it is written. -/
def stepChars (place : Nat) : List Char :=
  ['.', 'f', 'i', 'e', 'l', 'd', 's', '['] ++ (Text.digitsOfNat place ++ [']'])

/-- A step of a path is written as the field and the index of the child. -/
theorem toList_step (place : Nat) : (s!".fields[{place}]").toList = stepChars place := by
  have hplace : (toString place).toList = Text.digitsOfNat place := Nat.toList_repr
  rw [String.toList_append, String.toList_append, hplace, List.append_assoc]
  rfl

/-- A path is written as its steps behind the root. -/
theorem toList_pathText (path : List Nat) :
    (pathText path).toList = '$' :: path.flatMap stepChars := by
  rw [pathText, String.toList_append, String.toList_join, List.flatMap_map]
  simp only [toList_step]
  rfl

/-- Digits and the bracket behind them are read as the number and what follows. -/
theorem digitsOfNat_append_inj {m n : Nat} {rest more : List Char}
    (h : Text.digitsOfNat m ++ ']' :: rest = Text.digitsOfNat n ++ ']' :: more) :
    m = n ∧ rest = more := by
  have hrun : ∀ (n : Nat) (rest : List Char),
      (Text.digitsOfNat n ++ ']' :: rest).takeWhile Char.isDigit = Text.digitsOfNat n ∧
        (Text.digitsOfNat n ++ ']' :: rest).dropWhile Char.isDigit = ']' :: rest :=
    fun n rest => ⟨Text.takeWhile_run (Text.isDigit_digitsOfNat n) rfl,
      Text.dropWhile_run (Text.isDigit_digitsOfNat n) rfl⟩
  have hdigits := (hrun m rest).1
  have hrest := (hrun m rest).2
  rw [h, (hrun n more).1] at hdigits
  rw [h, (hrun n more).2] at hrest
  refine ⟨?_, (List.cons.inj hrest).2.symm⟩
  rw [← Text.natOfDigits_digitsOfNat m, ← hdigits, Text.natOfDigits_digitsOfNat]

/-- The first step of a path ends with its bracket. -/
theorem flatMap_stepChars_cons (place : Nat) (path : List Nat) :
    (place :: path).flatMap stepChars = ['.', 'f', 'i', 'e', 'l', 'd', 's', '['] ++
      (Text.digitsOfNat place ++ ']' :: path.flatMap stepChars) := by
  rw [List.flatMap_cons, stepChars, List.append_assoc, List.append_assoc, List.singleton_append]

/-- The written steps determine the path, since digits end at the bracket. -/
theorem steps_injective {path other : List Nat}
    (h : path.flatMap stepChars = other.flatMap stepChars) : path = other := by
  induction path generalizing other with
  | nil =>
      cases other with
      | nil => rfl
      | cons place other =>
          rw [flatMap_stepChars_cons] at h
          exact absurd h (List.cons_ne_nil _ _).symm
  | cons place path ih =>
      cases other with
      | nil =>
          rw [flatMap_stepChars_cons] at h
          exact absurd h (List.cons_ne_nil _ _)
      | cons place' other =>
          rw [flatMap_stepChars_cons, flatMap_stepChars_cons, List.append_cancel_left_eq] at h
          obtain ⟨rfl, hrest⟩ := digitsOfNat_append_inj h
          rw [ih hrest]

/-- **A path can be read from its written form.** -/
theorem pathText_injective {path other : List Nat} (h : pathText path = pathText other) :
    path = other := by
  have hchars := congrArg String.toList h
  rw [toList_pathText, toList_pathText, List.cons_inj_right] at hchars
  exact steps_injective hchars

/-- A filter is refused for the first fault of its live nodes, and for nothing else. -/
theorem toPredicate_eq_error {f : Filter} {e : SqlError} : f.toPredicate = .error e ↔
    ∃ l, firstFault? f.nodes = some l ∧ l.error = e := by
  have hroot : Located.under [] = id := rfl
  rw [← errorOf?_eq_some, toPredicate, errorOf?_mapError, errorOf?_predicateAt, hroot,
    Option.map_id, id, Option.map_eq_some_iff]

/-- **A filter is refused iff a live node is at fault, and the report is about the first of
them in document order.**  The path of the report leads to this node alone, and the message is
about a fault that the node has. -/
theorem toPredicate_reports (f : Filter) :
    ((∃ e, f.toPredicate = .error e) ↔ ∃ path g fault, f.Live path g ∧ g.Faulty fault) ∧
      ∀ e, f.toPredicate = .error e → ∃ path g fault,
        e = .malformedFilter (pathText path) fault.message ∧ f.Live path g ∧ g.Faulty fault ∧
          (∀ other h found, f.Live other h → h.Faulty found →
            other = path ∨ List.Lex (· < ·) path other) ∧
          ∀ other, pathText other = pathText path → other = path := by
  refine ⟨⟨fun ⟨e, he⟩ => ?_, fun ⟨path, g, fault, hlive, hfault⟩ => ?_⟩, fun e he => ?_⟩
  · obtain ⟨l, hl, -⟩ := toPredicate_eq_error.1 he
    obtain ⟨⟨path, g⟩, hmem, hg⟩ := List.exists_of_findSome?_eq_some hl
    obtain ⟨fault, hfault, -⟩ := Option.map_eq_some_iff.1 hg
    exact ⟨path, g, fault, (mem_nodes_iff f).1 hmem, faulty_of_fault? hfault⟩
  · cases hfirst : firstFault? f.nodes with
    | some l => exact ⟨l.error, toPredicate_eq_error.2 ⟨l, hfirst, rfl⟩⟩
    | none =>
        have hnone := List.findSome?_eq_none_iff.1 hfirst (path, g) ((mem_nodes_iff f).2 hlive)
        exact absurd (Option.map_eq_none_iff.1 hnone) (fault?_ne_none hfault)
  · obtain ⟨l, hl, rfl⟩ := toPredicate_eq_error.1 he
    obtain ⟨before, ⟨path, g⟩, after, hnodes, hg, hbefore⟩ := List.findSome?_eq_some_iff.1 hl
    obtain ⟨fault, hfault, rfl⟩ := Option.map_eq_some_iff.1 hg
    have hmem : (path, g) ∈ f.nodes := by simp [hnodes]
    refine ⟨path, g, fault, rfl, (mem_nodes_iff f).1 hmem, faulty_of_fault? hfault,
      fun other h found hlive hfound => ?_, fun other hother => pathText_injective hother⟩
    have hother := (mem_nodes_iff f).2 hlive
    have hordered := paths_ordered f
    rw [hnodes, List.map_append, List.map_cons, List.pairwise_append] at hordered
    rw [hnodes, List.mem_append, List.mem_cons] at hother
    rcases hother with hother | hother | hother
    · have hnone := Option.map_eq_none_iff.1 (hbefore (other, h) hother)
      exact absurd hnone (fault?_ne_none hfound)
    · exact .inl (congrArg Prod.fst hother)
    · exact .inr (List.rel_of_pairwise_cons hordered.2.1 (List.mem_map_of_mem hother))

/-- An untyped node with a fault below it, then a blank column, then an empty list. -/
theorem toPredicate_reports_nested :
    let f : Filter := .node "and" [
      .node "" [.node "xor" []],
      .node "not" [.node "or" [.compare "eq" "a" .null, .compare "like" " " .null]],
      .list "in" "b" []]
    f.toPredicate = .error (.malformedFilter "$.fields[1].fields[0].fields[1]"
        "'like' requires a non-empty 'column'") ∧
      ∃ g fault, f.Live [1, 0, 1] g ∧ g.Faulty fault ∧
        fault.message = "'like' requires a non-empty 'column'" := by
  intro f
  have hrefused : f.toPredicate = .error (.malformedFilter "$.fields[1].fields[0].fields[1]"
      "'like' requires a non-empty 'column'") := by rfl
  obtain ⟨path, g, fault, he, hlive, hfault, -, honly⟩ := (toPredicate_reports f).2 _ hrefused
  obtain ⟨hpath, hmessage⟩ := SqlError.malformedFilter.inj he
  obtain rfl := honly [1, 0, 1] (Eq.trans (by rfl) hpath)
  exact ⟨hrefused, g, fault, hlive, hfault, hmessage.symm⟩

end Filter

end BoundSql
