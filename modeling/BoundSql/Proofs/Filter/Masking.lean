import BoundSql.Filter.Predicate
import BoundSql.Proofs.Predicate.Masking

/-!
# Masked filters

A filter document has a shape: its types, its columns, which fields are present and
how long its lists are.  Masking puts null in the place of every value in it and
keeps the shape.  The predicate of a masked document is the masked predicate, and a
fault of the shape is reported alike.
-/

namespace BoundSql

/-- Null in the place of a JSON value. -/
def Json.mask (_ : Json) : Json := .null

namespace Filter

mutual

/-- A filter with its values masked. -/
def mask : Filter → Filter
  | ⟨type, column, value, values, lower, upper, children⟩ =>
    ⟨type, column, value.map Json.mask, values.map (List.map Json.mask), lower.map Json.mask,
      upper.map Json.mask, maskAll children⟩

def maskAll : List Filter → List Filter
  | [] => []
  | f :: rest => f.mask :: maskAll rest

end

theorem type_mask (f : Filter) : f.mask.type = f.type := by cases f; rfl

theorem column_mask (f : Filter) : f.mask.column = f.column := by cases f; rfl

theorem value_mask (f : Filter) : f.mask.value = f.value.map Json.mask := by cases f; rfl

theorem values_mask (f : Filter) : f.mask.values = f.values.map (List.map Json.mask) := by
  cases f; rfl

theorem lower_mask (f : Filter) : f.mask.lower = f.lower.map Json.mask := by cases f; rfl

theorem upper_mask (f : Filter) : f.mask.upper = f.upper.map Json.mask := by cases f; rfl

theorem children_mask (f : Filter) : f.mask.children = maskAll f.children := by cases f; rfl

/-- Masking leaves as many children as there were. -/
theorem length_maskAll (fs : List Filter) : (maskAll fs).length = fs.length := by
  induction fs with
  | nil => rfl
  | cons f rest ih => rw [maskAll, List.length_cons, List.length_cons, ih]

/-- Masking leaves no children just where there were none. -/
theorem maskAll_eq_nil {fs : List Filter} : maskAll fs = [] ↔ fs = [] := by
  rw [← List.length_eq_zero_iff, length_maskAll, List.length_eq_zero_iff]

/-- Which fields are given does not depend on the operands. -/
theorem fields_mask (f : Filter) : f.mask.fields = f.fields := by
  have hchildren : (maskAll f.children).isEmpty = f.children.isEmpty := by
    cases f.children <;> rfl
  simp only [fields, column_mask, value_mask, values_mask, lower_mask, upper_mask, children_mask,
    hchildren, Option.isSome_map]

/-- Whether the shape is wrong does not depend on the operands. -/
theorem shapeFault?_mask (f : Filter) (shape : Shape) :
    f.mask.shapeFault? shape = f.shapeFault? shape := by
  simp only [shapeFault?, fields_mask, type_mask, children_mask, maskAll_eq_nil, length_maskAll]

/-- The column is no operand. -/
theorem columnOf_mask (f : Filter) : f.mask.columnOf = f.columnOf := by
  rw [columnOf, columnOf, column_mask, type_mask]

/-- An operand is missing whatever it is. -/
theorem required_mask (key : String) (j? : Option Json) :
    required key (j?.map Json.mask) = (required key j?).map Value.mask := by
  cases j? <;> rfl

/-- Operands are missing whatever they are. -/
theorem valuesOf_mask (f : Filter) : f.mask.valuesOf = f.valuesOf.map (List.map Value.mask) := by
  rw [valuesOf, valuesOf, values_mask, type_mask]
  rcases f.values with _ | _ | ⟨j, js⟩
  · rfl
  · rfl
  · have hvalues : (js.map Json.mask).map Value.ofJson = (js.map Value.ofJson).map Value.mask := by
      rw [List.map_map, List.map_map]
      rfl
    exact congrArg (fun vs => Except.ok (.null :: vs)) hvalues

/-- The predicate of a masked leaf is its predicate, masked. -/
theorem leaf_mask (f : Filter) (kind : Kind) :
    f.mask.leaf kind = (f.leaf kind).map Predicate.mask := by
  cases kind with
  | compare op =>
      rw [leaf, leaf, columnOf_mask, value_mask, required_mask]
      rcases f.columnOf with fault | column
      · rfl
      · cases required "value" f.value <;> rfl
  | notLike =>
      rw [leaf, leaf, columnOf_mask, value_mask, required_mask]
      rcases f.columnOf with fault | column
      · rfl
      · cases required "value" f.value <;> rfl
  | oneOf negated =>
      rw [leaf, leaf, columnOf_mask, valuesOf_mask]
      rcases f.columnOf with fault | column
      · rfl
      · rcases f.valuesOf with fault | values
        · rfl
        · cases negated
          · exact congrArg Except.ok (Predicate.mask_among column values).symm
          · exact congrArg Except.ok (Predicate.mask_notAmong column values).symm
  | between =>
      rw [leaf, leaf, columnOf_mask, lower_mask, upper_mask, required_mask, required_mask]
      rcases f.columnOf with fault | column
      · rfl
      · rcases required "from" f.lower with fault | low
        · rfl
        · cases required "to" f.upper <;> rfl
  | nullTest negated =>
      rw [leaf, leaf, columnOf_mask]
      cases f.columnOf <;> rfl
  | and => rw [leaf, leaf, type_mask]; rfl
  | or => rw [leaf, leaf, type_mask]; rfl
  | not => rw [leaf, leaf, type_mask]; rfl

/-- What is made of masked children is what is made of them, masked. -/
theorem mask_ofChildren (kind : Kind) (ps : List Predicate) :
    (ofChildren kind ps).map Predicate.mask = ofChildren kind (ps.map Predicate.mask) := by
  cases ps with
  | nil => rfl
  | cons p rest =>
      rw [List.map_cons]
      cases kind <;> simp [ofChildren, Predicate.mask, Predicate.maskAll_eq_map]

mutual

/-- **The predicate of a masked filter is the masked predicate.** -/
theorem predicateAt_mask (path : List Nat) : ∀ f : Filter,
    predicateAt path f.mask = (predicateAt path f).map (Option.map Predicate.mask)
  | ⟨type, column, value, values, lower, upper, children⟩ => by
      have hshape := shapeFault?_mask ⟨type, column, value, values, lower, upper, children⟩
      have hleaf := leaf_mask ⟨type, column, value, values, lower, upper, children⟩
      have hchildren := predicatesFrom_mask path 0 children
      rw [mask] at hshape hleaf ⊢
      rw [predicateAt, predicateAt]
      simp only [hshape, hleaf, hchildren]
      split
      · rfl
      · rcases Kind.ofType? type with _ | kind
        · rfl
        · simp only
          generalize shapeFault? _ kind.shape = fault?
          rcases fault? with _ | fault
          · simp only
            cases kind.shape <;> simp only
            case group | single =>
              rcases predicatesFrom path 0 children with e | ps
              · rfl
              · exact congrArg Except.ok (mask_ofChildren kind ps).symm
            all_goals
              generalize leaf _ kind = p
              rcases p with fault | p <;> rfl
          · rfl

/-- The predicates of masked children are their predicates, masked, and their faults are the
same. -/
theorem predicatesFrom_mask (path : List Nat) (place : Nat) : ∀ fs : List Filter,
    predicatesFrom path place (maskAll fs) =
      (predicatesFrom path place fs).map (List.map Predicate.mask)
  | [] => rfl
  | f :: rest => by
      rw [maskAll, predicatesFrom, predicatesFrom, predicateAt_mask (path ++ [place]) f,
        predicatesFrom_mask path (place + 1) rest]
      rcases predicateAt (path ++ [place]) f with e | p?
      · rfl
      · rcases predicatesFrom path (place + 1) rest with e | ps
        · rfl
        · cases p? <;> rfl

end

/-- The predicate of a masked filter is its predicate, masked, and its error is the same. -/
theorem toPredicate_mask (f : Filter) :
    f.mask.toPredicate = f.toPredicate.map (Option.map Predicate.mask) := by
  rw [toPredicate, toPredicate, predicateAt_mask]
  cases predicateAt [] f <;> rfl

end Filter

end BoundSql
