import BoundSql.Clause.Columns
import BoundSql.Clause.Condition
import BoundSql.Proofs.Template.Masking

/-!
# Masked predicates

A masked predicate has content if the predicate has, and its layout is the masked layout of
the predicate.  So are those of the clauses made of predicates.
-/

namespace BoundSql

/-- A side of a comparison with its value masked. -/
def Operand.mask : Operand → Operand
  | .column name => .column name
  | .value v => .value v.mask

namespace Predicate

mutual

/-- A predicate with its values masked. -/
def mask : Predicate → Predicate
  | .and members => .and (maskAll members)
  | .or members => .or (maskAll members)
  | .not body => .not body.mask
  | .compare left op right => .compare left.mask op right.mask
  | .nullTest column negated => .nullTest column negated
  | .oneOf column values negated => .oneOf column (values.map Value.mask) negated
  | .raw sql values => .raw sql (values.map Value.mask)

def maskAll : List Predicate → List Predicate
  | [] => []
  | p :: rest => p.mask :: maskAll rest

end

/-- Members are masked one by one. -/
theorem maskAll_eq_map (ps : List Predicate) : maskAll ps = ps.map mask := by
  induction ps with
  | nil => rfl
  | cons p rest ih => rw [maskAll, ih, List.map_cons]

mutual

/-- Whether there is content does not depend on the values. -/
theorem isEmpty_mask : ∀ p : Predicate, p.mask.isEmpty = p.isEmpty
  | .and members => allEmpty_maskAll members
  | .or members => allEmpty_maskAll members
  | .not body => isEmpty_mask body
  | .compare .. => rfl
  | .nullTest .. => rfl
  | .oneOf .. => rfl
  | .raw .. => rfl

/-- Whether a member has content does not depend on the values. -/
theorem allEmpty_maskAll : ∀ ps : List Predicate, allEmpty (maskAll ps) = allEmpty ps
  | [] => rfl
  | p :: rest => by rw [maskAll, allEmpty, allEmpty, isEmpty_mask p, allEmpty_maskAll rest]

end

/-- An operand is masked if it is a value. -/
theorem mask_ofOperand (o : Operand) : Chunk.ofOperand o.mask = (Chunk.ofOperand o).mask := by
  cases o <;> rfl

/-- Bound values with commas between them. -/
theorem mask_binds (values : List Value) :
    Chunk.join ", " ((values.map Value.mask).map fun v => [.bind v]) =
      (Chunk.join ", " (values.map fun v => [.bind v])).map Chunk.mask := by
  rw [Chunk.mask_join, List.map_map, List.map_map]
  rfl

mutual

/-- **The layout of a masked predicate is the masked layout of the predicate.** -/
theorem layout_mask : ∀ p : Predicate, p.mask.layout = p.layout.mask
  | .and members => congrArg (Layout.joined true " AND ") (memberLayouts_maskAll members)
  | .or members => congrArg (Layout.joined true " OR ") (memberLayouts_maskAll members)
  | .not body => congrArg (Layout.framed "NOT (" · (some ")")) (layout_mask body)
  | .compare left op right => by
      rw [mask, layout, layout, mask_ofOperand, mask_ofOperand]
      rfl
  | .nullTest .. => rfl
  | .oneOf column values negated => by
      rw [mask, layout, layout, mask_binds, Layout.mask, List.map_append]
      rfl
  | .raw sql values => congrArg Layout.chunks (Chunk.mask_ofRaw sql values)

/-- The layouts of masked members are the masked layouts. -/
theorem memberLayouts_maskAll : ∀ ps : List Predicate,
    memberLayouts (maskAll ps) = Layout.maskAll (memberLayouts ps)
  | [] => rfl
  | p :: rest => by
      rw [memberLayouts, maskAll, memberLayouts, isEmpty_mask p]
      split
      · exact memberLayouts_maskAll rest
      · rw [Layout.maskAll, layout_mask p, memberLayouts_maskAll rest]

end

/-- Whether parentheses are needed does not depend on the values. -/
theorem isolatedLayout_mask (p : Predicate) : p.mask.isolatedLayout = p.isolatedLayout.mask := by
  cases p with
  | raw sql values =>
      rw [mask, isolatedLayout, isolatedLayout, Layout.mask, Chunk.ofRaw, Chunk.mask_ofRaw,
        List.map_append]
      rfl
  | _ => exact layout_mask _

/-- Masking a conjunction masks its members. -/
theorem conjunction_mask (ps : List Predicate) :
    conjunction (ps.map mask) = (conjunction ps).mask := by
  have hmembers : ∀ ps : List Predicate,
      (ps.map mask).map isolatedLayout = Layout.maskAll (ps.map isolatedLayout) := by
    intro ps
    induction ps with
    | nil => rfl
    | cons p rest ih => exact congr (congrArg _ (isolatedLayout_mask p)) ih
  rcases ps with _ | ⟨p, _ | ⟨next, more⟩⟩
  · rfl
  · exact layout_mask p
  · exact congrArg (Layout.joined false " AND ") (hmembers (p :: next :: more))

/-- A list of values is masked value by value, and is empty where it was. -/
theorem mask_among (column : Identifier) (values : List Value) :
    (among column values).mask = among column (values.map Value.mask) := by
  cases values <;> rfl

/-- An excluded list of values is masked value by value, and is empty where it was. -/
theorem mask_notAmong (column : Identifier) (values : List Value) :
    (notAmong column values).mask = notAmong column (values.map Value.mask) := by
  cases values <;> rfl

/-- The condition of a masked map is its condition, masked. -/
theorem mask_ofEqualities (m : ValueMap) :
    (ofEqualities m).map mask = ofEqualities m.mask := by
  rw [ofEqualities, ofEqualities, KeyMap.entries_mask, List.map_map]
  rcases m.entries with _ | ⟨entry, _ | ⟨next, more⟩⟩
  · rfl
  · rfl
  · refine congrArg some ?_
    rw [mask, maskAll_eq_map, List.map_cons, List.map_map]
    rfl

end Predicate

namespace ColumnClause

/-- A clause with its values masked. -/
def mask : ColumnClause → ColumnClause
  | .columns items => .columns items
  | .raw sql values => .raw sql (values.map Value.mask)
  | .predicate p direction? => .predicate p.mask direction?

/-- Whether a clause has content does not depend on the values. -/
theorem isEmpty_mask (c : ColumnClause) : c.mask.isEmpty = c.isEmpty := by
  cases c with
  | columns items => rfl
  | raw sql values => rfl
  | predicate p direction? => exact p.isEmpty_mask

/-- A direction has no values. -/
theorem mask_directionChunks (direction? : Option Direction) :
    (directionChunks direction?).map Chunk.mask = directionChunks direction? := by
  cases direction? <;> rfl

/-- The layout of a masked clause is its layout, masked. -/
theorem layout_mask (c : ColumnClause) : c.mask.layout = c.layout.mask := by
  cases c with
  | columns items =>
      rw [mask, layout, Layout.mask, Chunk.mask_join, List.map_map]
      refine congrArg _ (congrArg _ (List.map_congr_left fun item _ => ?_))
      exact congrArg (.column item.column :: ·) (mask_directionChunks _).symm
  | raw sql values => exact congrArg Layout.chunks (Chunk.mask_ofRaw sql values)
  | predicate p direction? =>
      rw [mask, layout, layout, Layout.mask, p.layout_mask, Layout.mask, mask_directionChunks]

end ColumnClause

end BoundSql
