import BoundSql.Filter.Basic

/-!
# Nodes of a filter

A node of a filter is found by its path, the place among the children at each step from the
root.  It is *live* if every node above it has a type: what is below an untyped node is no
part of the condition (`Filter.Live`).

`Filter.nodes` lists the live nodes with their paths, a node in front of its children and
these in order.  That is the document order of the nodes, and it is the lexicographic order
of their paths (`Filter.paths_ordered`).
-/

namespace BoundSql

namespace Filter

/-- The path leads from the filter to the node, and every node above it has a type. -/
inductive Live : Filter → List Nat → Filter → Prop
  | root (f : Filter) : Live f [] f
  | child {f child g : Filter} {place : Nat} {path : List Nat} (typed : f.type ≠ "")
      (found : f.children[place]? = some child) (h : Live child path g) :
      Live f (place :: path) g

mutual

/-- The live nodes with their paths, in document order. -/
def nodes : Filter → List (List Nat × Filter)
  | ⟨type, column, value, values, lower, upper, children⟩ =>
    ([], ⟨type, column, value, values, lower, upper, children⟩) ::
      if type.isEmpty then [] else nodesFrom 0 children

/-- The live nodes of children, the first of them at a place. -/
def nodesFrom (place : Nat) : List Filter → List (List Nat × Filter)
  | [] => []
  | f :: rest => (nodes f).map (fun n => (place :: n.1, n.2)) ++ nodesFrom (place + 1) rest

end

/-- The nodes that count are the filter and, if it has a type, those below its children. -/
theorem nodes_eq (f : Filter) :
    f.nodes = ([], f) :: if f.type.isEmpty then [] else nodesFrom 0 f.children := by
  obtain ⟨type, column, value, values, lower, upper, children⟩ := f
  rw [nodes]

/-- Below a node without a type no node counts. -/
theorem nodes_untyped {f : Filter} (h : f.type = "") : f.nodes = [([], f)] := by
  rw [nodes_eq, h]
  rfl

/-- Below a node with a type the nodes of its children count, in order. -/
theorem nodes_typed {f : Filter} (h : f.type ≠ "") :
    f.nodes = ([], f) :: nodesFrom 0 f.children := by
  rw [nodes_eq, if_neg (by simpa using h)]

/-- A live node is the filter itself, or a live node of a child. -/
theorem live_iff {f g : Filter} {path : List Nat} : f.Live path g ↔
    (path = [] ∧ f = g) ∨ f.type ≠ "" ∧ ∃ place below child,
      path = place :: below ∧ f.children[place]? = some child ∧ child.Live below g := by
  constructor
  · rintro (_ | ⟨typed, found, h⟩)
    · exact .inl ⟨rfl, rfl⟩
    · exact .inr ⟨typed, _, _, _, rfl, found, h⟩
  · rintro (⟨rfl, rfl⟩ | ⟨typed, place, below, child, rfl, found, h⟩)
    · exact .root f
    · exact .child typed found h

mutual

/-- **The nodes that are listed are the live ones.** -/
theorem mem_nodes_iff : ∀ (f : Filter) {path : List Nat} {g : Filter},
    (path, g) ∈ f.nodes ↔ f.Live path g
  | ⟨type, column, value, values, lower, upper, children⟩, path, g => by
      rw [live_iff]
      by_cases htyped : type = ""
      · rw [nodes_untyped htyped, List.mem_singleton, Prod.mk.injEq, @eq_comm _ g]
        simp [htyped]
      · rw [nodes_typed htyped, List.mem_cons, Prod.mk.injEq, @eq_comm _ g,
          mem_nodesFrom_iff children 0]
        simp [htyped]

/-- A node below children is reached through one of them. -/
theorem mem_nodesFrom_iff : ∀ (fs : List Filter) (start : Nat) {path : List Nat} {g : Filter},
    (path, g) ∈ nodesFrom start fs ↔ ∃ place below child,
      path = (start + place) :: below ∧ fs[place]? = some child ∧ child.Live below g
  | [], start, path, g => by simp [nodesFrom]
  | f :: rest, start, path, g => by
      have hfirst : (path, g) ∈ f.nodes.map (fun n => (start :: n.1, n.2)) ↔
          ∃ below, path = start :: below ∧ f.Live below g := by
        rw [List.mem_map]
        constructor
        · rintro ⟨⟨below, node⟩, hmem, heq⟩
          obtain ⟨rfl, rfl⟩ := Prod.mk.inj heq
          exact ⟨below, rfl, (mem_nodes_iff f).1 hmem⟩
        · rintro ⟨below, rfl, h⟩
          exact ⟨(below, g), (mem_nodes_iff f).2 h, rfl⟩
      rw [nodesFrom, List.mem_append, hfirst, mem_nodesFrom_iff rest (start + 1)]
      constructor
      · rintro (⟨below, rfl, h⟩ | ⟨place, below, child, rfl, hfound, h⟩)
        · exact ⟨0, below, f, rfl, rfl, h⟩
        · exact ⟨place + 1, below, child, by rw [Nat.add_right_comm, Nat.add_assoc], hfound, h⟩
      · rintro ⟨place, below, child, rfl, hfound, h⟩
        cases place with
        | zero =>
            obtain rfl := Option.some.inj hfound
            exact .inl ⟨below, rfl, h⟩
        | succ place =>
            exact .inr ⟨place, below, child, by rw [Nat.add_right_comm, Nat.add_assoc], hfound, h⟩

end

mutual

/-- **Document order is the order of paths:** a path in front of those it is the beginning
of, and else by the first place at which two paths differ. -/
theorem paths_ordered : ∀ f : Filter, (f.nodes.map Prod.fst).Pairwise (List.Lex (· < ·))
  | ⟨type, column, value, values, lower, upper, children⟩ => by
      by_cases htyped : type = ""
      · rw [nodes_untyped htyped]
        exact List.pairwise_singleton _ _
      · rw [nodes_typed htyped, List.map_cons, List.pairwise_cons]
        refine ⟨fun path hpath => ?_, pathsFrom_ordered children 0⟩
        obtain ⟨⟨_, g⟩, hmem, rfl⟩ := List.mem_map.1 hpath
        obtain ⟨place, below, child, rfl, -⟩ := (mem_nodesFrom_iff children 0).1 hmem
        exact .nil

/-- The paths below children ascend. -/
theorem pathsFrom_ordered : ∀ (fs : List Filter) (start : Nat),
    ((nodesFrom start fs).map Prod.fst).Pairwise (List.Lex (· < ·))
  | [], _ => .nil
  | f :: rest, start => by
      rw [nodesFrom, List.map_append, List.map_map, List.pairwise_append]
      refine ⟨?_, pathsFrom_ordered rest (start + 1), fun path hpath other hother => ?_⟩
      · have hbelow : f.nodes.map (Prod.fst ∘ fun n => (start :: n.1, n.2)) =
            (f.nodes.map Prod.fst).map (start :: ·) := by
          rw [List.map_map]
          rfl
        rw [hbelow, List.pairwise_map]
        exact (paths_ordered f).imp fun h => .cons h
      · obtain ⟨n, -, rfl⟩ := List.mem_map.1 hpath
        obtain ⟨⟨_, g⟩, hmem, rfl⟩ := List.mem_map.1 hother
        obtain ⟨place, below, child, rfl, -⟩ := (mem_nodesFrom_iff rest (start + 1)).1 hmem
        exact .rel (by omega)

end

end Filter

end BoundSql
