import BoundSql.Proofs.Filter.RoundTrip
import BoundSql.Proofs.Filter.Validation
import BoundSql.Proofs.Predicate.Content

/-!
# What a filter says is in its SQL

The leaves of a filter are the nodes that test a column.  Untyped nodes are dropped with all
that is below them, then a group of nothing, and at last the members of a rendered group that
have no content.  None of this loses anything of a leaf: the SQL of the predicate binds the
operands of the leaves in document order, and names their columns in this order
(`Filter.toPredicate_keeps`).
-/

namespace BoundSql

namespace Predicate

variable (ps qs : List Predicate)

/-- The values of two lists are those of the first and then those of the second. -/
theorem valuesOf_append : valuesOf (ps ++ qs) = valuesOf ps ++ valuesOf qs := by
  induction ps with
  | nil => rfl
  | cons p ps ih => rw [List.cons_append, valuesOf, valuesOf, ih, List.append_assoc]

/-- The columns of two lists are those of the first and then those of the second. -/
theorem columnsOf_append : columnsOf (ps ++ qs) = columnsOf ps ++ columnsOf qs := by
  induction ps with
  | nil => rfl
  | cons p ps ih => rw [List.cons_append, columnsOf, columnsOf, ih, List.append_assoc]

/-- The raw SQL of two lists is that of the first and then that of the second. -/
theorem rawTextsOf_append : rawTextsOf (ps ++ qs) = rawTextsOf ps ++ rawTextsOf qs := by
  induction ps with
  | nil => rfl
  | cons p ps ih => rw [List.cons_append, rawTextsOf, rawTextsOf, ih, List.append_assoc]

end Predicate

namespace Filter

/-! ## Leaves -/

/-- A typed node that is no group and no negation. -/
def isLeaf (f : Filter) : Bool := !(["", "and", "or", "not"].contains f.type)

/-- The live nodes that are leaves, in document order. -/
def leaves (f : Filter) : List Filter := (f.nodes.map Prod.snd).filter isLeaf

/-- The column of a node as often as its test names it: a range names it at both ends. -/
def columnRefs (f : Filter) : List Identifier :=
  f.column.toList.flatMap fun c =>
    List.replicate (if f.type = "between" then 2 else 1) (Identifier.ofText c)

variable {f : Filter} {kind : Kind} {fs gs hs : List Filter} {ps qs : List Predicate}

/-- The nodes below children are the same wherever the children stand. -/
theorem map_snd_nodesFrom (fs : List Filter) (place : Nat) :
    (nodesFrom place fs).map Prod.snd = fs.flatMap fun f => f.nodes.map Prod.snd := by
  induction fs generalizing place with
  | nil => rfl
  | cons f rest ih =>
      rw [nodesFrom, List.map_append, List.map_map, ih, List.flatMap_cons]
      rfl

/-- A node without a type is passed over with all below it. -/
theorem leaves_untyped (h : f.type = "") : f.leaves = [] := by
  rw [leaves, nodes_untyped h]
  simp [isLeaf, h]

/-- The leaves of a node with a type are itself, if it is one, and those of its children. -/
theorem leaves_typed (h : f.type ≠ "") :
    f.leaves = (if f.isLeaf then [f] else []) ++ f.children.flatMap leaves := by
  rw [leaves, nodes_typed h, List.map_cons, map_snd_nodesFrom, List.filter_cons,
    List.filter_flatMap]
  cases f.isLeaf <;> rfl

/-- The type of a kind of node. -/
def Kind.typeText : Kind → String
  | .and => "and"
  | .or => "or"
  | .not => "not"
  | .compare .eq => "eq"
  | .compare .ne => "ne"
  | .compare .lt => "lt"
  | .compare .le => "lte"
  | .compare .gt => "gt"
  | .compare .ge => "gte"
  | .compare .like => "like"
  | .notLike => "not_like"
  | .oneOf negated => if negated then "not_in" else "in"
  | .between => "between"
  | .nullTest negated => if negated then "is_not_null" else "is_null"

/-- A kind is known by the type that names it. -/
theorem Kind.eq_typeText {type : String} (h : ofType? type = some kind) :
    type = kind.typeText := by
  have hstep : ∀ {known : String} {k : Kind} {rest : Option Kind},
      (if type = known then some k else rest) = some kind →
        type = known ∧ k = kind ∨ rest = some kind := by
    intro known k rest hrest
    split at hrest
    · rename_i hknown
      exact .inl ⟨hknown, Option.some.inj hrest⟩
    · exact .inr hrest
  unfold ofType? at h
  repeat
    rcases hstep h with ⟨rfl, rfl⟩ | h
    · rfl
  exact absurd h (by simp)

/-- A node is a leaf unless its kind has children. -/
theorem isLeaf_eq (h : Kind.ofType? f.type = some kind) :
    f.isLeaf = !([.and, .or, .not] : List Kind).contains kind := by
  rw [isLeaf, Kind.eq_typeText h]
  cases kind with
  | compare op => cases op <;> rfl
  | oneOf negated | nullTest negated => cases negated <;> rfl
  | _ => rfl

/-- A node is a range if its kind is. -/
theorem type_eq_between_iff (h : Kind.ofType? f.type = some kind) :
    f.type = "between" ↔ kind = .between := by
  rw [Kind.eq_typeText h]
  cases kind with
  | compare op => cases op <;> decide
  | oneOf negated | nullTest negated => cases negated <;> decide
  | _ => decide

/-! ## What is kept -/

/-- Predicates that say what leaves say: all that these compare with and name, in order. -/
structure Kept (gs : List Filter) (ps : List Predicate) : Prop where
  eq_nil_iff : ps = [] ↔ gs = []
  values : Predicate.valuesOf ps = gs.flatMap fun g => g.operands.map Value.ofJson
  columns : Predicate.columnsOf ps = gs.flatMap columnRefs
  rawTexts : Predicate.rawTextsOf ps = []

theorem Kept.nil : Kept [] [] := ⟨iff_of_true rfl rfl, rfl, rfl, rfl⟩

/-- What is kept of two lists is kept of both together. -/
theorem Kept.append (h : Kept gs ps) (h' : Kept hs qs) : Kept (gs ++ hs) (ps ++ qs) where
  eq_nil_iff := by rw [List.append_eq_nil_iff, List.append_eq_nil_iff, h.eq_nil_iff, h'.eq_nil_iff]
  values := by rw [Predicate.valuesOf_append, h.values, h'.values, List.flatMap_append]
  columns := by rw [Predicate.columnsOf_append, h.columns, h'.columns, List.flatMap_append]
  rawTexts := by rw [Predicate.rawTextsOf_append, h.rawTexts, h'.rawTexts, List.append_nil]

/-- A group says what its members say, and so does the negation of a single one. -/
theorem Kept.ofChildren (h : Kept gs ps) (hsingle : kind = .not → ps.length ≤ 1) :
    Kept gs (ofChildren kind ps).toList := by
  rcases ps with _ | ⟨p, more⟩
  · cases kind <;> exact h
  · have hgroup : ∀ {q : Predicate}, q.values = Predicate.valuesOf (p :: more) →
        q.columns = Predicate.columnsOf (p :: more) →
        q.rawTexts = Predicate.rawTextsOf (p :: more) → Kept gs [q] := by
      intro q hvalues hcolumns hraw
      refine ⟨iff_of_false (by simp) fun hnil => ?_, ?_, ?_, ?_⟩
      · exact absurd (h.eq_nil_iff.2 hnil) (by simp)
      · rw [Predicate.valuesOf, Predicate.valuesOf, List.append_nil, hvalues, h.values]
      · rw [Predicate.columnsOf, Predicate.columnsOf, List.append_nil, hcolumns, h.columns]
      · rw [Predicate.rawTextsOf, Predicate.rawTextsOf, List.append_nil, hraw, h.rawTexts]
    cases kind with
    | not =>
        have hlength := hsingle rfl
        obtain rfl : more = [] := by simpa using hlength
        exact hgroup (List.append_nil _).symm (List.append_nil _).symm (List.append_nil _).symm
    | _ => exact hgroup rfl rfl rfl

/-! ## Leaves are kept -/

/-- What a field of a node holds to compare with. -/
def operandsIn (f : Filter) : Slot → List Json
  | .value => f.value.toList
  | .values => f.values.getD []
  | .lower => f.lower.toList
  | .upper => f.upper.toList
  | .type | .column | .children => []

/-- A node without foreign fields has its operands in the fields of its kind. -/
theorem operands_eq (h : f.foreign? kind.shape = .none) :
    f.operands = kind.slots.flatMap f.operandsIn := by
  have habsent : ∀ slot, slot ∉ kind.slots → f.operandsIn slot = [] := by
    intro slot hslot
    have hhas : ¬f.has slot = true := fun hhas => hslot (mem_slots_of_foreign? h hhas)
    cases slot <;> simp_all [has, operandsIn]
  have hall : f.operands =
      ([.value, .values, .lower, .upper] : List Slot).flatMap f.operandsIn := by
    simp [operands, operandsIn]
  have hothers : f.operandsIn .type = [] ∧ f.operandsIn .column = [] ∧
      f.operandsIn .children = [] := ⟨rfl, rfl, rfl⟩
  rw [hall]
  cases kind <;> simp [Kind.slots] at habsent ⊢ <;> simp [habsent, hothers]

/-- A column that was read is the one that is given. -/
theorem column_of_columnOf {name : Identifier} (h : f.columnOf = .ok name) :
    f.column.toList.map Identifier.ofText = [name] := by
  rw [columnOf] at h
  split at h
  · rename_i column hcolumn
    obtain ⟨-, h⟩ := guard_eq_ok.1 h
    rw [hcolumn]
    exact congrArg ([·]) (Except.ok.inj h)
  · exact absurd h (by simp)

/-- An operand that was read is the one that is given. -/
theorem operands_of_required {key : String} {j? : Option Json} {v : Value}
    (h : required key j? = .ok v) : j?.toList.map Value.ofJson = [v] := by
  cases j? with
  | none => exact absurd h (by simp [required])
  | some j => exact congrArg ([·]) (Except.ok.inj h)

/-- Operands that were read are those that are given, one at least. -/
theorem operands_of_valuesOf {vs : List Value} (h : f.valuesOf = .ok vs) :
    (f.values.getD []).map Value.ofJson = vs ∧ vs ≠ [] := by
  rw [valuesOf] at h
  split at h
  · rename_i j js hvalues
    obtain rfl := Except.ok.inj h
    rw [hvalues]
    exact ⟨rfl, List.cons_ne_nil _ _⟩
  · exact absurd h (by simp)

/-- A leaf keeps its operands and its column in the predicate that it becomes. -/
theorem kept_leaf (hkind : Kind.ofType? f.type = some kind)
    (hforeign : f.foreign? kind.shape = .none) {p : Predicate} (h : f.leaf kind = .ok p) :
    Kept [f] [p] := by
  have hoperands := operands_eq hforeign
  have hrefs : f.columnRefs = (f.column.toList.map Identifier.ofText).flatMap
      (List.replicate (if kind = .between then 2 else 1)) := by
    simp only [columnRefs, type_eq_between_iff hkind, List.flatMap_map]
  have hkept : p.values = f.operands.map Value.ofJson → p.columns = f.columnRefs →
      p.rawTexts = [] → Kept [f] [p] := by
    intro hvalues hcolumns hraw
    refine ⟨iff_of_false (List.cons_ne_nil _ _) (List.cons_ne_nil _ _), ?_, ?_, ?_⟩
    · rw [Predicate.valuesOf, Predicate.valuesOf, hvalues, List.flatMap_singleton, List.append_nil]
    · rw [Predicate.columnsOf, Predicate.columnsOf, hcolumns, List.flatMap_singleton,
        List.append_nil]
    · rw [Predicate.rawTextsOf, Predicate.rawTextsOf, hraw, List.append_nil]
  cases kind
  case compare | notLike =>
    obtain ⟨name, hname, h⟩ := bind_eq_ok.1 h
    obtain ⟨v, hv, h⟩ := bind_eq_ok.1 h
    obtain rfl := pure_eq_ok.1 h
    refine hkept ?_ (by rw [hrefs, column_of_columnOf hname]; rfl) rfl
    simp only [hoperands, Kind.slots, operandsIn, List.flatMap_cons, List.flatMap_nil,
      List.nil_append, List.append_nil, operands_of_required hv]
    rfl
  case oneOf negated =>
    obtain ⟨name, hname, h⟩ := bind_eq_ok.1 h
    obtain ⟨vs, hvs, h⟩ := bind_eq_ok.1 h
    obtain ⟨hvalues, hne⟩ := operands_of_valuesOf hvs
    -- the raw fragments for an empty list are not reached
    obtain rfl : p = .oneOf name vs negated := by
      rw [← pure_eq_ok.1 h]
      cases negated <;> simp [Predicate.notAmong, Predicate.among, hne]
    refine hkept ?_ (by rw [hrefs, column_of_columnOf hname]; rfl) rfl
    simp only [hoperands, Kind.slots, operandsIn, List.flatMap_cons, List.flatMap_nil,
      List.nil_append, List.append_nil, hvalues]
    rfl
  case between =>
    obtain ⟨name, hname, h⟩ := bind_eq_ok.1 h
    obtain ⟨low, hlow, h⟩ := bind_eq_ok.1 h
    obtain ⟨high, hhigh, h⟩ := bind_eq_ok.1 h
    obtain rfl := pure_eq_ok.1 h
    refine hkept ?_ (by rw [hrefs, column_of_columnOf hname]; rfl) rfl
    simp only [hoperands, Kind.slots, operandsIn, List.flatMap_cons, List.flatMap_nil,
      List.nil_append, List.append_nil, List.map_append, operands_of_required hlow,
      operands_of_required hhigh]
    rfl
  case nullTest negated =>
    obtain ⟨name, hname, h⟩ := bind_eq_ok.1 h
    obtain rfl := pure_eq_ok.1 h
    refine hkept ?_ (by rw [hrefs, column_of_columnOf hname]; rfl) rfl
    rw [hoperands]
    rfl
  case and | or | not => exact absurd h (by simp [leaf])

/-! ## Trees -/

/-- A child has at most one predicate. -/
theorem length_predicatesFrom_le {path : List Nat} {place : Nat}
    (h : predicatesFrom path place fs = .ok ps) : ps.length ≤ fs.length := by
  induction fs generalizing place ps with
  | nil =>
      obtain rfl := Except.ok.inj h
      exact Nat.le_refl _
  | cons f rest ih =>
      obtain ⟨p?, -, h⟩ := bind_eq_ok.1 h
      obtain ⟨qs, hqs, h⟩ := bind_eq_ok.1 h
      obtain rfl := pure_eq_ok.1 h
      have hrest := ih hqs
      have hfirst : p?.toList.length ≤ 1 := by cases p? <;> simp
      rw [List.length_append, List.length_cons]
      omega

/-- A node says what its leaves say if its children do. -/
theorem kept_node {path : List Nat} {p? : Option Predicate}
    (hchildren : ∀ ps, predicatesFrom path 0 f.children = .ok ps →
      Kept (f.children.flatMap leaves) ps)
    (h : predicateAt path f = .ok p?) : Kept f.leaves p?.toList := by
  by_cases htyped : f.type = ""
  · rw [predicateAt_untyped path htyped] at h
    obtain rfl := Except.ok.inj h
    rw [leaves_untyped htyped]
    exact .nil
  · obtain ⟨kind, hkind, hshape, hcase⟩ := predicateAt_eq_ok (by simpa using htyped) h
    rw [leaves_typed htyped, isLeaf_eq hkind]
    rcases hcase with ⟨hparent, ps, hps, rfl⟩ | ⟨p, hp, rfl⟩
    · have hleaf : ([.and, .or, .not] : List Kind).contains kind = true := by
        simpa using hparent
      rw [hleaf]
      refine (hchildren ps hps).ofChildren fun hnot => ?_
      subst hnot
      obtain ⟨child, hchild⟩ := exists_child hshape
      rw [hchild] at hps
      exact length_predicatesFrom_le hps
    · have hleaf : ([.and, .or, .not] : List Kind).contains kind = false ∧
          .children ∉ kind.slots := by
        cases kind
        case and | or | not => exact absurd hp (by simp [leaf])
        all_goals simp [Kind.slots]
      rw [hleaf.1, children_eq_nil hshape hleaf.2]
      exact kept_leaf hkind (foreign?_of_shapeFault? hshape) hp

mutual

/-- **The predicate of a node says what its leaves say.** -/
theorem kept_predicateAt : ∀ (f : Filter) {path : List Nat} {p? : Option Predicate},
    predicateAt path f = .ok p? → Kept f.leaves p?.toList
  | ⟨_, _, _, _, _, _, children⟩, _, _, h =>
      kept_node (fun _ => kept_predicatesFrom children) h

/-- Children keep the operands and the columns of their leaves. -/
theorem kept_predicatesFrom : ∀ (fs : List Filter) {path : List Nat} {place : Nat}
    {ps : List Predicate}, predicatesFrom path place fs = .ok ps → Kept (fs.flatMap leaves) ps
  | [], _, _, _, h => by
      obtain rfl := Except.ok.inj h
      exact .nil
  | f :: rest, _, _, _, h => by
      obtain ⟨p?, hp, h⟩ := bind_eq_ok.1 h
      obtain ⟨qs, hqs, h⟩ := bind_eq_ok.1 h
      obtain rfl := pure_eq_ok.1 h
      rw [List.flatMap_cons]
      exact (kept_predicateAt f hp).append (kept_predicatesFrom rest hqs)

end

/-- The leaves of a filter are its live nodes of a kind without children. -/
theorem mem_leaves_iff {g : Filter} :
    g ∈ f.leaves ↔ g.isLeaf = true ∧ ∃ path, f.Live path g := by
  rw [leaves, List.mem_filter, List.mem_map, and_comm]
  refine and_congr_right' ⟨?_, ?_⟩
  · rintro ⟨⟨path, _⟩, hmem, rfl⟩
    exact ⟨path, (mem_nodes_iff f).1 hmem⟩
  · rintro ⟨path, hlive⟩
    exact ⟨(path, g), (mem_nodes_iff f).2 hlive, rfl⟩

/-- **A filter loses nothing on its way to SQL.**  It has no predicate just if no live node is
a leaf.  Else the SQL of the predicate binds, under every dialect, the operands of the leaves
in document order, and is written with words of SQL, the columns of the leaves in this order
and a place for each operand.  Where the quote character has no other use, a reader finds these
columns in the SQL. -/
theorem toPredicate_keeps {p? : Option Predicate} (h : f.toPredicate = .ok p?) :
    (p? = .none ↔ ∀ path g, f.Live path g → g.isLeaf = false) ∧
      ∀ p, p? = some p →
        (∀ d, (p.toSql d).params = f.leaves.flatMap fun g => g.operands.map Value.ofJson) ∧
          (∃ chunks : List Chunk,
            (∀ d, p.toSql d = Template.emit (chunks.map (Chunk.piece d.quote)) d.placeholder) ∧
            Chunk.values chunks = (f.leaves.flatMap fun g => g.operands.map Value.ofJson) ∧
            Chunk.columns chunks = f.leaves.flatMap columnRefs ∧
            ∀ s, .word s ∈ chunks → s ∈ Chunk.vocabulary) ∧
          ∀ d, d.Legible → Identifier.namesIn d.quote (p.toSql d).sql.toList =
            (f.leaves.flatMap columnRefs).map fun name => name.parts.map String.toList := by
  have hkept := kept_predicateAt f (mapError_eq_ok.1 h)
  refine ⟨?_, fun p hp => ?_⟩
  · have hnone : p? = .none ↔ f.leaves = [] := by
      rw [← hkept.eq_nil_iff]
      cases p? <;> simp
    rw [hnone, List.eq_nil_iff_forall_not_mem]
    simp only [mem_leaves_iff, not_and, not_exists, ← Bool.not_eq_true]
    exact ⟨fun hnot path g hlive hleaf => hnot g hleaf path hlive,
      fun hnot g hleaf path hlive => hnot path g hlive hleaf⟩
  · subst hp
    have hvalues : p.values = f.leaves.flatMap fun g => g.operands.map Value.ofJson :=
      (List.append_nil p.values).symm.trans hkept.values
    have hcolumns : p.columns = f.leaves.flatMap columnRefs :=
      (List.append_nil p.columns).symm.trans hkept.columns
    have hraw : p.rawTexts = [] := (List.append_nil p.rawTexts).symm.trans hkept.rawTexts
    have hfault := Predicate.fault?_of_rawTexts p hraw
    refine ⟨fun d => ?_, ⟨p.chunks, fun d => ?_, ?_, ?_, fun _ => Predicate.mem_vocabulary_of_mem_chunks hraw⟩,
      fun d hd => ?_⟩
    · rw [Predicate.params_toSql hfault, hvalues]
    · rw [Predicate.toSql_of_rawTexts hraw, Predicate.template_eq_map]
    · rw [Predicate.values_chunks hfault, hvalues]
    · rw [Predicate.columns_chunks, hcolumns]
    · rw [Predicate.namesIn_toSql hraw hd, hcolumns]

/-- A range and a list around an untyped node with a test below it. -/
theorem toPredicate_keeps_nested :
    let f : Filter := .node "and" [
      .node "or" [.between "t.a" (.string "x") .null, .node "" [.compare "eq" "c" .null]],
      .node "not" [.list "in" "b" [.bool true, .string "y"]]]
    ∃ p, f.toPredicate = .ok (some p) ∧
      (∀ d, (p.toSql d).params = [.text "x", .null, .bool true, .text "y"]) ∧
      Identifier.namesIn Dialect.mysql.quote (p.toSql Dialect.mysql).sql.toList =
        [[['t'], ['a']], [['t'], ['a']], [['b']]] := by
  intro f
  have hp : f.toPredicate = .ok (some (.and [
      .or [.between (.ofText "t.a") (.text "x") .null],
      .not (.oneOf (.ofText "b") [.bool true, .text "y"] false)])) := by rfl
  obtain ⟨hparams, -, hread⟩ := (toPredicate_keeps hp).2 _ rfl
  exact ⟨_, hp, hparams, hread _ (Dialect.legible_presets _ (by simp))⟩

end Filter

end BoundSql
