import BoundSql.Proofs.ConditionText.Rendering
import BoundSql.Proofs.Filter.Content
import BoundSql.Proofs.Filter.Writing
import BoundSql.Proofs.Predicate.Fragments

/-!
# Filters and condition text agree

The text of a filter is accepted as a predicate, and this is written as the predicate of the
filter.  The two need not be equal: a group of one child is a group in the one and the child
by itself in the other, and both are written as the child.
-/

namespace BoundSql

open ConditionText

/-! ## Written alike -/

namespace Predicate

/-- Two predicates that have content and are written alike in full. -/
structure Alike (p q : Predicate) : Prop where
  left : p.isEmpty = false
  right : q.isEmpty = false
  chunks : p.chunks = q.chunks

/-- A predicate with content is like itself. -/
theorem Alike.refl {p : Predicate} (h : p.isEmpty = false) : Alike p p := ⟨h, h, rfl⟩

variable {p q : Predicate} {ps qs : List Predicate}

/-- What is written alike is the same statement, if it has no raw fragment. -/
theorem Alike.toSql_eq (h : Alike p q) (hp : p.rawTexts = []) (hq : q.rawTexts = [])
    (d : Dialect) : p.toSql d = q.toSql d := by
  rw [toSql_of_rawTexts hp, toSql_of_rawTexts hq, template_eq_map, template_eq_map, h.chunks]

/-- Members that are alike one by one have the same sequences. -/
theorem chunksOf_alike (h : List.Forall₂ Alike ps qs) : chunksOf ps = chunksOf qs := by
  induction h with
  | nil => rfl
  | cons hp _ ih => rw [chunksOf, chunksOf, hp.left, hp.right, hp.chunks, ih]

/-- Members that are alike have content. -/
theorem allEmpty_alike (h : List.Forall₂ Alike ps qs) (hne : ps ≠ []) :
    allEmpty ps = false ∧ allEmpty qs = false := by
  cases h with
  | nil => exact absurd rfl hne
  | cons hp _ => simp [allEmpty, hp.left, hp.right]

/-- A group of members and a group of members that are written alike; of a single member
the group may be left out. -/
theorem alike_collapse {group : List Predicate → Predicate} {separator : String}
    (hempty : ∀ ps, (group ps).isEmpty = allEmpty ps)
    (hchunks : ∀ ps, (group ps).chunks = Chunk.group separator (chunksOf ps))
    (h : List.Forall₂ Alike ps qs) (hne : ps ≠ []) : Alike (collapse group ps) (group qs) := by
  have hgroup : Alike (group ps) (group qs) := by
    obtain ⟨hps, hqs⟩ := allEmpty_alike h hne
    refine ⟨(hempty ps).trans hps, (hempty qs).trans hqs, ?_⟩
    rw [hchunks, hchunks, chunksOf_alike h]
  cases h with
  | nil => exact absurd rfl hne
  | cons hp hmore =>
      cases hmore with
      | nil =>
          refine ⟨hp.left, hgroup.right, ?_⟩
          rw [hchunks, group_chunksOf_singleton _ hp.right]
          exact hp.chunks
      | cons hnext hrest => exact hgroup

/-- The negations of predicates that are alike are alike. -/
theorem Alike.not (h : Alike p q) : Alike (.not p) (.not q) := by
  refine ⟨h.left, h.right, ?_⟩
  rw [chunks_not, chunks_not, h.chunks]

end Predicate

open Predicate (Alike)

/-- A test has content. -/
theorem ConditionText.Test.isEmpty_predicate (t : Test) : t.predicate.isEmpty = false := by
  cases t with
  | compare left op right => rfl
  | like left negated pattern => cases negated <;> rfl
  | nullTest column negated => rfl
  | oneOf column negated first others => rfl
  | between column negated low high => cases negated <;> rfl

namespace Filter

variable {f : Filter} {path : List Nat}

/-- The text of a leaf is that of its kind. -/
theorem conditionText_leaf {kind : Kind} {p : Predicate} (hkind : Kind.ofType? f.type = some kind)
    (h : f.leaf kind = .ok p) : f.conditionText = f.leafText kind := by
  obtain ⟨type, column, value, values, lower, upper, children⟩ := f
  have hkind : Kind.ofType? type = some kind := hkind
  rw [conditionText, hkind]
  cases kind with
  | and | or | not => exact absurd h (by simp [leaf])
  | _ => rfl

/-! ## The text of a filter -/

/-- The text of a filter writes a member that is rendered as a predicate. -/
structure Agrees (f : Filter) (u : Unary) (p : Predicate) : Prop where
  written : Written f.conditionText u.tokens
  depth : u.depth ≤ f.nesting
  alike : Alike u.predicate p

/-- The text of a leaf is read as its predicate. -/
theorem agrees_leaf (hf : f.NodeWritable) {kind : Kind} {p : Predicate}
    (hkind : Kind.ofType? f.type = some kind) (h : f.leaf kind = .ok p) :
    ∃ u, f.Agrees u p := by
  obtain ⟨t, ht, rfl⟩ := exists_test hf h
  refine ⟨.test t, ?_, Nat.zero_le _, .refl t.isEmpty_predicate⟩
  rw [conditionText_leaf hkind h]
  exact ht

/-- The texts of children write members that are rendered as predicates. -/
structure AllAgree (fs : List Filter) (us : List Unary) (ps : List Predicate) : Prop where
  written : List.Forall₂ (fun s u => Written s (Unary.tokens u)) (conditionTexts fs) us
  depth : ∀ u ∈ us, u.depth ≤ deepest fs
  alike : List.Forall₂ Alike (us.map Unary.predicate) ps

/-- One more node that agrees can stand in front of others that do. -/
theorem AllAgree.cons {fs : List Filter} {u : Unary} {us : List Unary} {p : Predicate}
    {ps : List Predicate} (h : f.Agrees u p) (hs : AllAgree fs us ps) :
    AllAgree (f :: fs) (u :: us) (p :: ps) := by
  refine ⟨.cons h.written hs.written, List.forall_mem_cons.2 ⟨?_, fun v hv => ?_⟩,
    .cons h.alike hs.alike⟩
  · exact h.depth.trans (Nat.le_max_left _ _)
  · exact (hs.depth v hv).trans (Nat.le_max_right _ _)

variable {us : List Unary} {ps : List Predicate}

/-- There is a member and a predicate for each child. -/
theorem AllAgree.exists_cons {child : Filter} {rest : List Filter}
    (hs : AllAgree (child :: rest) us ps) :
    ∃ u more p others, us = u :: more ∧ ps = p :: others := by
  obtain ⟨hwritten, -, halike⟩ := hs
  cases hwritten with
  | cons hfirst hmore =>
      cases halike with
      | cons hp hothers => exact ⟨_, _, _, _, rfl, rfl⟩

/-- A conjunction is written as its members with AND between. -/
theorem agrees_and (hkind : Kind.ofType? f.type = some .and) (hne : f.children ≠ [])
    (hs : AllAgree f.children us ps) : ∃ u p, ofChildren .and ps = some p ∧ f.Agrees u p := by
  obtain ⟨type, column, value, values, lower, upper, _ | ⟨child, rest⟩⟩ := f
  · exact absurd rfl hne
  have hkind : Kind.ofType? type = some .and := hkind
  obtain ⟨u, more, p, others, rfl, rfl⟩ := hs.exists_cons
  obtain ⟨hwritten, hdepth, halike⟩ := hs
  obtain ⟨hfirst, hmore⟩ := List.forall₂_cons.1 hwritten
  refine ⟨.group (.last (.ofList u more)), _, rfl, ?_, ?_, ?_⟩
  · rw [conditionText, hkind]
    exact (Conjunction.written_ofList hfirst hmore).parens
  · rw [nesting, hkind]
    exact Nat.succ_le_succ (Conjunction.depth_ofList u more hdepth)
  · have hpredicate : (Unary.group (.last (.ofList u more))).predicate =
        collapse .and ((u :: more).map Unary.predicate) := by
      rw [Unary.predicate, Disjunction.members, Conjunction.members_ofList]
      rfl
    rw [hpredicate]
    exact Predicate.alike_collapse (fun _ => rfl) Predicate.chunks_and halike (by simp)

/-- A disjunction is written as its members with OR between. -/
theorem agrees_or (hkind : Kind.ofType? f.type = some .or) (hne : f.children ≠ [])
    (hs : AllAgree f.children us ps) : ∃ u p, ofChildren .or ps = some p ∧ f.Agrees u p := by
  obtain ⟨type, column, value, values, lower, upper, _ | ⟨child, rest⟩⟩ := f
  · exact absurd rfl hne
  have hkind : Kind.ofType? type = some .or := hkind
  obtain ⟨u, more, p, others, rfl, rfl⟩ := hs.exists_cons
  obtain ⟨hwritten, hdepth, halike⟩ := hs
  obtain ⟨hfirst, hmore⟩ := List.forall₂_cons.1 hwritten
  refine ⟨.group (.ofList u more), _, rfl, ?_, ?_, ?_⟩
  · rw [conditionText, hkind]
    exact (Disjunction.written_ofList hfirst hmore).parens
  · rw [nesting, hkind]
    exact Nat.succ_le_succ (Disjunction.depth_ofList u more hdepth)
  · rw [Unary.predicate, Disjunction.members_ofList]
    exact Predicate.alike_collapse (fun _ => rfl) Predicate.chunks_or halike (by simp)

/-- A negation is written as NOT and its child in parentheses. -/
theorem agrees_not (hkind : Kind.ofType? f.type = some .not) {child : Filter}
    (hchild : f.children = [child]) (hs : AllAgree f.children us ps) :
    ∃ u p, ofChildren .not ps = some p ∧ f.Agrees u p := by
  obtain ⟨type, column, value, values, lower, upper, children⟩ := f
  obtain rfl : children = [child] := hchild
  have hkind : Kind.ofType? type = some .not := hkind
  obtain ⟨u, more, p, others, rfl, rfl⟩ := hs.exists_cons
  obtain ⟨hwritten, hdepth, halike⟩ := hs
  obtain ⟨hfirst, hmore⟩ := List.forall₂_cons.1 hwritten
  obtain rfl := List.forall₂_nil_left_iff.1 hmore
  refine ⟨.not (.group (.last (.last u))), _, rfl, ?_, ?_, ?_⟩
  · have htext : "NOT (" ++ " AND ".intercalate [child.conditionText] ++ ")" =
        "NOT" ++ " " ++ ("(" ++ child.conditionText ++ ")") := by
      rw [String.intercalate_singleton, ← String.append_assoc, ← String.append_assoc]
      rfl
    rw [conditionText, hkind, conditionTexts, conditionTexts, htext]
    exact (written_keyword .not).space hfirst.parens
  · rw [nesting, hkind]
    exact Nat.add_le_add_right (hdepth u List.mem_cons_self) 2
  · exact (List.forall₂_cons.1 halike).1.not

mutual

/-- The text of an accepted filter agrees with its predicate. -/
theorem exists_agrees : ∀ (f : Filter) (path : List Nat) {p? : Option Predicate}, f.Writable →
    predicateAt path f = .ok p? → ∃ u p, p? = some p ∧ f.Agrees u p
  | ⟨type, column, value, values, lower, upper, children⟩, path, p?, hf, h => by
      obtain ⟨hnode, hchildren⟩ := hf
      obtain ⟨kind, hkind, hshape, ⟨hgroup, ps, hps, rfl⟩ | ⟨p, hp, rfl⟩⟩ :=
        predicateAt_eq_ok hnode.typed h
      · obtain ⟨us, hs⟩ := exists_allAgree children path 0 hchildren hps
        rcases hgroup with rfl | rfl | rfl
        · exact agrees_and hkind (children_ne_nil hshape) hs
        · exact agrees_or hkind (children_ne_nil hshape) hs
        · obtain ⟨child, hchild⟩ := exists_child hshape
          exact agrees_not hkind hchild hs
      · obtain ⟨u, hu⟩ := agrees_leaf hnode hkind hp
        exact ⟨u, p, rfl, hu⟩

/-- The texts of children are read as their predicates, one by one. -/
theorem exists_allAgree : ∀ (fs : List Filter) (path : List Nat) (place : Nat)
    {ps : List Predicate}, AllWritable fs → predicatesFrom path place fs = .ok ps →
      ∃ us, AllAgree fs us ps
  | [], path, place, ps, _, h => by
      obtain rfl := Except.ok.inj h
      exact ⟨[], .nil, fun u hu => absurd hu List.not_mem_nil, .nil⟩
  | f :: rest, path, place, ps, hfs, h => by
      obtain ⟨hf, hrest⟩ := hfs
      obtain ⟨p?, hp, h⟩ := bind_eq_ok.1 h
      obtain ⟨others, hothers, h⟩ := bind_eq_ok.1 h
      obtain rfl := pure_eq_ok.1 h
      obtain ⟨u, p, rfl, hu⟩ := exists_agrees f (path ++ [place]) hf hp
      obtain ⟨us, hus⟩ := exists_allAgree rest path (place + 1) hrest hothers
      exact ⟨u :: us, hus.cons hu⟩

end

/-- **Filters and condition text agree.**  A filter that has a predicate, without untyped
nodes, with names for columns and literals for operands, has one; its text, unless it nests
deeper than 63, is accepted as a predicate, and the two are the same statement under every
dialect. -/
theorem ofText_conditionText {f : Filter} {p? : Option Predicate} (hf : f.Writable)
    (hdepth : f.nesting ≤ 63) (h : f.toPredicate = .ok p?) :
    ∃ p q, p? = some p ∧ Predicate.ofText f.conditionText = .ok q ∧
      ∀ d : Dialect, q.toSql d = p.toSql d := by
  have hp := mapError_eq_ok.1 h
  obtain ⟨u, p, rfl, hu⟩ := exists_agrees f [] hf hp
  have hraw : p.rawTexts = [] :=
    (List.append_nil p.rawTexts).symm.trans (kept_predicateAt f hp).rawTexts
  refine ⟨p, u.predicate, rfl, Predicate.ofText_eq_ok.2 ?_, fun d => ?_⟩
  · exact ⟨.last (.last u), hu.written.derives, hu.depth.trans hdepth, rfl⟩
  · exact hu.alike.toSql_eq u.rawTexts_predicate hraw d

/-- A quote in a string, a negative number, null, and groups of one child. -/
theorem ofText_conditionText_nested :
    let f : Filter := .node "and" [
      .compare "like" "t.name" (.string "it's"),
      .node "not" [.node "or" [
        .list "not_in" "_a1" [.number (.integer (-5) (by decide) (by decide)), .null]]]]
    f.conditionText = "(t.name LIKE 'it''s' AND NOT ((_a1 NOT IN (-5, NULL))))" ∧
      ∃ q, Predicate.ofText f.conditionText = .ok q ∧
        (q.toSql .postgres).sql = "(\"t\".\"name\" LIKE $1 AND NOT (\"_a1\" NOT IN ($2, $3)))" ∧
        (q.toSql .postgres).params = [.text "it's", .int (-5), .null] := by
  intro f
  have hname : IsColumn "t.name" := by
    refine ⟨List.forall_mem_cons.2 ⟨⟨'t', [], rfl, rfl, rfl⟩, ?_⟩, by decide, by decide⟩
    exact List.forall_mem_singleton.2 ⟨'n', ['a', 'm', 'e'], rfl, rfl, rfl⟩
  have ha1 : IsColumn "_a1" :=
    ⟨List.forall_mem_singleton.2 ⟨'_', ['a', '1'], rfl, rfl, rfl⟩, by decide, by decide⟩
  have hnone : ∀ {P : Json → Prop}, ∀ j ∈ (Option.none : Option Json), P j := by simp
  have hgroup : ∀ {type : String} {children : List Filter}, type.isEmpty = false →
      AllWritable children → (node type children).Writable := by
    intro type children htype hchildren
    exact ⟨⟨htype, by simp, hnone, by simp, hnone, hnone⟩, hchildren⟩
  have hlike : (compare "like" "t.name" (.string "it's")).Writable := by
    refine ⟨⟨rfl, ?_, ?_, by simp, hnone, hnone⟩, trivial⟩
    · rintro _ ⟨⟩
      exact hname
    · rintro _ ⟨⟩
      trivial
  have hlist : (list "not_in" "_a1"
      [.number (.integer (-5) (by decide) (by decide)), .null]).Writable := by
    refine ⟨⟨rfl, ?_, hnone, ?_, hnone, hnone⟩, trivial⟩
    · rintro _ ⟨⟩
      exact ha1
    · rintro _ ⟨⟩
      have hminus : (-5 : Int) < 0x8000000000000000 := by decide
      exact List.forall_mem_cons.2 ⟨hminus, List.forall_mem_singleton.2 trivial⟩
  have hf : f.Writable :=
    hgroup rfl ⟨hlike, hgroup rfl ⟨hgroup rfl ⟨hlist, trivial⟩, trivial⟩, trivial⟩
  obtain ⟨p, q, hp, hq, hsame⟩ := ofText_conditionText hf (by decide) rfl
  obtain rfl := Option.some.inj hp
  refine ⟨by decide +kernel, q, hq, ?_, ?_⟩
  · rw [hsame]
    decide +kernel
  · rw [hsame]
    rfl

end Filter

end BoundSql
