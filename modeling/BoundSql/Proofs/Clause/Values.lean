import BoundSql.Proofs.Clause.Resolution
import BoundSql.Proofs.ConditionText.Rendering
import BoundSql.Proofs.Filter.Content

/-!
# Values of a condition

Each of the five forms of a condition has values: those of a raw fragment, those of a tree from
left to right, those of a map in key order, the literals of a text and the operands of a filter
in document order.  A condition that is accepted binds them all, in this order, when what it
resolves to is written (`Condition.resolve_keeps_values`).  A value for a blank raw fragment
has no place to go and is reported, with one exception: a tree without content is dropped
before it is checked, and the values in it are lost (`Condition.resolve_loses_values`).
-/

namespace BoundSql

namespace Predicate

mutual

/-- The raw fragments with their values, from left to right. -/
def fragments : Predicate → List (String × List Value)
  | .and members => fragmentsOf members
  | .or members => fragmentsOf members
  | .not body => body.fragments
  | .raw sql values => [(sql, values)]
  | .compare .. | .nullTest .. | .oneOf .. => []

def fragmentsOf : List Predicate → List (String × List Value)
  | [] => []
  | p :: rest => p.fragments ++ fragmentsOf rest

end

variable {sql : String} {values : List Value}

mutual

/-- In a checked tree each fragment has a value for every marker. -/
theorem count_of_mem_fragments : ∀ p : Predicate, p.fault? = none → (sql, values) ∈ p.fragments →
    Marker.count sql = values.length
  | .and members, hfault, h => count_of_mem_fragmentsOf members hfault h
  | .or members, hfault, h => count_of_mem_fragmentsOf members hfault h
  | .not body, hfault, h => count_of_mem_fragments body hfault h
  | .compare .., _, h => absurd h List.not_mem_nil
  | .nullTest .., _, h => absurd h List.not_mem_nil
  | .oneOf .., _, h => absurd h List.not_mem_nil
  | .raw .., hfault, h => by
      obtain ⟨rfl, rfl⟩ := Prod.mk.inj (List.mem_singleton.1 h)
      exact count_of_rawFault? hfault

/-- In members without a fault every fragment has a value for each marker. -/
theorem count_of_mem_fragmentsOf : ∀ ps : List Predicate, firstFault? ps = none →
    (sql, values) ∈ fragmentsOf ps → Marker.count sql = values.length
  | [], _, h => absurd h List.not_mem_nil
  | p :: rest, hfault, h => by
      obtain ⟨hp, hrest⟩ := firstFault?_cons.1 hfault
      rcases List.mem_append.1 h with h | h
      · exact count_of_mem_fragments p hp h
      · exact count_of_mem_fragmentsOf rest hrest h

end

/-- A tree with values for a blank fragment is at fault. -/
theorem fault?_ne_none_of_blank {p : Predicate} (h : (sql, values) ∈ p.fragments)
    (hblank : Text.allBlank sql = true) (hvalues : values ≠ []) : p.fault? ≠ none := by
  intro hfault
  have hcount := count_of_mem_fragments p hfault h
  rw [count_of_allBlank hblank] at hcount
  exact hvalues (List.eq_nil_of_length_eq_zero hcount.symm)

/-- Predicates of one value each have these values in order. -/
theorem valuesOf_map {α : Type} {f : α → Predicate} {v : α → Value}
    (h : ∀ a, (f a).values = [v a]) (as : List α) : valuesOf (as.map f) = as.map v := by
  induction as with
  | nil => rfl
  | cons a as ih => rw [List.map_cons, valuesOf, h, ih, List.map_cons, List.singleton_append]

/-- Predicates without raw SQL have none together. -/
theorem rawTextsOf_map {α : Type} {f : α → Predicate} (h : ∀ a, (f a).rawTexts = [])
    (as : List α) : rawTextsOf (as.map f) = [] := by
  induction as with
  | nil => rfl
  | cons a as ih => rw [List.map_cons, rawTextsOf, h, ih, List.nil_append]

/-- Equalities bind the values of the map, and have no raw fragment. -/
theorem values_ofEqualities (m : ValueMap) :
    valuesOf (ofEqualities m).toList = m.entries.map Prod.snd ∧
      rawTextsOf (ofEqualities m).toList = [] := by
  rw [ofEqualities]
  generalize hps : List.map _ m.entries = ps
  have hvalues : valuesOf ps = m.entries.map Prod.snd := by
    rw [← hps]
    exact valuesOf_map (fun _ => rfl) m.entries
  have hraw : rawTextsOf ps = [] := by
    rw [← hps]
    exact rawTextsOf_map (fun _ => rfl) m.entries
  rcases ps with _ | ⟨only, _ | ⟨next, more⟩⟩
  · exact ⟨hvalues, hraw⟩
  · exact ⟨hvalues, hraw⟩
  · exact ⟨(List.append_nil _).trans hvalues, (List.append_nil _).trans hraw⟩

end Predicate

namespace Filter

variable {f g : Filter}

/-- The operands of all nodes, in document order. -/
def operandValues (f : Filter) : List Value :=
  f.nodes.flatMap fun n => n.2.operands.map Value.ofJson

/-- A group without a fault has no operands. -/
theorem operands_of_group (htyped : g.type ≠ "") (hgroup : g.isLeaf = false)
    (hfault : g.fault? = .none) : g.operands = [] := by
  obtain ⟨kind, hkind, hslots⟩ : ∃ kind, Kind.ofType? g.type = some kind ∧
      kind.slots = [.type, .children] := by
    have htype : g.type = "and" ∨ g.type = "or" ∨ g.type = "not" := by
      rw [isLeaf, Bool.not_eq_false', List.contains_iff_mem] at hgroup
      simpa [htyped] using hgroup
    rcases htype with htype | htype | htype <;> rw [htype]
    · exact ⟨.and, rfl, rfl⟩
    · exact ⟨.or, rfl, rfl⟩
    · exact ⟨.not, rfl, rfl⟩
  have habsent : ∀ slot, slot ∉ kind.slots → g.has slot = false := by
    intro slot hslot
    by_contra hhas
    exact fault?_ne_none (.foreignField hkind hslot (by simpa using hhas)) hfault
  have hvalue := habsent .value (by simp [hslots])
  have hvalues := habsent .values (by simp [hslots])
  have hlower := habsent .lower (by simp [hslots])
  have hupper := habsent .upper (by simp [hslots])
  simp only [has, Option.isSome_eq_false_iff, Option.isNone_iff_eq_none] at hvalue hvalues
  simp only [has, Option.isSome_eq_false_iff, Option.isNone_iff_eq_none] at hlower hupper
  simp [operands, hvalue, hvalues, hlower, hupper]

/-- The nodes of an accepted filter have no fault. -/
theorem fault?_of_mem_nodes {p? : Option Predicate} (h : f.toPredicate = .ok p?)
    {n : List Nat × Filter} (hn : n ∈ f.nodes) : n.2.fault? = .none := by
  have hfirst : firstFault? f.nodes = .none := by
    cases hfirst : firstFault? f.nodes with
    | none => rfl
    | some l =>
        have herror := toPredicate_eq_error.2 ⟨l, hfirst, rfl⟩
        exact absurd (h.symm.trans herror) (by simp)
  simpa using List.findSome?_eq_none_iff.1 hfirst n hn

/-- Where every node has a type, the operands are those of the leaves. -/
theorem operandValues_eq {p? : Option Predicate} (h : f.toPredicate = .ok p?)
    (htyped : ∀ path g, f.Live path g → g.type ≠ "") :
    f.operandValues = f.leaves.flatMap fun g => g.operands.map Value.ofJson := by
  have hnodes : ∀ n ∈ f.nodes, n.2.isLeaf = false → n.2.operands = [] := fun n hn hleaf =>
    operands_of_group (htyped n.1 n.2 ((mem_nodes_iff f).1 hn)) hleaf (fault?_of_mem_nodes h hn)
  rw [operandValues, leaves]
  generalize f.nodes = ns at hnodes
  induction ns with
  | nil => rfl
  | cons n rest ih =>
      obtain ⟨hn, hrest⟩ := List.forall_mem_cons.1 hnodes
      rw [List.flatMap_cons, ih hrest, List.map_cons, List.filter_cons]
      split
      · rfl
      · rename_i hleaf
        rw [hn (by simpa using hleaf)]
        rfl

end Filter

namespace Condition

open ConditionText (Lexed literals)

/-- The values of a condition, from left to right. -/
def values : Condition → List Value
  | .raw _ values => values
  | .predicate p => p.values
  | .equalities m => m.entries.map Prod.snd
  | .text s => literals (Lexed.scan s).tokens
  | .filter f => f.operandValues

/-- Every node has a type, if the condition is a filter. -/
def Typed : Condition → Prop
  | .filter f => ∀ path g, f.Live path g → g.type ≠ ""
  | _ => True

/-- A tree without content has no values, if the condition is a tree. -/
def Tight : Condition → Prop
  | .predicate p => p.isEmpty = true → p.values = []
  | _ => True

variable {clause : String} {c : Condition}

/-- The predicate of a raw condition. -/
theorem predicate?_raw {sql : String} {values : List Value} {p? : Option Predicate}
    (h : (Condition.raw sql values).predicate? clause = .ok p?) :
    Text.allBlank sql = true ∧ values = [] ∧ p? = none ∨
      Text.allBlank sql = false ∧ p? = some (.raw sql values) := by
  rw [predicate?] at h
  split at h
  · rename_i hblank
    split at h
    · rename_i hvalues
      exact .inl ⟨hblank, List.isEmpty_iff.1 hvalues, (Except.ok.inj h).symm⟩
    · exact absurd h (by simp)
  · rename_i hblank
    exact .inr ⟨by simpa using hblank, (Except.ok.inj h).symm⟩

/-- **The predicate of a condition has its values.** -/
theorem values_of_predicate? (htyped : c.Typed) {p? : Option Predicate}
    (h : c.predicate? clause = .ok p?) : Predicate.valuesOf p?.toList = c.values := by
  cases c with
  | raw sql values =>
      rcases predicate?_raw h with ⟨-, rfl, rfl⟩ | ⟨-, rfl⟩
      · rfl
      · exact List.append_nil values
  | predicate p =>
      obtain rfl := Except.ok.inj h
      exact List.append_nil p.values
  | equalities m =>
      obtain rfl := Except.ok.inj h
      exact (Predicate.values_ofEqualities m).1
  | text s =>
      obtain ⟨p, hp, rfl⟩ := map_eq_ok.1 h
      exact (List.append_nil p.values).trans (Predicate.values_ofText hp)
  | filter f =>
      have hkept := Filter.kept_predicateAt f (mapError_eq_ok.1 h)
      exact hkept.values.trans (Filter.operandValues_eq h htyped).symm

/-- Without content the predicate of a condition has no values. -/
theorem values_of_isEmpty (htight : c.Tight) {p : Predicate}
    (h : c.predicate? clause = .ok (some p)) (hempty : p.isEmpty = true) : p.values = [] := by
  have hstructured : p.rawTexts = [] → p.values = [] := fun hraw =>
    Predicate.values_eq_nil p hempty (Predicate.fault?_of_rawTexts p hraw)
  cases c with
  | raw sql values =>
      rcases predicate?_raw h with ⟨-, -, hnone⟩ | ⟨hblank, hsome⟩
      · exact absurd hnone (by simp)
      · obtain rfl := Option.some.inj hsome
        exact absurd (hblank.symm.trans hempty) Bool.false_ne_true
  | predicate q =>
      obtain rfl := Option.some.inj (Except.ok.inj h)
      exact htight hempty
  | equalities m =>
      have hraw := (Predicate.values_ofEqualities m).2
      rw [Except.ok.inj h] at hraw
      exact hstructured ((List.append_nil p.rawTexts).symm.trans hraw)
  | text s =>
      obtain ⟨q, hq, hsome⟩ := map_eq_ok.1 h
      obtain rfl := Option.some.inj hsome
      exact hstructured (Predicate.rawTexts_ofText hq)
  | filter f =>
      have hkept := Filter.kept_predicateAt f (mapError_eq_ok.1 h)
      exact hstructured ((List.append_nil p.rawTexts).symm.trans hkept.rawTexts)

/-- **An accepted condition loses no value.**  In whatever form it is given: where it resolves
to nothing it has no values, and else its values are the parameters of what it resolves to,
under every dialect; a tree without content must have none to begin with, and every node of a
filter a type.  Values for a blank raw fragment are reported, both of a raw condition and of a
fragment at any depth of a tree with content. -/
theorem resolve_keeps_values (clause : String) :
    (∀ (c : Condition) (r? : Option Predicate), c.Typed → c.Tight →
      c.resolve clause = .ok r? →
        (r? = none → c.values = []) ∧
          ∀ p, r? = some p → ∀ d, (p.toSql d).params = c.values) ∧
    (∀ (sql : String) (values : List Value), Text.allBlank sql = true → values ≠ [] →
      (Condition.raw sql values).resolve clause =
        .error (.validation s!"{clause}: empty fragment given {values.length} value(s)")) ∧
    ∀ (p : Predicate) (sql : String) (values : List Value), (sql, values) ∈ p.fragments →
      Text.allBlank sql = true → values ≠ [] → p.isEmpty = false →
        ∃ fault, p.fault? = some fault ∧
          (Condition.predicate p).resolve clause =
            .error (.validation s!"{clause}: {fault.message}") := by
  refine ⟨fun c r? htyped htight h => ?_, fun sql values hblank hvalues => ?_,
    fun p sql values hmem hblank hvalues hcontent => ?_⟩
  · obtain ⟨p?, hp, rfl, hfault⟩ := resolve_eq_ok.1 h
    have hkept := values_of_predicate? htyped hp
    cases p? with
    | none => exact ⟨fun _ => hkept.symm, fun p hp => absurd hp (by simp)⟩
    | some p =>
        rw [Option.toList_some, Predicate.valuesOf, Predicate.valuesOf, List.append_nil] at hkept
        rw [Option.filter_some] at hfault ⊢
        cases hempty : p.isEmpty with
        | true =>
            refine ⟨fun _ => ?_, fun q hq => absurd hq (by simp)⟩
            rw [← hkept, values_of_isEmpty htight hp hempty]
        | false =>
            refine ⟨fun hnone => absurd hnone (by simp), fun q hq d => ?_⟩
            obtain rfl := Option.some.inj hq
            rw [hempty] at hfault
            rw [Predicate.params_toSql (hfault p rfl), hkept]
  · rw [resolve, predicate?, if_pos hblank, if_neg (by simpa using hvalues)]
    rfl
  · obtain ⟨fault, hfault⟩ := Option.ne_none_iff_exists'.1
      (Predicate.fault?_ne_none_of_blank hmem hblank hvalues)
    refine ⟨fault, hfault, ?_⟩
    have hvalidate : p.validate = .error (.validation fault.message) := by
      rw [Predicate.validate, hfault]
    show (if p.isEmpty then pure none else do
      p.validate.mapError (SqlError.inContext clause)
      return some p) = _
    rw [if_neg (by simp [hcontent]), hvalidate]
    rfl

/-- A fragment with a marker in a string, beside one that is blank; and a value for a blank
fragment below a negation. -/
theorem resolve_keeps_values_nested :
    let p : Predicate := .or [.raw " " [], .not (.raw "a = ? OR b = '?'" [.int 1]),
      .oneOf (.single "c") [.null] false]
    let lost : Predicate := .or [.not (.raw "\t" [.int 2]), p]
    (∀ d, (p.toSql d).params = [.int 1, .null]) ∧
      ∃ fault, lost.fault? = some fault ∧ (Condition.predicate lost).resolve "HAVING" =
        .error (.validation s!"HAVING: {fault.message}") := by
  intro p lost
  obtain ⟨hkeeps, -, hreports⟩ := resolve_keeps_values "HAVING"
  have hresolve : (Condition.predicate p).resolve "HAVING" = .ok (some p) := rfl
  have hcontent : p.isEmpty = false := rfl
  refine ⟨?_, ?_⟩
  · refine (hkeeps (.predicate p) _ trivial (fun hempty => ?_) hresolve).2 p rfl
    exact absurd (hcontent.symm.trans hempty) Bool.false_ne_true
  · exact hreports lost "\t" [.int 2] List.mem_cons_self (by decide) (by simp) rfl

/-- **A tree without content is dropped with its values,** which a raw condition that is blank
reports. -/
theorem resolve_loses_values :
    (Condition.predicate (.raw " " [.int 1])).resolve "WHERE" = .ok none ∧
      (Condition.predicate (.and [.not (.raw " " [.int 1])])).resolve "WHERE" = .ok none ∧
      (Condition.predicate (.raw " " [.int 1])).values = [.int 1] ∧
      (Condition.raw " " [.int 1]).resolve "WHERE" =
        .error (.validation "WHERE: empty fragment given 1 value(s)") :=
  ⟨rfl, rfl, rfl, rfl⟩

end Condition

end BoundSql
