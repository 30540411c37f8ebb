import BoundSql.Proofs.Predicate.Markers

/-!
# What a condition resolves to

A condition resolves to its predicate if this has content, and then the predicate was
checked; if it has none, the condition resolves to nothing and no check is made
(`Condition.resolve_eq_ok`).
-/

namespace BoundSql

namespace Condition

variable {clause : String} {c : Condition} {p : Predicate} {r? : Option Predicate}

/-- A condition resolves to its predicate if that has content and no fault, and to none without
content. -/
theorem resolve_eq_ok : c.resolve clause = .ok r? ↔
    ∃ p?, c.predicate? clause = .ok p? ∧ p?.filter (!·.isEmpty) = r? ∧
      ∀ p ∈ r?, p.fault? = none := by
  rw [resolve, bind_eq_ok]
  refine exists_congr fun p? => and_congr_right' ?_
  cases p? with
  | none =>
      rw [pure_eq_ok]
      refine (and_iff_left_of_imp ?_).symm
      rintro rfl p hp
      exact absurd hp (by simp)
  | some p =>
      simp only
      cases hempty : p.isEmpty with
      | true =>
          rw [if_pos rfl, pure_eq_ok, Option.filter_some, hempty]
          refine (and_iff_left_of_imp ?_).symm
          rintro rfl q hq
          exact absurd hq (by simp)
      | false =>
          rw [if_neg Bool.false_ne_true, bind_unit_eq_ok, mapError_eq_ok, Predicate.validate_eq_ok,
            pure_eq_ok, Option.filter_some, hempty, and_comm]
          refine and_congr_right ?_
          rintro rfl
          simp

/-- A predicate that is resolved to was checked. -/
theorem fault?_of_resolve (h : c.resolve clause = .ok (some p)) : p.fault? = none := by
  obtain ⟨_, -, -, hfault⟩ := resolve_eq_ok.1 h
  exact hfault p rfl

/-- A predicate that is resolved to has content. -/
theorem isEmpty_of_resolve (h : c.resolve clause = .ok (some p)) : p.isEmpty = false := by
  obtain ⟨p?, -, hfilter, -⟩ := resolve_eq_ok.1 h
  simpa using (Option.filter_eq_some_iff.1 hfilter).2

end Condition

end BoundSql
