import BoundSql.Identifier
import BoundSql.Template.Named

/-!
# Accepted names

Faults are looked for in the name with dots between its parts, and this finds just what is
wrong with a part: a name is accepted if and only if no part is empty or has a NUL character
(`Identifier.validate_eq_ok`).  Every name that can be a named marker is accepted.
-/

namespace BoundSql

namespace Identifier

/-- A character of a dotted name that is no dot stands in one of the parts. -/
theorem mem_intercalate {c : Char} (hc : c ≠ '.') (parts : List String) :
    c ∈ (".".intercalate parts).toList ↔ ∃ part ∈ parts, c ∈ part.toList := by
  induction parts with
  | nil => simp
  | cons part rest ih =>
      cases rest with
      | nil => simp
      | cons next more =>
          rw [String.intercalate_cons_cons, String.toList_append, String.toList_append,
            List.mem_append, List.mem_append, ih]
          simp [hc]

/-- Of several parts the joined name has a dot. -/
theorem dot_mem_intercalate (part next : String) (more : List String) :
    '.' ∈ (".".intercalate (part :: next :: more)).toList := by
  rw [String.intercalate_cons_cons]
  simp

/-- A dotted name is empty if its only part is. -/
theorem intercalate_eq_empty {parts : List String} (hne : parts ≠ []) :
    ".".intercalate parts = "" ↔ parts = [""] := by
  rcases parts with _ | ⟨part, _ | ⟨next, more⟩⟩
  · exact absurd rfl hne
  · rw [String.intercalate_singleton]
    simp
  · have hdot := dot_mem_intercalate part next more
    constructor
    · intro h
      rw [h] at hdot
      exact absurd hdot (by simp)
    · exact fun h => absurd h (by simp)

/-- An identifier has no fault if neither it nor a part of it is empty and no null character is in
it. -/
theorem fault?_eq_none {i : Identifier} :
    i.fault? = none ↔ i.name ≠ "" ∧ '\x00' ∉ i.name.toList ∧ "" ∉ i.parts := by
  by_cases hname : i.name = ""
  · simp [fault?, hname]
  · by_cases hnul : '\x00' ∈ i.name.toList <;> by_cases hempty : "" ∈ i.parts <;>
      simp [fault?, hname, hnul, hempty]

/-- **What is accepted:** no part is empty or has a NUL character. -/
theorem validate_eq_ok {i : Identifier} :
    i.validate = .ok () ↔ ∀ part ∈ i.parts, part ≠ "" ∧ '\x00' ∉ part.toList := by
  have hvalidate : i.validate = .ok () ↔ i.fault? = none := by
    rw [validate]
    cases i.fault? <;> simp
  rw [hvalidate, fault?_eq_none, name, mem_intercalate (by decide)]
  constructor
  · rintro ⟨-, hnul, hempty⟩ part hpart
    exact ⟨fun h => hempty (h ▸ hpart), fun h => hnul ⟨part, hpart, h⟩⟩
  · intro h
    have hempty : "" ∉ i.parts := fun hmem => (h "" hmem).1 rfl
    refine ⟨fun hname => hempty ?_, fun ⟨part, hpart, hnul⟩ => (h part hpart).2 hnul, hempty⟩
    rw [(intercalate_eq_empty i.parts_ne_nil).1 hname]
    exact List.mem_singleton_self ""

/-- A name that can be a named marker has one part, of letters, digits and underscores. -/
theorem validate_of_isName {i : Identifier} (h : Named.isName i.name = true) :
    i.validate = .ok () := by
  have hcharacters : i.name ≠ "" ∧ ∀ c ∈ i.name.toList, Named.inName c = true := by
    rw [Named.isName] at h
    split at h
    · exact absurd h Bool.false_ne_true
    · rename_i c rest hname
      obtain ⟨hc, hrest⟩ := Bool.and_eq_true_iff.1 h
      refine ⟨fun hempty => ?_, ?_⟩
      · rw [hempty] at hname
        exact absurd hname (by simp)
      · rw [hname]
        exact List.forall_mem_cons.2
          ⟨Named.inName_of_startsName hc, List.all_eq_true.1 hrest⟩
  obtain ⟨hne, hall⟩ := hcharacters
  have hsingle : ∃ part, i.parts = [part] := by
    rcases hparts : i.parts with _ | ⟨part, _ | ⟨next, more⟩⟩
    · exact absurd hparts i.parts_ne_nil
    · exact ⟨part, rfl⟩
    · have hdot := dot_mem_intercalate part next more
      rw [← hparts] at hdot
      exact absurd (hall '.' hdot) (by decide)
  obtain ⟨part, hparts⟩ := hsingle
  have hname : i.name = part := by rw [name, hparts, String.intercalate_singleton]
  rw [hname] at hne hall
  rw [validate_eq_ok, hparts]
  refine List.forall_mem_singleton.2 ⟨hne, fun hnul => ?_⟩
  exact absurd (hall _ hnul) (by decide)

end Identifier

end BoundSql
