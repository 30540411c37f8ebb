/-!
# Runs of characters

A run of characters that have a property is as long as it can be, where what follows does
not have the property.
-/

namespace BoundSql.Text

variable {p : Char → Bool} {rest : List Char}

/-- What follows and does not have the property is not looked at. -/
theorem takeWhile_append (h : rest.head?.any p = false) (cs : List Char) :
    (cs ++ rest).takeWhile p = cs.takeWhile p := by
  induction cs with
  | nil =>
      cases rest with
      | nil => rfl
      | cons c rest =>
          have hc : p c = false := by simpa using h
          simp [hc]
  | cons c cs ih => rw [List.cons_append, List.takeWhile_cons, List.takeWhile_cons, ih]

/-- What does not belong to a run is not dropped with it. -/
theorem dropWhile_append (h : rest.head?.any p = false) (cs : List Char) :
    (cs ++ rest).dropWhile p = cs.dropWhile p ++ rest := by
  induction cs with
  | nil =>
      cases rest with
      | nil => rfl
      | cons c rest =>
          have hc : p c = false := by simpa using h
          simp [hc]
  | cons c cs ih =>
      rw [List.cons_append, List.dropWhile_cons, List.dropWhile_cons]
      split
      · exact ih
      · rfl

/-- A run is all of itself. -/
theorem takeWhile_run {run : List Char} (hrun : run.all p = true)
    (h : rest.head?.any p = false) : (run ++ rest).takeWhile p = run := by
  have hnone := takeWhile_append h []
  rw [List.nil_append, List.takeWhile_nil] at hnone
  rw [List.takeWhile_append_of_pos (List.all_eq_true.1 hrun), hnone, List.append_nil]

/-- A run is dropped up to where it ends. -/
theorem dropWhile_run {run : List Char} (hrun : run.all p = true)
    (h : rest.head?.any p = false) : (run ++ rest).dropWhile p = rest := by
  have hall := dropWhile_append h []
  rw [List.nil_append, List.dropWhile_nil, List.nil_append] at hall
  rw [List.dropWhile_append_of_pos (List.all_eq_true.1 hrun), hall]

/-- What follows a run does not have the property. -/
theorem head?_dropWhile (cs : List Char) : (cs.dropWhile p).head?.any p = false := by
  induction cs with
  | nil => rfl
  | cons c cs ih =>
      rw [List.dropWhile_cons]
      split
      · exact ih
      · rename_i hc
        simpa using hc

/-- A text is a run and what follows it. -/
theorem exists_run (p : Char → Bool) (cs : List Char) : ∃ run rest : List Char,
    run.all p = true ∧ cs = run ++ rest ∧ rest.head?.any p = false :=
  ⟨cs.takeWhile p, cs.dropWhile p, List.all_takeWhile, List.takeWhile_append_dropWhile.symm,
    head?_dropWhile cs⟩

end BoundSql.Text
