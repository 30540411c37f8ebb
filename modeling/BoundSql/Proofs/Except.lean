/-!
# Computations that may fail

When a checked computation returned a result, so did each of its steps; when it failed, the
first of its steps that failed gave the error.
-/

namespace BoundSql

variable {ε ε' α β : Type}

/-- Two steps succeed if the first does and the second does with its result. -/
theorem bind_eq_ok {x : Except ε α} {f : α → Except ε β} {b : β} :
    (x >>= f) = .ok b ↔ ∃ a, x = .ok a ∧ f a = .ok b := by
  cases x with
  | error e => simp [bind, Except.bind]
  | ok a => simp [bind, Except.bind]

/-- A check and a step succeed if both do. -/
theorem bind_unit_eq_ok {x : Except ε Unit} {f : Unit → Except ε β} {b : β} :
    (x >>= f) = .ok b ↔ x = .ok () ∧ f () = .ok b :=
  bind_eq_ok.trans ⟨fun ⟨_, h⟩ => h, fun h => ⟨(), h⟩⟩

/-- A computation that does not fail has a result. -/
theorem exists_of_isOk {x : Except ε α} (h : x.isOk = true) : ∃ a, x = .ok a := by
  cases x with
  | error e => exact absurd h Bool.false_ne_true
  | ok a => exact ⟨a, rfl⟩

/-- What is computed behind a guard passed it. -/
theorem guard_eq_ok {c : Prop} [Decidable c] {e : ε} {x : Except ε α} {a : α} :
    (if c then .error e else x) = .ok a ↔ ¬c ∧ x = .ok a := by
  by_cases h : c
  · rw [if_pos h]
    exact ⟨nofun, fun hx => absurd h hx.1⟩
  · rw [if_neg h]
    exact ⟨fun hx => ⟨h, hx⟩, And.right⟩

/-- A computation of steps failed at one of them. -/
theorem bind_eq_error {x : Except ε α} {f : α → Except ε β} {e : ε} :
    (x >>= f) = .error e ↔ x = .error e ∨ ∃ a, x = .ok a ∧ f a = .error e := by
  cases x with
  | error e' => simp [bind, Except.bind]
  | ok a => simp [bind, Except.bind]

theorem pure_ne_error {a : α} {e : ε} : (pure a : Except ε α) ≠ .error e := by
  simp [pure, Except.pure]

/-- What always succeeds does so with its own result. -/
theorem pure_eq_ok {a b : α} : (pure a : Except ε α) = .ok b ↔ a = b := by
  simp [pure, Except.pure]

/-- A result that is changed can be changed in the next step. -/
theorem map_bind_eq {γ : Type} (x : Except ε α) (f : α → β) (g : β → Except ε γ) :
    x.map f >>= g = x >>= fun a => g (f a) := by
  cases x <;> rfl

/-- A changed result comes from the result that was changed. -/
theorem map_eq_ok {x : Except ε α} {f : α → β} {b : β} :
    x.map f = .ok b ↔ ∃ a, x = .ok a ∧ f a = b := by
  cases x with
  | error e => simp [Except.map]
  | ok a => simp [Except.map]

/-- A result that is paired comes with what it is paired with. -/
theorem map_pair_eq_ok {x : Except ε β} {a other : α} {b : β} :
    x.map (a, ·) = .ok (other, b) ↔ a = other ∧ x = .ok b := by
  rw [map_eq_ok]
  constructor
  · rintro ⟨read, hx, heq⟩
    obtain ⟨ha, rfl⟩ := Prod.mk.inj heq
    exact ⟨ha, hx⟩
  · rintro ⟨rfl, hx⟩
    exact ⟨b, hx, rfl⟩

/-- Changing a result leaves the error as it is. -/
theorem map_eq_error {x : Except ε α} {f : α → β} {e : ε} :
    x.map f = .error e ↔ x = .error e := by
  cases x with
  | error e' => simp [Except.map]
  | ok a => simp [Except.map]

/-- Changing an error leaves the result as it is. -/
theorem mapError_eq_ok {x : Except ε α} {f : ε → ε'} {a : α} :
    x.mapError f = .ok a ↔ x = .ok a := by
  cases x with
  | error e => exact ⟨nofun, nofun⟩
  | ok b =>
      exact ⟨fun h => congrArg Except.ok (Except.ok.inj h),
        fun h => congrArg Except.ok (Except.ok.inj h)⟩

/-- The error of a computation that failed. -/
def errorOf? : Except ε α → Option ε
  | .error e => some e
  | .ok _ => none

/-- What fails has the error that it fails with. -/
theorem errorOf?_eq_some {x : Except ε α} {e : ε} : errorOf? x = some e ↔ x = .error e := by
  cases x with
  | error e' => simp [errorOf?]
  | ok a => simp [errorOf?]

/-- Changing a result leaves the error, if there is one. -/
theorem errorOf?_map (x : Except ε α) (f : α → β) : errorOf? (x.map f) = errorOf? x := by
  cases x <;> rfl

/-- A changed error is the error, changed. -/
theorem errorOf?_mapError (x : Except ε α) (f : ε → ε') :
    errorOf? (x.mapError f) = (errorOf? x).map f := by
  cases x <;> rfl

/-- Of two computations the first error counts. -/
theorem errorOf?_bind {f : α → Except ε β} {e? : Option ε} (h : ∀ a, errorOf? (f a) = e?)
    (x : Except ε α) : errorOf? (x >>= f) = (errorOf? x).or e? := by
  cases x with
  | error e => rfl
  | ok a => exact h a

/-- Of the computations for the items of a list the first error counts. -/
theorem errorOf?_mapM (f : α → Except ε β) (as : List α) :
    errorOf? (as.mapM f) = as.findSome? fun a => errorOf? (f a) := by
  induction as with
  | nil => rfl
  | cons a as ih =>
      have hrest : ∀ b, errorOf? (do return b :: (← as.mapM f)) = errorOf? (as.mapM f) := by
        intro b
        cases as.mapM f <;> rfl
      rw [List.mapM_cons, errorOf?_bind hrest, ih, List.findSome?_cons]
      cases errorOf? (f a) <;> rfl

end BoundSql
