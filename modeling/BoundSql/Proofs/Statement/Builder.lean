import BoundSql.Proofs.Statement.Calls
import Mathlib.Data.List.Forall2

/-!
# Statements by their calls

A statement under construction is what a sequence of calls has made of a table.
A property that the empty statement has and that every accepted call preserves
holds after any sequence of calls, refused ones included: a refused call leaves
the statement as it was.
-/

namespace BoundSql

namespace Draft

variable {α : Type}

/-- A call preserves what it preserves when it is accepted. -/
theorem step_preserves {I : α → Prop} {d : Draft α} {call : α → Except SqlError α}
    (hcall : ∀ b, call d.state = .ok b → I b) (hd : I d.state) : I (d.step call).state := by
  unfold step
  split
  · exact hd
  · split
    · rename_i b hb
      exact hcall b hb
    · exact hd

/-- **What every accepted call preserves, any calls preserve.** -/
theorem foldl_preserves {κ : Type} {apply : α → κ → Except SqlError α} {I : α → Prop}
    (hstep : ∀ a c b, I a → apply a c = .ok b → I b) (calls : List κ) {d : Draft α}
    (hd : I d.state) : I (calls.foldl (fun d c => d.step (apply · c)) d).state := by
  induction calls generalizing d with
  | nil => exact hd
  | cons c calls ih => exact ih (step_preserves (fun b hb => hstep d.state c b hd hb) hd)

/-- A check that fails leaves the state as it is. -/
theorem checked_state (a : α) (check : Except SqlError Unit) : (checked a check).state = a := by
  unfold checked
  split <;> rfl

/-- What a draft gives is its statement. -/
theorem get_eq_ok {d : Draft α} {a : α} : d.get = .ok a ↔ d.error? = none ∧ d.state = a := by
  rw [get]
  cases d.error? <;> simp

/-- A draft without an error is its state. -/
theorem eq_of_error? {d : Draft α} (h : d.error? = none) : d = ⟨d.state, none⟩ := by
  obtain ⟨a, error?⟩ := d
  obtain rfl : error? = none := h
  rfl

/-- A call on a draft without an error that is accepted. -/
theorem step_eq_of_ok {d : Draft α} {call : α → Except SqlError α} {b : α}
    (hd : d.error? = none) (hb : call d.state = .ok b) : d.step call = ⟨b, none⟩ := by
  rw [step, hd]
  simp only [hb]

/-- A draft without an error comes from one without an error by an accepted call. -/
theorem exists_of_step {d : Draft α} {call : α → Except SqlError α}
    (h : (d.step call).error? = none) :
    d.error? = none ∧ ∃ b, call d.state = .ok b ∧ (d.step call).state = b := by
  unfold step at h ⊢
  split at h
  · rename_i e he
    rw [he] at h
    exact absurd h (Option.some_ne_none e)
  · rename_i hd
    split at h
    · rename_i b hb
      exact ⟨hd, b, hb, rfl⟩
    · exact absurd h (Option.some_ne_none _)

/-- An error stays, so that a draft without one had none before its calls. -/
theorem error?_of_foldl {κ : Type} {apply : α → κ → Except SqlError α} {calls : List κ}
    {d : Draft α} (h : (calls.foldl (fun d c => d.step (apply · c)) d).error? = none) :
    d.error? = none := by
  induction calls generalizing d with
  | nil => exact h
  | cons c calls ih => exact (exists_of_step (ih h)).1

/-- **What a run without an error has taken in.**  A property of calls and of what they have
made, kept by every accepted call, holds of all calls of a run without an error. -/
theorem foldl_gathers {κ : Type} {apply : α → κ → Except SqlError α} {I : List κ → α → Prop}
    (hstep : ∀ {made a c b}, I made a → apply a c = .ok b → I (made ++ [c]) b)
    (made calls : List κ) {d : Draft α} (hd : I made d.state)
    (h : (calls.foldl (fun d c => d.step (apply · c)) d).error? = none) :
    I (made ++ calls) (calls.foldl (fun d c => d.step (apply · c)) d).state := by
  induction calls generalizing made d with
  | nil =>
      rw [List.append_nil]
      exact hd
  | cons c calls ih =>
      obtain ⟨-, b, hb, hstate⟩ := exists_of_step (error?_of_foldl h)
      have hc : I (made ++ [c]) (d.step (apply · c)).state := by
        rw [hstate]
        exact hstep hd hb
      rw [List.append_cons]
      exact ih _ hc h

/-- **Two runs.**  A relation that accepted calls keep, if the calls are related too,
holds after two runs without an error. -/
theorem foldl_related {κ : Type} {apply : α → κ → Except SqlError α} {R : α → α → Prop}
    {A : κ → κ → Prop}
    (hstep : ∀ {a a' b b' : α} {c c' : κ}, R a a' → A c c' → apply a c = .ok b →
      apply a' c' = .ok b' → R b b') {calls calls' : List κ}
    (hcalls : List.Forall₂ A calls calls') {d d' : Draft α} (hd : R d.state d'.state)
    (h : (calls.foldl (fun d c => d.step (apply · c)) d).error? = none)
    (h' : (calls'.foldl (fun d c => d.step (apply · c)) d').error? = none) :
    R (calls.foldl (fun d c => d.step (apply · c)) d).state
      (calls'.foldl (fun d c => d.step (apply · c)) d').state := by
  induction hcalls generalizing d d' with
  | nil => exact hd
  | cons hc _ ih =>
      obtain ⟨-, b, hb, hstate⟩ := exists_of_step (error?_of_foldl h)
      obtain ⟨-, b', hb', hstate'⟩ := exists_of_step (error?_of_foldl h')
      refine ih ?_ h h'
      rw [hstate, hstate']
      exact hstep hd hc hb hb'

end Draft

namespace SelectDraft

/-- The SELECT that calls make of a table. -/
def ofCalls (table : String) (calls : List Select.Call) : Draft Select :=
  calls.foldl call (ofTable table)

/-- The last call is made on the draft of the others. -/
theorem ofCalls_concat (table : String) (calls : List Select.Call) (c : Select.Call) :
    ofCalls table (calls ++ [c]) = call (ofCalls table calls) c := by
  rw [ofCalls, List.foldl_append, ← ofCalls, List.foldl_cons, List.foldl_nil]

/-- A call that sets the dialect changes nothing but the dialect. -/
theorem ofCalls_dialect {table : String} {calls : List Select.Call}
    (h : (ofCalls table calls).error? = none) (d : Dialect) :
    ofCalls table (calls ++ [.dialect d]) =
      let q := (ofCalls table calls).state
      ⟨{ q with settings := q.settings.withDialect d }, none⟩ := by
  rw [ofCalls_concat]
  exact Draft.step_eq_of_ok h rfl

/-- **What every accepted call preserves holds after any calls.** -/
theorem ofCalls_preserves {I : Select → Prop}
    (hinit : ∀ table, I (Select.ofTable table))
    (hstep : ∀ q c r, I q → Select.apply q c = .ok r → I r) (table : String)
    (calls : List Select.Call) : I (ofCalls table calls).state := by
  refine Draft.foldl_preserves hstep calls ?_
  rw [ofTable, Draft.checked_state]
  exact hinit _

/-- **What related calls keep holds after two runs without an error.** -/
theorem ofCalls_related {R : Select → Select → Prop} {A : Select.Call → Select.Call → Prop}
    (hinit : ∀ table, R (Select.ofTable table) (Select.ofTable table))
    (hstep : ∀ {q q' r r' : Select} {c c' : Select.Call}, R q q' → A c c' → q.apply c = .ok r →
      q'.apply c' = .ok r' → R r r') {table : String} {calls calls' : List Select.Call}
    (hcalls : List.Forall₂ A calls calls') (h : (ofCalls table calls).error? = none)
    (h' : (ofCalls table calls').error? = none) :
    R (ofCalls table calls).state (ofCalls table calls').state := by
  refine Draft.foldl_related hstep hcalls ?_ h h'
  rw [ofTable, Draft.checked_state]
  exact hinit _

end SelectDraft

namespace InsertDraft

/-- The INSERT or REPLACE that calls make of a table. -/
def ofCalls (mode : InsertMode) (table : String) (calls : List Insert.Call) : Draft Insert :=
  calls.foldl call (ofTable mode table)

/-- The last call is made on the draft of the others. -/
theorem ofCalls_concat (mode : InsertMode) (table : String) (calls : List Insert.Call)
    (c : Insert.Call) :
    ofCalls mode table (calls ++ [c]) = call (ofCalls mode table calls) c := by
  rw [ofCalls, List.foldl_append, ← ofCalls, List.foldl_cons, List.foldl_nil]

/-- A call that sets the dialect changes nothing but the dialect. -/
theorem ofCalls_dialect {mode : InsertMode} {table : String} {calls : List Insert.Call}
    (h : (ofCalls mode table calls).error? = none) (d : Dialect) :
    ofCalls mode table (calls ++ [.dialect d]) =
      let q := (ofCalls mode table calls).state
      ⟨{ q with settings := q.settings.withDialect d }, none⟩ := by
  rw [ofCalls_concat]
  exact Draft.step_eq_of_ok h rfl

/-- **What every accepted call preserves holds after any calls.** -/
theorem ofCalls_preserves {I : Insert → Prop}
    (hinit : ∀ mode table, I (Insert.ofTable mode table))
    (hstep : ∀ q c r, I q → Insert.apply q c = .ok r → I r) (mode : InsertMode) (table : String)
    (calls : List Insert.Call) : I (ofCalls mode table calls).state := by
  refine Draft.foldl_preserves hstep calls ?_
  rw [ofTable, Draft.checked_state]
  exact hinit _ _

/-- **What related calls keep holds after two runs without an error.** -/
theorem ofCalls_related {R : Insert → Insert → Prop} {A : Insert.Call → Insert.Call → Prop}
    (hinit : ∀ mode table, R (Insert.ofTable mode table) (Insert.ofTable mode table))
    (hstep : ∀ {q q' r r' : Insert} {c c' : Insert.Call}, R q q' → A c c' → q.apply c = .ok r →
      q'.apply c' = .ok r' → R r r') {mode : InsertMode} {table : String}
    {calls calls' : List Insert.Call} (hcalls : List.Forall₂ A calls calls')
    (h : (ofCalls mode table calls).error? = none)
    (h' : (ofCalls mode table calls').error? = none) :
    R (ofCalls mode table calls).state (ofCalls mode table calls').state := by
  refine Draft.foldl_related hstep hcalls ?_ h h'
  rw [ofTable, Draft.checked_state]
  exact hinit _ _

end InsertDraft

/-- A statement under construction: its table and the calls that were made. -/
inductive Builder
  | select (table : String) (calls : List Select.Call)
  | insert (mode : InsertMode) (table : String) (calls : List Insert.Call)

namespace Builder

/-- The finished statement, or the first error of the calls. -/
def build : Builder → Except SqlError Statement
  | .select table calls => SelectDraft.build (SelectDraft.ofCalls table calls)
  | .insert mode table calls => InsertDraft.build (InsertDraft.ofCalls mode table calls)

/-- The settings that the calls have left. -/
def settings : Builder → Settings
  | .select table calls => (SelectDraft.ofCalls table calls).state.settings
  | .insert mode table calls => (InsertDraft.ofCalls mode table calls).state.settings

/-- With one more call, which sets the dialect. -/
def withDialect (d : Dialect) : Builder → Builder
  | .select table calls => .select table (calls ++ [.dialect d])
  | .insert mode table calls => .insert mode table (calls ++ [.dialect d])

/-- With one more call, which sets the style of placeholders and keeps the quote
character. -/
def withPlaceholder (b : Builder) (p : Placeholder) : Builder :=
  b.withDialect { b.settings.dialect with placeholder := p }

end Builder

end BoundSql
