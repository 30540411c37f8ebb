import BoundSql.Proofs.Statement.Builder
import BoundSql.Proofs.Template.NamedMarkers

/-!
# Statements of another style

Two statements under construction may differ in the style of placeholders alone.  Calls keep
it so (`Select.sameButStyle_apply`, `Insert.sameButStyle_apply`): no call looks at the style,
so calls that set different styles and are otherwise the same are accepted together or refused
with one error (`SelectDraft.alike_ofCalls`, `InsertDraft.alike_ofCalls`).

What does not write placeholders does not depend on the style either: the columns and rows of
an INSERT, and its statement with named markers (`Insert.namedStatement_restyle`).
-/

namespace BoundSql

/-- Two computations that fail with one error or give related results. -/
inductive SameOutcome {α : Type} (R : α → α → Prop) : Except SqlError α → Except SqlError α → Prop
  | ok {a b : α} (h : R a b) : SameOutcome R (.ok a) (.ok b)
  | error (e : SqlError) : SameOutcome R (.error e) (.error e)

namespace SameOutcome

variable {α β : Type} {R : α → α → Prop}

/-- A common step in front. -/
theorem bind {f g : β → Except SqlError α} (h : ∀ b, SameOutcome R (f b) (g b))
    (x : Except SqlError β) : SameOutcome R (x >>= f) (x >>= g) := by
  cases x with
  | error e => exact .error e
  | ok b => exact h b

/-- A common guard in front. -/
theorem guard {c : Prop} [Decidable c] {e : SqlError} {x y : Except SqlError α}
    (h : SameOutcome R x y) :
    SameOutcome R (if c then .error e else x) (if c then .error e else y) := by
  split
  · exact .error e
  · exact h

end SameOutcome

namespace Draft

variable {α κ : Type} {R : α → α → Prop} {A : κ → κ → Prop}

/-- Two drafts with related statements and the same error, if any. -/
structure Alike (R : α → α → Prop) (d d' : Draft α) : Prop where
  state : R d.state d'.state
  error?_eq : d.error? = d'.error?

/-- Calls with related outcomes keep drafts related. -/
theorem alike_step {d d' : Draft α} {call call' : α → Except SqlError α} (hd : Alike R d d')
    (h : SameOutcome R (call d.state) (call' d'.state)) :
    Alike R (d.step call) (d'.step call') := by
  rw [step, step, ← hd.error?_eq]
  cases d.error? with
  | some e => exact hd
  | none =>
      generalize call d.state = x at h
      generalize call' d'.state = y at h
      cases h with
      | ok h => exact ⟨h, rfl⟩
      | error e => exact ⟨hd.state, rfl⟩

/-- **Two runs go together,** refused calls included, if related calls give related statements
or the same error. -/
theorem alike_foldl (apply : α → κ → Except SqlError α)
    (hstep : ∀ a b c c', R a b → A c c' → SameOutcome R (apply a c) (apply b c'))
    {calls calls' : List κ} (hcalls : List.Forall₂ A calls calls') {d d' : Draft α}
    (hd : Alike R d d') :
    Alike R (calls.foldl (fun d c => d.step (apply · c)) d)
      (calls'.foldl (fun d c => d.step (apply · c)) d') := by
  induction hcalls generalizing d d' with
  | nil => exact hd
  | cons hc _ ih => exact ih (alike_step hd (hstep _ _ _ _ hd.state hc))

/-- Drafts of related states that make the same check are related. -/
theorem alike_checked {a b : α} (h : R a b) (check : Except SqlError Unit) :
    Alike R (checked a check) (checked b check) := by
  cases check with
  | error e => exact ⟨h, rfl⟩
  | ok u => exact ⟨h, rfl⟩

/-- What does not tell related statements apart does not tell related drafts apart. -/
theorem get_bind_of_alike {β : Type} {d d' : Draft α} {f : α → Except SqlError β}
    (h : Alike R d d') (hf : ∀ a b, R a b → f a = f b) : d.get >>= f = d'.get >>= f := by
  rw [get, get, ← h.error?_eq]
  cases d.error? with
  | some e => rfl
  | none => exact hf _ _ h.state

end Draft

/-! ## SELECT -/

namespace Select

/-- The statement in another style of placeholders. -/
def restyle (p : Placeholder) (q : Select) : Select :=
  { q with settings := q.settings.withPlaceholder p }

/-- The statements differ in the style of placeholders alone. -/
def SameButStyle (q r : Select) : Prop := ∃ p, r = q.restyle p

/-- The style that is set last counts. -/
theorem SameButStyle.restyle_eq {q r : Select} (h : q.SameButStyle r) (p : Placeholder) :
    q.restyle p = r.restyle p := by
  obtain ⟨_, rfl⟩ := h
  rfl

/-- A call that sets another style, if it sets one. -/
def Call.restyle (p : Placeholder) : Call → Call
  | .settings s => .settings (s.withPlaceholder p)
  | .dialect d => .dialect { d with placeholder := p }
  | c => c

/-- The calls differ in the style of placeholders alone. -/
def Call.SameButStyle (c c' : Call) : Prop := ∃ p, c' = c.restyle p

/-- **No call looks at the style.** -/
theorem sameButStyle_apply {q r : Select} {c c' : Call} (hq : q.SameButStyle r)
    (hc : c.SameButStyle c') : SameOutcome SameButStyle (q.apply c) (r.apply c') := by
  obtain ⟨p, rfl⟩ := hq
  obtain ⟨p', rfl⟩ := hc
  -- settings and a dialect bring their own style, every other call keeps that of the statement
  cases c with
  | settings s | dialect d => exact .ok ⟨p', rfl⟩
  | tag tag | distinct => exact .ok ⟨p, rfl⟩
  | «alias» name => exact .bind (fun _ => .ok ⟨p, rfl⟩) _
  | columns names => exact .bind (fun _ => .ok ⟨p, rfl⟩) _
  | columnsRaw sql =>
      show SameOutcome _ (q.apply (.columnsRaw sql)) ((q.restyle p).apply (.columnsRaw sql))
      rw [apply, apply]
      generalize Text.trim sql = trimmed
      exact .guard (.ok ⟨p, rfl⟩)
  | restrict c => exact .bind (fun _ => .ok ⟨p, rfl⟩) _
  | restrictGroups c => exact .bind (fun _ => .ok ⟨p, rfl⟩) _
  | groupBy clause => exact .bind (fun _ => .ok ⟨p, rfl⟩) _
  | orderBy clause => exact .bind (fun _ => .ok ⟨p, rfl⟩) _
  | limit n => exact .bind (fun _ => .ok ⟨p, rfl⟩) _
  | offset n => exact .bind (fun _ => .ok ⟨p, rfl⟩) _
  | paginate page perPage => exact .guard (.guard (.ok ⟨p, rfl⟩))

end Select

namespace SelectDraft

open BoundSql.Select (SameButStyle)

/-- **Calls that differ in the style alone give drafts that do.** -/
theorem alike_ofCalls (table : String) {calls calls' : List Select.Call}
    (h : List.Forall₂ Select.Call.SameButStyle calls calls') :
    Draft.Alike SameButStyle (ofCalls table calls) (ofCalls table calls') :=
  Draft.alike_foldl Select.apply (fun _ _ _ _ => Select.sameButStyle_apply) h
    (Draft.alike_checked ⟨_, rfl⟩ _)

/-- The draft for an executor gives the statement in its style. -/
theorem get_forExecutor {σ : Type} (d : Draft Select) (x : Executor σ) :
    (forExecutor d x).get = d.get.map (Select.restyle x.placeholder) := by
  obtain ⟨q, _ | e⟩ := d
  · rfl
  · rfl

/-- What is built for an executor, from the statement in its style. -/
theorem buildFor_forExecutor_eq {σ α : Type} (d : Draft Select) (x : Executor σ)
    (t : RecordType α) : buildFor (forExecutor d x) t =
      d.get >>= fun q => (q.restyle x.placeholder).statementFor t := by
  rw [buildFor, get_forExecutor, map_bind_eq]

/-- The draft for an executor is the draft with a call that sets its style. -/
theorem forExecutor_eq_call {σ : Type} (d : Draft Select) (x : Executor σ) :
    forExecutor d x =
      call d (.dialect { d.state.settings.dialect with placeholder := x.placeholder }) := by
  obtain ⟨q, _ | e⟩ := d
  · rfl
  · rfl

/-- **What is built for an executor does not depend on the style of the draft.** -/
theorem buildFor_forExecutor_of_alike {σ α : Type} {d d' : Draft Select}
    (h : Draft.Alike SameButStyle d d') (x : Executor σ) (t : RecordType α) :
    buildFor (forExecutor d x) t = buildFor (forExecutor d' x) t := by
  rw [buildFor_forExecutor_eq, buildFor_forExecutor_eq]
  exact Draft.get_bind_of_alike h fun _ _ hq =>
    congrArg (Select.statementFor · t) (hq.restyle_eq x.placeholder)

end SelectDraft

/-! ## INSERT -/

namespace Insert

/-- The statement in another style of placeholders. -/
def restyle (p : Placeholder) (q : Insert) : Insert :=
  { q with settings := q.settings.withPlaceholder p }

/-- The statements differ in the style of placeholders alone. -/
def SameButStyle (q r : Insert) : Prop := ∃ p, r = q.restyle p

/-- The style that is set last counts. -/
theorem SameButStyle.restyle_eq {q r : Insert} (h : q.SameButStyle r) (p : Placeholder) :
    q.restyle p = r.restyle p := by
  obtain ⟨_, rfl⟩ := h
  rfl

/-- A call that sets another style, if it sets one. -/
def Call.restyle (p : Placeholder) : Call → Call
  | .settings s => .settings (s.withPlaceholder p)
  | .dialect d => .dialect { d with placeholder := p }
  | c => c

/-- The calls differ in the style of placeholders alone. -/
def Call.SameButStyle (c c' : Call) : Prop := ∃ p, c' = c.restyle p

/-- **No call looks at the style.** -/
theorem sameButStyle_apply {q r : Insert} {c c' : Call} (hq : q.SameButStyle r)
    (hc : c.SameButStyle c') : SameOutcome SameButStyle (q.apply c) (r.apply c') := by
  obtain ⟨p, rfl⟩ := hq
  obtain ⟨p', rfl⟩ := hc
  cases c with
  | settings s | dialect d => exact .ok ⟨p', rfl⟩
  | tag tag => exact .ok ⟨p, rfl⟩
  | columns names => exact .bind (fun _ => .ok ⟨p, rfl⟩) _
  | rows rows | maps maps | records records => exact .bind (fun _ => .ok ⟨p, rfl⟩) _
  | ignore => exact .guard (.ok ⟨p, rfl⟩)
  | priority priority => exact .guard (.ok ⟨p, rfl⟩)
  | replace => exact .guard (.guard (.guard (.ok ⟨p, rfl⟩)))
  | update column assigned => exact .guard (.bind (fun _ => .ok ⟨p, rfl⟩) _)

/-- Columns and rows do not depend on the style. -/
theorem resolve_restyle (p : Placeholder) (q : Insert) : (q.restyle p).resolve = q.resolve := rfl

/-- Whether a statement is sent with named markers does not depend on the style. -/
theorem usesNames_restyle (p : Placeholder) (q : Insert) :
    (q.restyle p).usesNames = q.usesNames := rfl

/-- **A statement with named markers does not depend on the style,** as it binds nothing. -/
theorem namedStatement_restyle (p : Placeholder) (q : Insert) :
    (q.restyle p).namedStatement = q.namedStatement := by
  rw [namedStatement, namedStatement]
  refine bind_congr fun items => bind_congr fun columns => bind_congr fun _ => ?_
  have htemplate : (q.restyle p).namedTemplate columns = q.namedTemplate columns := rfl
  rw [htemplate]
  -- the style only writes placeholders, and where it is used there are none
  simp only
  split
  · rename_i hparams
    have hparams := List.isEmpty_iff.1 hparams
    rw [Template.emit, Template.emit, Template.sqlFrom_of_params_nil hparams,
      Template.sqlFrom_of_params_nil hparams]
    rfl
  · rfl

end Insert

namespace InsertDraft

open BoundSql.Insert (SameButStyle)

/-- **Calls that differ in the style alone give drafts that do.** -/
theorem alike_ofCalls (mode : InsertMode) (table : String) {calls calls' : List Insert.Call}
    (h : List.Forall₂ Insert.Call.SameButStyle calls calls') :
    Draft.Alike SameButStyle (ofCalls mode table calls) (ofCalls mode table calls') :=
  Draft.alike_foldl Insert.apply (fun _ _ _ _ => Insert.sameButStyle_apply) h
    (Draft.alike_checked ⟨_, rfl⟩ _)

/-- The draft for an executor gives the statement in its style. -/
theorem get_forExecutor {σ : Type} (d : Draft Insert) (x : Executor σ) :
    (forExecutor d x).get = d.get.map (Insert.restyle x.placeholder) := by
  obtain ⟨q, _ | e⟩ := d
  · rfl
  · rfl

/-- What is built for an executor, from the statement in its style. -/
theorem build_forExecutor_eq {σ : Type} (d : Draft Insert) (x : Executor σ) :
    build (forExecutor d x) = d.get >>= fun q => (q.restyle x.placeholder).statement := by
  rw [build, get_forExecutor, map_bind_eq]

/-- **What is built for an executor does not depend on the style of the draft.** -/
theorem build_forExecutor_of_alike {σ : Type} {d d' : Draft Insert}
    (h : Draft.Alike SameButStyle d d') (x : Executor σ) :
    build (forExecutor d x) = build (forExecutor d' x) := by
  rw [build_forExecutor_eq, build_forExecutor_eq]
  exact Draft.get_bind_of_alike h fun _ _ hq =>
    congrArg Insert.statement (hq.restyle_eq x.placeholder)

/-- Named markers are the same in every style. -/
theorem buildNamed_of_alike {d d' : Draft Insert} (h : Draft.Alike SameButStyle d d') :
    buildNamed d = buildNamed d' := by
  refine Draft.get_bind_of_alike h fun q _ hq => ?_
  obtain ⟨p, rfl⟩ := hq
  exact (Insert.namedStatement_restyle p q).symm

end InsertDraft

end BoundSql
