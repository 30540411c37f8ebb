import BoundSql.Proofs.Statement.Builder

/-!
# Refused calls

A call that is refused leaves the statement as it was and puts its error into the draft, and
every later call is passed over.  A draft is therefore settled by the calls up to the first
that is refused (`Draft.settles_foldl`): it holds what the accepted ones in front of it have
made, and its error.  Whatever is asked of such a draft is answered by this error, and no
executor is called (`Builder.refusals_stick`).
-/

namespace BoundSql

namespace Draft

variable {α κ : Type} {apply : α → κ → Except SqlError α}

/-- The calls are accepted one after another, and make `b` of `a`. -/
inductive Accepts (apply : α → κ → Except SqlError α) : α → List κ → α → Prop
  | nil (a : α) : Accepts apply a [] a
  | cons {a next b : α} {c : κ} {calls : List κ} (hc : apply a c = .ok next)
    (h : Accepts apply next calls b) : Accepts apply a (c :: calls) b

/-- What calls leave of a statement: all of them were accepted, or those in front of the
first that was refused. -/
inductive Settles (apply : α → κ → Except SqlError α) (a : α) : List κ → Draft α → Prop
  | accepted {calls : List κ} {b : α} (h : Accepts apply a calls b) :
    Settles apply a calls ⟨b, none⟩
  | refused {before : List κ} {b : α} {c : κ} {e : SqlError} (after : List κ)
    (h : Accepts apply a before b) (hc : apply b c = .error e) :
    Settles apply a (before ++ c :: after) ⟨b, some e⟩

/-- One more accepted call in front. -/
theorem Settles.cons {a next : α} {c : κ} {calls : List κ} {d : Draft α}
    (hc : apply a c = .ok next) (h : Settles apply next calls d) :
    Settles apply a (c :: calls) d := by
  cases h with
  | accepted h => exact .accepted (.cons hc h)
  | refused after h hrefused => exact .refused after (.cons hc h) hrefused

/-- A draft with an error passes over every call. -/
theorem step_of_error {d : Draft α} {e : SqlError} (hd : d.error? = some e)
    (call : α → Except SqlError α) : d.step call = d := by
  rw [step, hd]

/-- Further calls change nothing in a draft with an error. -/
theorem foldl_of_error {d : Draft α} {e : SqlError} (hd : d.error? = some e) (calls : List κ) :
    calls.foldl (fun d c => d.step (apply · c)) d = d := by
  induction calls with
  | nil => rfl
  | cons c calls ih => rw [List.foldl_cons, step_of_error hd, ih]

/-- **The first refusal settles a draft.** -/
theorem settles_foldl (a : α) (calls : List κ) :
    Settles apply a calls (calls.foldl (fun d c => d.step (apply · c)) ⟨a, none⟩) := by
  induction calls generalizing a with
  | nil => exact .accepted (.nil a)
  | cons c calls ih =>
      cases hc : apply a c with
      | ok next =>
          have hstep : step ⟨a, none⟩ (apply · c) = ⟨next, none⟩ := step_eq_of_ok rfl hc
          rw [List.foldl_cons, hstep]
          exact (ih next).cons hc
      | error e =>
          have hstep : step ⟨a, none⟩ (apply · c) = ⟨a, some e⟩ := by simp only [step, hc]
          rw [List.foldl_cons, hstep, foldl_of_error rfl]
          show Settles apply a ([] ++ c :: calls) ⟨a, some e⟩
          exact .refused calls (.nil a) hc

/-- A call that is refused leaves the statement as it was. -/
theorem step_eq_of_error {d : Draft α} {call : α → Except SqlError α} {e : SqlError}
    (hd : d.error? = none) (hc : call d.state = .error e) :
    d.step call = { d with error? := some e } := by
  rw [step, hd]
  simp only [hc]

/-- Calls behind a check of the statement. -/
theorem foldl_checked (apply : α → κ → Except SqlError α) (a : α) (check : Except SqlError Unit)
    (calls : List κ) :
    (check = .ok () → Settles apply a calls
      (calls.foldl (fun d c => d.step (apply · c)) (checked a check))) ∧
    ∀ e, check = .error e →
      calls.foldl (fun d c => d.step (apply · c)) (checked a check) = ⟨a, some e⟩ := by
  refine ⟨fun hcheck => ?_, fun e hcheck => ?_⟩
  · rw [hcheck]
    exact settles_foldl a calls
  · rw [hcheck]
    exact foldl_of_error rfl calls

/-- A draft with an error gives the error and no state. -/
theorem get_of_error {d : Draft α} {e : SqlError} (hd : d.error? = some e) :
    d.get = .error e := by
  rw [get, hd]

end Draft

/-- Nothing is sent behind a refusal. -/
theorem Run.ofExcept_error_bind {σ α β : Type} (e : SqlError) (f : α → Run σ β) (s : Session σ) :
    (Run.ofExcept (.error e) >>= f) s = (.error e, s) := rfl

namespace SelectDraft

/-- Whatever is asked of the draft, the answer is the error, and the session stays as it is. -/
structure Refuses (d : Draft Select) (e : SqlError) : Prop where
  build : build d = .error e
  buildFor : ∀ {α : Type} (t : RecordType α), buildFor d t = .error e
  fetchOne : ∀ {σ α : Type} (t : RecordType α) (x : Executor σ) (s : Session σ),
    fetchOne d t x s = (.error e, s)
  fetchAll : ∀ {σ α : Type} (t : RecordType α) (x : Executor σ) (s : Session σ),
    fetchAll d t x s = (.error e, s)

/-- A SELECT with an error answers every call that would compile it with the error. -/
theorem refuses_of_error {d : Draft Select} {e : SqlError} (hd : d.error? = some e) :
    Refuses d e := by
  have hfor : ∀ {α : Type} (t : RecordType α), SelectDraft.buildFor d t = .error e := by
    intro α t
    rw [SelectDraft.buildFor, Draft.get_of_error hd]
    rfl
  have hexecutor : ∀ {σ : Type} (x : Executor σ), forExecutor d x = d := fun x =>
    Draft.step_of_error hd _
  constructor
  · rw [SelectDraft.build, Draft.get_of_error hd]
    rfl
  · exact hfor
  · intro σ α t x s
    rw [SelectDraft.fetchOne, hexecutor, hfor, Run.ofExcept_error_bind]
  · intro σ α t x s
    rw [SelectDraft.fetchAll, hexecutor, hfor, Run.ofExcept_error_bind]

/-- A SELECT with an error is the same after further calls. -/
theorem ofCalls_of_error {table : String} {calls : List Select.Call} {e : SqlError}
    (h : (ofCalls table calls).error? = some e) (more : List Select.Call) :
    ofCalls table (calls ++ more) = ofCalls table calls := by
  have happend : ofCalls table (calls ++ more) = more.foldl call (ofCalls table calls) :=
    List.foldl_append
  rw [happend]
  exact Draft.foldl_of_error h more

end SelectDraft

namespace InsertDraft

/-- Whatever is asked of the draft, the answer is the error, and the session stays as it is. -/
structure Refuses (d : Draft Insert) (e : SqlError) : Prop where
  build : build d = .error e
  buildNamed : buildNamed d = .error e
  exec : ∀ {σ : Type} (x : Executor σ) (s : Session σ), exec d x s = (.error e, s)

/-- An INSERT with an error answers every call that would compile it with the error. -/
theorem refuses_of_error {d : Draft Insert} {e : SqlError} (hd : d.error? = some e) :
    Refuses d e := by
  have hbuild : InsertDraft.build d = .error e := by
    rw [InsertDraft.build, Draft.get_of_error hd]
    rfl
  have hnamed : InsertDraft.buildNamed d = .error e := by
    rw [InsertDraft.buildNamed, Draft.get_of_error hd]
    rfl
  refine ⟨hbuild, hnamed, fun x s => ?_⟩
  have hexecutor : forExecutor d x = d := Draft.step_of_error hd _
  rw [InsertDraft.exec]
  split
  · rw [hnamed, Run.ofExcept_error_bind]
  · rw [hexecutor, hbuild, Run.ofExcept_error_bind]

/-- An INSERT with an error is the same after further calls. -/
theorem ofCalls_of_error {mode : InsertMode} {table : String} {calls : List Insert.Call}
    {e : SqlError} (h : (ofCalls mode table calls).error? = some e) (more : List Insert.Call) :
    ofCalls mode table (calls ++ more) = ofCalls mode table calls := by
  have happend : ofCalls mode table (calls ++ more) =
      more.foldl call (ofCalls mode table calls) := List.foldl_append
  rw [happend]
  exact Draft.foldl_of_error h more

end InsertDraft

namespace Builder

/-- **The first refusal decides.**  After calls on a SELECT or an INSERT the draft holds what
they have made and no error, if the name of the table and all calls are accepted.  Else it
holds the empty statement and the error of the name, or what the calls in front of the first
refused one have made and the error of that one; a call that is refused changes nothing but
this.  Then every later call leaves the draft as it is, and all that can be asked of it, to be
finished or to be sent, is answered by the error, with the session as it was. -/
theorem refusals_stick :
    (∀ (table : String) (calls : List Select.Call),
      let t := Identifier.ofText table
      let named := t.validate.mapError (SqlError.inContext "SELECT: table")
      let d := SelectDraft.ofCalls table calls
      (named = .ok () → Draft.Settles Select.apply (Select.ofTable t) calls d) ∧
      (∀ e, named = .error e → d = ⟨Select.ofTable t, some e⟩) ∧
      (∀ c e, d.error? = none → d.state.apply c = .error e →
        SelectDraft.ofCalls table (calls ++ [c]) = { d with error? := some e }) ∧
      ∀ e, d.error? = some e → SelectDraft.Refuses d e ∧
        ∀ more, SelectDraft.ofCalls table (calls ++ more) = d) ∧
    ∀ (mode : InsertMode) (table : String) (calls : List Insert.Call),
      let t := Identifier.ofText table
      let named := t.validate.mapError (SqlError.inContext "INSERT: table")
      let d := InsertDraft.ofCalls mode table calls
      (named = .ok () → Draft.Settles Insert.apply (Insert.ofTable mode t) calls d) ∧
      (∀ e, named = .error e → d = ⟨Insert.ofTable mode t, some e⟩) ∧
      (∀ c e, d.error? = none → d.state.apply c = .error e →
        InsertDraft.ofCalls mode table (calls ++ [c]) = { d with error? := some e }) ∧
      ∀ e, d.error? = some e → InsertDraft.Refuses d e ∧
        ∀ more, InsertDraft.ofCalls mode table (calls ++ more) = d := by
  refine ⟨fun table calls => ?_, fun mode table calls => ?_⟩
  · intro t named d
    obtain ⟨hsettles, hempty⟩ := Draft.foldl_checked Select.apply (Select.ofTable t) named calls
    refine ⟨hsettles, hempty, fun c e hd hc => ?_, fun e he => ?_⟩
    · rw [SelectDraft.ofCalls_concat]
      exact Draft.step_eq_of_error hd hc
    · exact ⟨SelectDraft.refuses_of_error he, SelectDraft.ofCalls_of_error he⟩
  · intro t named d
    obtain ⟨hsettles, hempty⟩ :=
      Draft.foldl_checked Insert.apply (Insert.ofTable mode t) named calls
    refine ⟨hsettles, hempty, fun c e hd hc => ?_, fun e he => ?_⟩
    · rw [InsertDraft.ofCalls_concat]
      exact Draft.step_eq_of_error hd hc
    · exact ⟨InsertDraft.refuses_of_error he, InsertDraft.ofCalls_of_error he⟩

/-- A LIMIT below zero behind one that is accepted, and a table without a name. -/
theorem refusals_stick_negative :
    (∃ d e, d = SelectDraft.ofCalls "t" [.limit 5, .limit (-1)] ∧
      Draft.Settles Select.apply (Select.ofTable (.ofText "t")) [.limit 5, .limit (-1)] d ∧
      d.state.limit? = some 5 ∧
      e = .validation "SELECT: LIMIT must be non-negative, got -1" ∧
      SelectDraft.Refuses d e ∧
      SelectDraft.ofCalls "t" [.limit 5, .limit (-1), .distinct, .offset (-2)] = d) ∧
    InsertDraft.Refuses (InsertDraft.ofCalls .replace "" [.ignore])
      (.validation "INSERT: table: Identifier cannot be empty") := by
  obtain ⟨hselect, hinsert⟩ := refusals_stick
  constructor
  · obtain ⟨-, -, hlast, -⟩ := hselect "t" [.limit 5]
    obtain ⟨hsettles, -, -, hrest⟩ := hselect "t" [.limit 5, .limit (-1)]
    have hfault : (Identifier.ofText "t").fault? = none := by decide
    have hd := hlast (.limit (-1)) _ rfl rfl
    obtain ⟨hrefuses, hmore⟩ := hrest _ (congrArg Draft.error? hd)
    exact ⟨_, _, rfl, hsettles (by rw [Identifier.validate, hfault]; rfl), rfl, rfl, hrefuses,
      hmore [.distinct, .offset (-2)]⟩
  · obtain ⟨-, hnamed, -, hrest⟩ := hinsert .replace "" [.ignore]
    have hfault : (Identifier.ofText "").fault? = some .empty := by decide
    have hd := hnamed _ (by rw [Identifier.validate, hfault]; rfl)
    exact (hrest _ (congrArg Draft.error? hd)).1

end Builder

end BoundSql
