import BoundSql.Execution.Script
import BoundSql.Proofs.Execution.Delivery
import BoundSql.Proofs.Statement.Style

/-!
# Statements in the executor's style

A statement is sent in the style of placeholders that the executor expects, whatever style its
draft was given.  A SELECT and an INSERT that is built by position take the executor's style
before they are built; an INSERT with named markers has no placeholders until the executor
binds them.  So drafts that differ in the style alone run alike
(`SelectDraft.fetchOne_of_alike`, `InsertDraft.exec_of_alike`), and the calls of an INSERT are
templates that belong to the draft, written in the style of the executor
(`InsertDraft.exec_sends_templates`).
-/

namespace BoundSql

/-- The calls to an executor in their order. -/
abbrev CallLog := List (CallMode × Statement)

/-- A call that is kept beside the session. -/
def Run.keeping {σ α : Type} (call : CallMode × Statement) (r : Run σ α) :
    Run (σ × CallLog) α := fun s =>
  let made := r { s with backend := s.backend.1 }
  (made.1, { made.2 with backend := (made.2.backend, s.backend.2 ++ [call]) })

namespace Executor

variable {σ α : Type}

/-- An executor that binds by position and keeps the calls to its backend. -/
def keeping (p : Placeholder) (exec : Statement → Run σ WriteResult)
    (query : Statement → Run σ (List Row)) : Executor (σ × CallLog) :=
  positional p (fun st => .keeping (.exec, st) (exec st)) fun st =>
    .keeping (.query, st) (query st)

/-- What only fails or succeeds leaves the session as it is. -/
theorem session_ofExcept (x : Except SqlError α) (s : Session σ) : (Run.ofExcept x s).2 = s := by
  cases x <;> rfl

/-- Reading one record makes one query and nothing else. -/
theorem session_get (x : Executor σ) (st : Statement) (fromRow : Row → Except SqlError α)
    (s : Session σ) : (x.get st fromRow s).2 = (x.query st s).2 := by
  show (Run.bind (x.query st) _ s).2 = _
  rw [Run.bind]
  rcases x.query st s with ⟨e | rows, after⟩
  · rfl
  · show (Run.bind (Run.ofExcept (onlyRow rows)) _ after).2 = after
    cases onlyRow rows with
    | error e => rfl
    | ok row => exact session_ofExcept (fromRow row) after

/-- Reading records makes one query and nothing else. -/
theorem session_select (x : Executor σ) (st : Statement) (fromRow : Row → Except SqlError α)
    (s : Session σ) : (x.select st fromRow s).2 = (x.query st s).2 := by
  show (Run.bind (x.query st) _ s).2 = _
  rw [Run.bind]
  rcases x.query st s with ⟨e | rows, after⟩
  · rfl
  · exact session_ofExcept (rows.mapM fromRow) after

/-- Statements are sent in order, all of them unless the run fails. -/
theorem sendAll_keeping (exec : Statement → Run σ WriteResult) (index : Nat)
    (statements : List Statement) (total : WriteResult) (s : Session (σ × CallLog)) :
    let run := sendAll (fun st => .keeping (.exec, st) (exec st)) index statements total s
    ∃ sent, sent <+: statements ∧ (∀ result, run.1 = .ok result → sent = statements) ∧
      run.2.backend.2 = s.backend.2 ++ sent.map fun st => (.exec, st) := by
  induction statements generalizing index total s with
  | nil => exact ⟨[], List.nil_prefix, fun _ _ => rfl, (List.append_nil _).symm⟩
  | cons st rest ih =>
      intro run
      have hrun : run = Run.bind (.keeping (.exec, st) (exec st)) _ s := rfl
      rw [Run.bind, Run.keeping] at hrun
      rcases hanswer : exec st { s with backend := s.backend.1 } with ⟨e | result, after⟩
      · rw [hanswer] at hrun
        rw [hrun]
        exact ⟨[st], List.prefix_append [st] rest, fun _ h => absurd h (by simp), rfl⟩
      · rw [hanswer] at hrun
        obtain ⟨sent, hsent, hall, hcalls⟩ := ih (index + 1)
          { lastInsertId := if index = 0 then result.lastInsertId else total.lastInsertId
            rowsAffected := total.rowsAffected + result.rowsAffected }
          { after with backend := (after.backend, s.backend.2 ++ [(.exec, st)]) }
        rw [hrun]
        refine ⟨st :: sent, List.cons_prefix_cons.2 ⟨rfl, hsent⟩,
          fun final h => congrArg _ (hall final h), hcalls.trans ?_⟩
        rw [List.append_assoc]
        rfl

end Executor

/-! ## SELECT -/

namespace SelectDraft

open BoundSql.Select (SameButStyle)

variable {σ α : Type} {d d' : Draft Select}

/-- **One record is fetched alike** by drafts that differ in the style alone. -/
theorem fetchOne_of_alike (h : Draft.Alike SameButStyle d d') (t : RecordType α)
    (x : Executor σ) : fetchOne d t x = fetchOne d' t x := by
  rw [fetchOne, fetchOne, buildFor_forExecutor_of_alike h]

/-- **Records are fetched alike** by drafts that differ in the style alone. -/
theorem fetchAll_of_alike (h : Draft.Alike SameButStyle d d') (t : RecordType α)
    (x : Executor σ) : fetchAll d t x = fetchAll d' t x := by
  rw [fetchAll, fetchAll, buildFor_forExecutor_of_alike h]

/-- The only call is a query with the statement that is built for the executor. -/
theorem calls_of_fetch {t : RecordType α} {st : Statement} {p : Placeholder}
    {exec : Statement → Run σ WriteResult} {query : Statement → Run σ (List Row)}
    (h : buildFor (forExecutor d (Executor.keeping p exec query)) t = .ok st)
    (s : Session (σ × CallLog)) :
    (fetchOne d t (.keeping p exec query) s).2.backend.2 = s.backend.2 ++ [(.query, st)] ∧
      (fetchAll d t (.keeping p exec query) s).2.backend.2 = s.backend.2 ++ [(.query, st)] := by
  let kept (after : Session (σ × CallLog)) : CallLog := after.backend.2
  rw [fetchOne, fetchAll, h]
  exact ⟨congrArg kept (Executor.session_get ..), congrArg kept (Executor.session_select ..)⟩

/-- What is not built is not sent. -/
theorem fetch_of_error {t : RecordType α} {e : SqlError} {x : Executor σ}
    (h : buildFor (forExecutor d x) t = .error e) (s : Session σ) :
    fetchOne d t x s = (.error e, s) ∧ fetchAll d t x s = (.error e, s) := by
  rw [fetchOne, fetchAll, h]
  exact ⟨rfl, rfl⟩

end SelectDraft

/-! ## INSERT -/

namespace Executor

/-- The templates that items are bound to, the first of them at a place. -/
def bindTemplates (sql tag : String) : Nat → List NamedItem → Except SqlError (List Template)
  | _, [] => .ok []
  | index, item :: rest => do
    let template ← Template.ofNamed sql (← item.toMap tag index)
    return template :: (← bindTemplates sql tag (index + 1) rest)

/-- Bound items are templates in the style of the executor. -/
theorem bindItems_eq_map (p : Placeholder) (sql tag : String) (index : Nat)
    (items : List NamedItem) : bindItems p sql tag index items =
      (bindTemplates sql tag index items).map (·.map fun t => t.emit p) := by
  induction items generalizing index with
  | nil => rfl
  | cons item rest ih =>
      rw [bindItems, bindTemplates, ih]
      cases item.toMap tag index with
      | error e => rfl
      | ok lookup =>
          simp only [bind, Except.bind]
          cases Template.ofNamed sql lookup with
          | error e => rfl
          | ok template => cases bindTemplates sql tag (index + 1) rest <;> rfl

end Executor

namespace InsertDraft

open BoundSql.Insert (SameButStyle)

variable {σ : Type} {d d' : Draft Insert}

/-- **An INSERT is sent alike** by drafts that differ in the style alone. -/
theorem exec_of_alike (h : Draft.Alike SameButStyle d d') (x : Executor σ) :
    exec d x = exec d' x := by
  obtain ⟨p, hstate⟩ := h.state
  rw [exec, exec, build_forExecutor_of_alike h, buildNamed_of_alike h, hstate,
    Insert.usesNames_restyle, Insert.resolve_restyle]

/-- What a draft is sent as before any placeholder is written: a template for the statement,
or for each item that is bound. -/
def templates (d : Draft Insert) : Except SqlError (List Template) := do
  let q ← d.get
  if q.usesNames then
    let n ← q.namedStatement
    let _ ← q.resolve
    if n.items.isEmpty then
      throw <| .validation "named execution requires at least one item"
    else Executor.bindTemplates n.sql n.tag 0 n.items
  else
    let resolved ← q.resolve
    return [q.template resolved.1 resolved.2]

/-- The templates do not depend on the style of the draft. -/
theorem templates_of_alike (h : Draft.Alike SameButStyle d d') : templates d = templates d' := by
  refine Draft.get_bind_of_alike h fun q _ hq => ?_
  obtain ⟨p, rfl⟩ := hq
  rw [Insert.usesNames_restyle, Insert.namedStatement_restyle, Insert.resolve_restyle]
  rfl

/-- The statements are the templates in the style of the executor. -/
theorem statements_eq_map (d : Draft Insert) (p : Placeholder) :
    statements d p = (templates d).map (·.map fun t => t.emit p) := by
  obtain ⟨q, _ | e⟩ := d
  · by_cases hnames : q.usesNames = true
    · have htemplates : templates ⟨q, none⟩ = (do
          let n ← q.namedStatement
          let _ ← q.resolve
          if n.items.isEmpty then
            throw <| .validation "named execution requires at least one item"
          else Executor.bindTemplates n.sql n.tag 0 n.items) := if_pos hnames
      rw [statements_of_usesNames hnames, htemplates]
      cases q.namedStatement with
      | error e => rfl
      | ok n =>
          cases q.resolve with
          | error e => rfl
          | ok resolved =>
              simp only [bind, Except.bind, NamedStatement.bound]
              split
              · rfl
              · exact Executor.bindItems_eq_map ..
    · have htemplates : templates ⟨q, none⟩ = (do
          let resolved ← q.resolve
          return [q.template resolved.1 resolved.2]) := if_neg hnames
      have hresolve : Insert.resolve { q with settings := q.settings.withPlaceholder p } =
          q.resolve := rfl
      rw [statements_of_rows hnames, htemplates, Insert.statement, hresolve]
      cases q.resolve with
      | error e => rfl
      | ok resolved => rfl
  · rfl

/-- **The calls of an INSERT are templates in the style of the executor.** -/
theorem exec_sends_templates (d : Draft Insert) (p : Placeholder)
    (exec : Statement → Run σ WriteResult) (query : Statement → Run σ (List Row))
    (s : Session (σ × CallLog)) :
    let run := InsertDraft.exec d (.keeping p exec query) s
    (∀ e, templates d = .error e → run.1 = .error e ∧ run.2.backend.2 = s.backend.2) ∧
      ∀ ts, templates d = .ok ts → ∃ sent, sent <+: ts ∧
        (∀ result, run.1 = .ok result → sent = ts) ∧
        run.2.backend.2 = s.backend.2 ++ sent.map fun t => (.exec, t.emit p) := by
  intro run
  obtain ⟨logged, hexec⟩ := exec_eq_sendAll d p
  have hrun : run = (do
      Run.logAll logged
      Executor.sendAll (fun st => .keeping (.exec, st) (exec st)) 0
        (← Run.ofExcept (statements d p)) ⟨none, 0⟩ : Run _ _) s :=
    congrFun (hexec _ _) s
  rw [statements_eq_map] at hrun
  constructor
  · intro e he
    rw [hrun, he]
    exact ⟨rfl, rfl⟩
  · intro ts hts
    rw [hts] at hrun
    obtain ⟨sent, hsent, hall, hcalls⟩ := Executor.sendAll_keeping exec 0
      (ts.map fun t => t.emit p) ⟨none, 0⟩ { s with events := s.events ++ logged }
    obtain ⟨front, hfront, rfl⟩ := List.prefix_map_iff.1 hsent
    refine ⟨front, hfront, fun result h => ?_, ?_⟩
    · rw [hrun] at h
      have hlength := congrArg List.length (hall result h)
      rw [List.length_map, List.length_map] at hlength
      exact hfront.eq_of_length hlength
    · rw [hrun]
      exact hcalls.trans (by rw [List.map_map]; rfl)

end InsertDraft

/-! ## Both -/

/-- **Only the executor's style is written.**  Calls that set different styles of placeholders
and are otherwise the same are executed alike, with the same answer and the same session
behind it, by every executor; so an executor that keeps its calls has kept the same.  A SELECT
makes one query, with the statement that is built after the executor's own style was set, or
none if that is refused.  The calls of an INSERT are written in the executor's style from
templates that depend neither on it nor on the style that the calls have set, from all of them
unless one fails. -/
theorem executor_style_alone {selects selects' : List Select.Call}
    {inserts inserts' : List Insert.Call}
    (hselects : List.Forall₂ Select.Call.SameButStyle selects selects')
    (hinserts : List.Forall₂ Insert.Call.SameButStyle inserts inserts')
    (mode : InsertMode) (table : String) :
    let d := SelectDraft.ofCalls table selects
    let d' := SelectDraft.ofCalls table selects'
    let i := InsertDraft.ofCalls mode table inserts
    let i' := InsertDraft.ofCalls mode table inserts'
    (∀ {σ α : Type} (t : RecordType α) (x : Executor σ),
        SelectDraft.fetchOne d t x = SelectDraft.fetchOne d' t x ∧
          SelectDraft.fetchAll d t x = SelectDraft.fetchAll d' t x) ∧
      (∀ {σ : Type} (x : Executor σ), InsertDraft.exec i x = InsertDraft.exec i' x) ∧
      InsertDraft.templates i = InsertDraft.templates i' ∧
      ∀ {σ : Type} (p : Placeholder) (exec : Statement → Run σ WriteResult)
        (query : Statement → Run σ (List Row)) (s : Session (σ × CallLog)),
        let x := Executor.keeping p exec query
        (∀ {α : Type} (t : RecordType α),
          let styled := SelectDraft.ofCalls table
            (selects ++ [.dialect { d.state.settings.dialect with placeholder := p }])
          (∀ st, SelectDraft.buildFor styled t = .ok st →
            (SelectDraft.fetchOne d t x s).2.backend.2 = s.backend.2 ++ [(.query, st)] ∧
              (SelectDraft.fetchAll d t x s).2.backend.2 = s.backend.2 ++ [(.query, st)]) ∧
          ∀ e, SelectDraft.buildFor styled t = .error e →
            SelectDraft.fetchOne d t x s = (.error e, s) ∧
              SelectDraft.fetchAll d t x s = (.error e, s)) ∧
        (∀ e, InsertDraft.templates i = .error e →
          (InsertDraft.exec i x s).1 = .error e ∧
            (InsertDraft.exec i x s).2.backend.2 = s.backend.2) ∧
        ∀ ts, InsertDraft.templates i = .ok ts → ∃ sent, sent <+: ts ∧
          (∀ result, (InsertDraft.exec i x s).1 = .ok result → sent = ts) ∧
          (InsertDraft.exec i x s).2.backend.2 =
            s.backend.2 ++ sent.map fun t => (.exec, t.emit p) := by
  intro d d' i i'
  have hd := SelectDraft.alike_ofCalls table hselects
  have hi := InsertDraft.alike_ofCalls mode table hinserts
  refine ⟨fun t x => ⟨SelectDraft.fetchOne_of_alike hd t x, SelectDraft.fetchAll_of_alike hd t x⟩,
    InsertDraft.exec_of_alike hi, InsertDraft.templates_of_alike hi, fun p exec query s => ?_⟩
  intro x
  refine ⟨fun t => ?_, InsertDraft.exec_sends_templates i p exec query s⟩
  intro styled
  have hstyled : SelectDraft.forExecutor d x = styled :=
    (SelectDraft.forExecutor_eq_call d x).trans (SelectDraft.ofCalls_concat ..).symm
  rw [← hstyled]
  exact ⟨fun st hst => SelectDraft.calls_of_fetch hst s,
    fun e he => SelectDraft.fetch_of_error he s⟩

/-- Two styles in the calls and a third one in what is sent: a query, and an INSERT with named
markers. -/
theorem executor_style_alone_question :
    let selects (p : Placeholder) : List Select.Call := [.dialect ⟨'\x22', p⟩, .limit 1]
    let inserts (p : Placeholder) : List Insert.Call := [
      .settings ⟨"db", '\x22', p⟩, .maps [.ofList [("a", .int 1)]]]
    let t : RecordType (List Value) := ⟨"Row", fun _ => some ["a"], fun row => .ok row.values⟩
    let x : Executor (Unit × CallLog) :=
      .keeping .question (fun _ => pure ⟨none, 1⟩) fun _ => pure [⟨["a"], [.int 1]⟩]
    let start : Session (Unit × CallLog) := .start ((), [])
    List.Forall₂ Select.Call.SameButStyle (selects .dollar) (selects .atP) ∧
      List.Forall₂ Insert.Call.SameButStyle (inserts .dollar) (inserts .atP) ∧
      SelectDraft.fetchOne (SelectDraft.ofCalls "t" (selects .dollar)) t x =
        SelectDraft.fetchOne (SelectDraft.ofCalls "t" (selects .atP)) t x ∧
      InsertDraft.exec (InsertDraft.ofCalls .insert "t" (inserts .dollar)) x =
        InsertDraft.exec (InsertDraft.ofCalls .insert "t" (inserts .atP)) x ∧
      (SelectDraft.fetchOne (SelectDraft.ofCalls "t" (selects .dollar)) t x start).2.backend.2 =
        [(.query, ⟨"SELECT \"a\" FROM \"t\" LIMIT ?", [.int 1]⟩)] ∧
      (InsertDraft.exec (InsertDraft.ofCalls .insert "t" (inserts .dollar)) x start).2.backend.2 =
        [(.exec, ⟨"INSERT INTO \"t\" (\"a\") VALUES (?)", [.int 1]⟩)] := by
  intro selects inserts t x start
  have hselects : List.Forall₂ Select.Call.SameButStyle (selects .dollar) (selects .atP) :=
    .cons ⟨.atP, rfl⟩ (.cons ⟨.atP, rfl⟩ .nil)
  have hinserts : List.Forall₂ Insert.Call.SameButStyle (inserts .dollar) (inserts .atP) :=
    .cons ⟨.atP, rfl⟩ (.cons ⟨.atP, rfl⟩ .nil)
  obtain ⟨hfetch, hexec, -, hcalls⟩ := executor_style_alone hselects hinserts .insert "t"
  obtain ⟨hquery, -⟩ := hcalls .question (fun _ => pure ⟨none, 1⟩)
    (fun _ => pure [⟨["a"], [.int 1]⟩]) start
  have hbuild : SelectDraft.buildFor (SelectDraft.ofCalls "t"
      (selects .dollar ++ [.dialect ⟨'\x22', .question⟩])) t =
        .ok ⟨"SELECT \"a\" FROM \"t\" LIMIT ?", [.int 1]⟩ := rfl
  refine ⟨hselects, hinserts, (hfetch t x).1, hexec x, ((hquery t).1 _ hbuild).1, ?_⟩
  -- the scan of the named text is left to the kernel
  let bound (parts : List Named.Part) : Except SqlError (List Statement) := do
    let template ← parts.mapM (Named.bindPart (.ofList [("a", .int 1)]))
    return [Template.emit template .question]
  have hparts : Named.parts "INSERT INTO \"t\" (\"a\") VALUES (:a)" =
      "INSERT INTO \"t\" (\"a\") VALUES (".toList.map .char ++ [.marker "a", .char ')'] := by
    decide +kernel
  have hsettled : InsertDraft.statements (InsertDraft.ofCalls .insert "t" (inserts .dollar))
      .question = .ok [⟨"INSERT INTO \"t\" (\"a\") VALUES (?)", [.int 1]⟩] :=
    (congrArg bound hparts).trans rfl
  obtain ⟨logged, hsent⟩ := InsertDraft.exec_eq_sendAll
    (InsertDraft.ofCalls .insert "t" (inserts .dollar)) .question
  show (InsertDraft.exec _ (Executor.positional ..) start).2.backend.2 = _
  rw [hsent, hsettled]
  rfl

end BoundSql
