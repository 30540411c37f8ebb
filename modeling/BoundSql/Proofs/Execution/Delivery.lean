import BoundSql.Proofs.Execution.NamedInsert

/-!
# What an INSERT sends

An INSERT of maps or records is bound item by item, each when its turn comes.  All the same
it is settled before anything is sent: the check of the rows has found the same keys in
every item, so the markers have values in every item or not even in the first
(`Executor.binds_or_error`).  A run is therefore a draft that is refused, or statements that
are sent one after another (`InsertDraft.exec_eq_sendAll`), and these are sent up to the first
that fails (`Executor.sendAll_recording`).
-/

namespace BoundSql

namespace Named

variable {lookup : ValueMap}

/-- Parts can be bound if their markers have values. -/
theorem exists_mapM_bindPart {parts : List Part} :
    (∃ t, parts.mapM (bindPart lookup) = .ok t) ↔
      ∀ name, Part.marker name ∈ parts → name ∈ lookup.keys := by
  induction parts with
  | nil => exact ⟨fun _ name hname => absurd hname List.not_mem_nil, fun _ => ⟨[], rfl⟩⟩
  | cons part parts ih =>
      have hcons : (∃ t, (part :: parts).mapM (bindPart lookup) = .ok t) ↔
          (∃ piece, bindPart lookup part = .ok piece) ∧
            ∃ t, parts.mapM (bindPart lookup) = .ok t := by
        simp only [List.mapM_cons, bind_eq_ok, pure_eq_ok]
        constructor
        · rintro ⟨_, piece, hpiece, t, ht, -⟩
          exact ⟨⟨piece, hpiece⟩, t, ht⟩
        · rintro ⟨⟨piece, hpiece⟩, t, ht⟩
          exact ⟨_, piece, hpiece, t, ht, rfl⟩
      rw [hcons, ih]
      cases part with
      | char c => simp [bindPart]
      | marker name =>
          have hname : (∃ piece, bindPart lookup (.marker name) = .ok piece) ↔
              name ∈ lookup.keys := by
            rw [← KeyMap.isSome_get?, bindPart]
            cases lookup.get? name <;> simp
          rw [hname]
          simp

end Named

/-- The calls to an execution: each statement with the answer to it. -/
abbrev Calls := List (Statement × Except SqlError WriteResult)

/-- A session without the calls that were kept in it. -/
def Session.forget {σ : Type} (s : Session (σ × Calls)) : Session σ :=
  { s with backend := s.backend.1 }

namespace Executor

variable {σ : Type}

/-- An execution that also keeps the calls to it. -/
def recording (exec : Statement → Run σ WriteResult) (st : Statement) :
    Run (σ × Calls) WriteResult := fun s =>
  let (answer, t) := exec st s.forget
  (answer, { t with backend := (t.backend, s.backend.2 ++ [(st, answer)]) })

/-- The rows that results affected in all. -/
def rowsOf (results : List WriteResult) : Nat :=
  results.foldr (fun result n => result.rowsAffected.toNat + n) 0

/-- The result of all results after those of `total`. -/
def collect : Nat → List WriteResult → WriteResult → WriteResult
  | _, [], total => total
  | index, result :: rest, total =>
    collect (index + 1) rest
      { lastInsertId := if index = 0 then result.lastInsertId else total.lastInsertId
        rowsAffected := total.rowsAffected + result.rowsAffected }

/-- From the second statement on the identifier of the first one stays. -/
theorem lastInsertId_collect (index : Nat) (results : List WriteResult) (total : WriteResult) :
    (collect (index + 1) results total).lastInsertId = total.lastInsertId := by
  induction results generalizing index total with
  | nil => rfl
  | cons result rest ih =>
      rw [collect, ih]
      rfl

/-- The id of all results is that of the first one. -/
theorem lastInsertId_collect_start (results : List WriteResult) :
    (collect 0 results ⟨none, 0⟩).lastInsertId = results.head?.bind WriteResult.lastInsertId := by
  cases results with
  | nil => rfl
  | cons result rest => exact lastInsertId_collect 0 rest _

/-- A single result is the total. -/
theorem collect_singleton (result : WriteResult) : collect 0 [result] ⟨none, 0⟩ = result := by
  simp only [collect, if_pos, UInt64.zero_add]

/-- The rows that were affected add up, as long as the sum fits. -/
theorem rowsAffected_collect (index : Nat) (results : List WriteResult) (total : WriteResult)
    (h : total.rowsAffected.toNat + rowsOf results < 0x10000000000000000) :
    (collect index results total).rowsAffected.toNat =
      total.rowsAffected.toNat + rowsOf results := by
  induction results generalizing index total with
  | nil => rfl
  | cons result rest ih =>
      have hrows : rowsOf (result :: rest) = result.rowsAffected.toNat + rowsOf rest := rfl
      rw [hrows] at h ⊢
      have hsum : (total.rowsAffected + result.rowsAffected).toNat =
          total.rowsAffected.toNat + result.rowsAffected.toNat := by
        rw [UInt64.toNat_add]
        exact Nat.mod_eq_of_lt (by omega)
      have hrest := ih (index + 1) ⟨if index = 0 then result.lastInsertId else total.lastInsertId,
        total.rowsAffected + result.rowsAffected⟩ (by simp only [hsum]; omega)
      rw [collect, hrest]
      simp only [hsum]
      omega

/-- The calls that statements with results make. -/
def accepted (answered : List (Statement × WriteResult)) : Calls :=
  answered.map fun (st, result) => (st, .ok result)

/-- How the sending of statements ends: with the calls that were made and the answer to all.
Either every statement has a result, or one failed and was the last one sent. -/
inductive Sent (index : Nat) (total : WriteResult) :
    List Statement → Calls → Except SqlError WriteResult → Prop
  | all (answered : List (Statement × WriteResult)) :
    Sent index total (answered.map Prod.fst) (accepted answered)
      (.ok (collect index (answered.map Prod.snd) total))
  | failed (answered : List (Statement × WriteResult)) (st : Statement) (rest : List Statement)
      (e : SqlError) :
    Sent index total (answered.map Prod.fst ++ st :: rest)
      (accepted answered ++ [(st, .error e)]) (.error e)

/-- One more statement with a result in front. -/
theorem Sent.cons {index : Nat} {total : WriteResult} {statements : List Statement}
    {calls : Calls} {answer : Except SqlError WriteResult} (st : Statement)
    (result : WriteResult)
    (h : Sent (index + 1)
      ⟨if index = 0 then result.lastInsertId else total.lastInsertId,
        total.rowsAffected + result.rowsAffected⟩ statements calls answer) :
    Sent index total (st :: statements) ((st, .ok result) :: calls) answer := by
  cases h with
  | all answered => exact .all ((st, result) :: answered)
  | failed answered next rest e => exact .failed ((st, result) :: answered) next rest e

/-- A single statement is sent, and the answer to it is the answer of all. -/
theorem Sent.calls_single {st : Statement} {calls : Calls}
    {answer : Except SqlError WriteResult} (h : Sent 0 ⟨none, 0⟩ [st] calls answer) :
    calls = [(st, answer)] := by
  generalize hsent : [st] = statements at h
  cases h with
  | all answered =>
      obtain ⟨⟨_, result⟩, rfl, rfl⟩ := List.map_eq_singleton_iff.1 hsent.symm
      exact congrArg (fun r => [(_, Except.ok r)]) (collect_singleton result).symm
  | failed answered next rest e =>
      cases answered with
      | nil =>
          obtain ⟨rfl, -⟩ := List.cons.inj hsent
          rfl
      | cons first more => exact absurd hsent (by simp)

/-- The answer of all statements: the id of the first one and the sum of the rows, where
64 bits hold it, or the error of the one that failed. -/
theorem Sent.outcome {sent : List Statement} {calls : Calls}
    {answer : Except SqlError WriteResult} (h : Sent 0 ⟨none, 0⟩ sent calls answer) :
    (∃ (answered : List (Statement × WriteResult)) (total : WriteResult),
        sent = answered.map Prod.fst ∧ calls = accepted answered ∧ answer = .ok total ∧
        total.lastInsertId = (answered.map Prod.snd).head?.bind WriteResult.lastInsertId ∧
        (rowsOf (answered.map Prod.snd) < 0x10000000000000000 →
          total.rowsAffected.toNat = rowsOf (answered.map Prod.snd))) ∨
      ∃ (answered : List (Statement × WriteResult)) (st : Statement) (rest : List Statement)
        (e : SqlError), sent = answered.map Prod.fst ++ st :: rest ∧
          calls = accepted answered ++ [(st, .error e)] ∧ answer = .error e := by
  cases h with
  | all answered =>
      refine .inl ⟨answered, _, rfl, rfl, rfl, lastInsertId_collect_start _, fun hfits => ?_⟩
      have hsum := rowsAffected_collect 0 (answered.map Prod.snd) ⟨none, 0⟩
      simp only [UInt64.toNat_zero, Nat.zero_add] at hsum
      exact hsum hfits
  | failed answered st rest e => exact .inr ⟨answered, st, rest, e, rfl, rfl, rfl⟩

/-- **Statements are sent up to the first that fails.** -/
theorem sendAll_recording (exec : Statement → Run σ WriteResult) (index : Nat)
    (statements : List Statement) (total : WriteResult) (s : Session (σ × Calls)) :
    ∃ calls,
      (sendAll (recording exec) index statements total s).2.backend.2 = s.backend.2 ++ calls ∧
        Sent index total statements calls
          (sendAll (recording exec) index statements total s).1 := by
  induction statements generalizing index total s with
  | nil => exact ⟨[], (List.append_nil _).symm, .all []⟩
  | cons st rest ih =>
      rcases hanswer : exec st s.forget with ⟨e | result, t⟩
      · have hrun : sendAll (recording exec) index (st :: rest) total s =
            (.error e, { t with backend := (t.backend, s.backend.2 ++ [(st, .error e)]) }) := by
          simp only [sendAll, bind, Run.bind, recording, hanswer]
        rw [hrun]
        exact ⟨[(st, .error e)], rfl, .failed [] st rest e⟩
      · have hrun : sendAll (recording exec) index (st :: rest) total s =
            sendAll (recording exec) (index + 1) rest
              { lastInsertId := if index = 0 then result.lastInsertId else total.lastInsertId
                rowsAffected := total.rowsAffected + result.rowsAffected }
              { t with backend := (t.backend, s.backend.2 ++ [(st, .ok result)]) } := by
          simp only [sendAll, bind, Run.bind, recording, hanswer]
        rw [hrun]
        obtain ⟨calls, hcalls, hsent⟩ := ih (index + 1)
          { lastInsertId := if index = 0 then result.lastInsertId else total.lastInsertId
            rowsAffected := total.rowsAffected + result.rowsAffected }
          { t with backend := (t.backend, s.backend.2 ++ [(st, .ok result)]) }
        refine ⟨(st, .ok result) :: calls, ?_, hsent.cons st result⟩
        rw [hcalls, List.append_assoc]
        rfl

/-- Keeping the calls changes nothing else. -/
theorem forget_sendAll (exec : Statement → Run σ WriteResult) (index : Nat)
    (statements : List Statement) (total : WriteResult) (s : Session (σ × Calls)) :
    ((sendAll (recording exec) index statements total s).1,
      (sendAll (recording exec) index statements total s).2.forget) =
        sendAll exec index statements total s.forget := by
  induction statements generalizing index total s with
  | nil => rfl
  | cons st rest ih =>
      rcases hanswer : exec st s.forget with ⟨e | result, t⟩
      · simp only [sendAll, bind, Run.bind, recording, hanswer]
        rfl
      · simp only [sendAll, bind, Run.bind, recording, hanswer]
        exact ih (index + 1) _ _

end Executor

/-! ## What is sent -/

namespace Run

variable {σ α : Type}

/-- Logs events. -/
def logAll (events : List Event) : Run σ Unit := fun s =>
  (.ok (), { s with events := s.events ++ events })

/-- Logging nothing does nothing. -/
theorem logAll_nil (f : Run σ α) : (do logAll []; f) = f := by
  funext s
  show f { s with events := s.events ++ [] } = f s
  rw [List.append_nil]

end Run

namespace Executor

/-- The statements that items are bound to by position, the first of them at a place. -/
def bindItems (p : Placeholder) (sql tag : String) :
    Nat → List NamedItem → Except SqlError (List Statement)
  | _, [] => .ok []
  | index, item :: rest => do
    let template ← Template.ofNamed sql (← item.toMap tag index)
    return template.emit p :: (← bindItems p sql tag (index + 1) rest)

/-- The item is bound to the statement, wherever it stands. -/
def Binds (p : Placeholder) (sql tag : String) (item : NamedItem) (st : Statement) : Prop :=
  ∀ index, ∃ m t, item.toMap tag index = .ok m ∧ Template.ofNamed sql m = .ok t ∧ t.emit p = st

variable {σ : Type} {p : Placeholder} {sql tag : String} {items : List NamedItem}

/-- Items that are bound one by one are bound together. -/
theorem bindItems_of_binds {statements : List Statement}
    (h : List.Forall₂ (Binds p sql tag) items statements) (index : Nat) :
    bindItems p sql tag index items = .ok statements := by
  induction h generalizing index with
  | nil => rfl
  | cons hitem _ ih =>
      obtain ⟨m, t, hm, ht, rfl⟩ := hitem index
      exact bind_eq_ok.2 ⟨m, hm, bind_eq_ok.2 ⟨t, ht, bind_eq_ok.2 ⟨_, ih (index + 1), rfl⟩⟩⟩

/-- **Either every item is bound or the first one is not,** for items whose maps have the
same keys. -/
theorem binds_or_error (p : Placeholder) (sql : String) {names : List String}
    (hitems : ∀ item ∈ items, ∃ m : ValueMap,
      (∀ place, item.toMap tag place = .ok m) ∧ m.keys.Perm names) :
    (∃ statements, List.Forall₂ (Binds p sql tag) items statements) ∨
      ∃ first rest m e, items = first :: rest ∧ first.toMap tag 0 = .ok m ∧
        Template.ofNamed sql m = .error e := by
  by_cases hmarkers : ∀ name, Named.Part.marker name ∈ Named.parts sql → name ∈ names
  · refine .inl ?_
    induction items with
    | nil => exact ⟨[], .nil⟩
    | cons item rest ih =>
        obtain ⟨hitem, hrest⟩ := List.forall_mem_cons.1 hitems
        obtain ⟨m, hm, hkeys⟩ := hitem
        obtain ⟨t, ht⟩ := Named.exists_mapM_bindPart.2 fun name hname =>
          hkeys.mem_iff.2 (hmarkers name hname)
        obtain ⟨statements, hstatements⟩ := ih hrest
        exact ⟨Template.emit t p :: statements,
          .cons (fun index => ⟨m, t, hm index, ht, rfl⟩) hstatements⟩
  · cases items with
    | nil => exact .inl ⟨[], .nil⟩
    | cons first rest =>
        obtain ⟨m, hm, hkeys⟩ := hitems first List.mem_cons_self
        cases ht : Template.ofNamed sql m with
        | error e => exact .inr ⟨first, rest, m, e, rfl, hm 0, ht⟩
        | ok t =>
            refine absurd (fun name hname => ?_) hmarkers
            exact hkeys.mem_iff.1 (Named.exists_mapM_bindPart.1 ⟨t, ht⟩ name hname)

/-- Items are bound before anything is sent, though each is bound only when its turn
comes. -/
theorem execItems_eq {names : List String} (hitems : ∀ item ∈ items, ∃ m : ValueMap,
    (∀ place, item.toMap tag place = .ok m) ∧ m.keys.Perm names)
    (exec : Statement → Run σ WriteResult) (total : WriteResult) :
    execItems p exec sql tag 0 items total =
      (do sendAll exec 0 (← Run.ofExcept (bindItems p sql tag 0 items)) total) := by
  rcases binds_or_error p sql hitems with
    ⟨statements, hbinds⟩ | ⟨first, rest, m, e, rfl, hm, ht⟩
  · rw [execItems_eq_sendAll p exec hbinds, bindItems_of_binds hbinds, Run.ofExcept_bind]
  · have herror : bindItems p sql tag 0 (first :: rest) = .error e := by
      rw [bindItems, hm]
      simp only [bind, Except.bind, ht]
    rw [herror, execItems, hm, Run.ofExcept_bind, ht]
    rfl

end Executor

/-- The statements that a statement with named markers is sent as by position. -/
def NamedStatement.bound (p : Placeholder) (n : NamedStatement) :
    Except SqlError (List Statement) :=
  if n.items.isEmpty then .error (.validation "named execution requires at least one item")
  else Executor.bindItems p n.sql n.tag 0 n.items

/-- For one map the statement is sent as the text is with the values of the map. -/
theorem NamedStatement.bound_map (p : Placeholder) (sql tag : String) (m : ValueMap)
    (batch : Bool) : NamedStatement.bound p ⟨sql, tag, [.map m], batch⟩ =
      (Template.ofNamed sql m).map fun t => [t.emit p] := by
  show Executor.bindItems p sql tag 0 [.map m] = _
  simp only [Executor.bindItems, NamedItem.toMap, bind, Except.bind]
  cases Template.ofNamed sql m <;> rfl

namespace InsertDraft

open Executor

/-- The statements that a draft is sent as by position, or why it is refused. -/
def statements (d : Draft Insert) (p : Placeholder) : Except SqlError (List Statement) := do
  let q ← d.get
  if q.usesNames then
    let n ← q.namedStatement
    let _ ← q.resolve
    n.bound p
  else
    let st ← Insert.statement { q with settings := q.settings.withPlaceholder p }
    return [st]

/-- A single statement is sent as it is executed. -/
theorem sendAll_singleton {σ : Type} (exec : Statement → Run σ WriteResult) (st : Statement) :
    sendAll exec 0 [st] ⟨none, 0⟩ = exec st := by
  funext s
  rcases hanswer : exec st s with ⟨e | result, t⟩
  · simp only [sendAll, bind, Run.bind, hanswer]
  · simp only [sendAll, bind, Run.bind, hanswer]
    exact congrArg (fun r => (Except.ok r, t)) (collect_singleton result)

section

variable {σ : Type} {q : Insert} {p : Placeholder}

/-- With named markers the items are bound, and checked by position as well. -/
theorem statements_of_usesNames (h : q.usesNames = true) (p : Placeholder) :
    statements ⟨q, none⟩ p = (do
      let n ← q.namedStatement
      let _ ← q.resolve
      n.bound p) :=
  if_pos h

/-- Rows are sent as one statement. -/
theorem statements_of_rows (h : ¬q.usesNames = true) (p : Placeholder) :
    statements ⟨q, none⟩ p = (do
      let st ← Insert.statement { q with settings := q.settings.withPlaceholder p }
      return [st]) :=
  if_neg h

/-- A draft with named markers is executed item by item, after it was checked by position. -/
theorem exec_of_usesNames (h : q.usesNames = true) (exec : Statement → Run σ WriteResult)
    (query : Statement → Run σ (List Row)) :
    InsertDraft.exec ⟨q, none⟩ (positional p exec query) = (do
      let n ← Run.ofExcept q.namedStatement
      let _ ← Run.ofExcept q.resolve
      Run.log (.compiled .namedInsert n.sql n.items.length)
      execNamed p exec n) :=
  if_pos h

/-- A draft of rows is executed as one statement. -/
theorem exec_of_rows (h : ¬q.usesNames = true) (exec : Statement → Run σ WriteResult)
    (query : Statement → Run σ (List Row)) :
    InsertDraft.exec ⟨q, none⟩ (positional p exec query) = (do
      let st ← Run.ofExcept (Insert.statement
        { q with settings := q.settings.withPlaceholder p })
      Run.log (.compiled .insert st.sql st.params.length)
      exec st) :=
  if_neg h

/-- The items of a statement that passed the check of its rows are bound before anything is
sent. -/
theorem execNamed_eq {n : NamedStatement} {resolved : List Identifier × List (List Value)}
    (hn : q.namedStatement = .ok n) (hresolved : q.resolve = .ok resolved)
    (exec : Statement → Run σ WriteResult) :
    execNamed p exec n = (do sendAll exec 0 (← Run.ofExcept (n.bound p)) ⟨none, 0⟩) := by
  obtain ⟨_, hitems, -, -, htag, -⟩ := Insert.namedStatement_eq_ok hn
  obtain ⟨-, hrows⟩ := Insert.resolve_items hresolved hitems
  rw [execNamed, NamedStatement.bound]
  split
  · rfl
  · rw [htag]
    exact execItems_eq (Insert.keys_perm_of_hasRow hrows) exec _

end

/-- **A draft is settled before anything is sent.**  A run logs what it logs, and then it is
refused or sends its statements one after another. -/
theorem exec_eq_sendAll (d : Draft Insert) (p : Placeholder) : ∃ logged : List Event,
    ∀ {σ : Type} (exec : Statement → Run σ WriteResult) (query : Statement → Run σ (List Row)),
      InsertDraft.exec d (positional p exec query) = (do
        Run.logAll logged
        sendAll exec 0 (← Run.ofExcept (statements d p)) ⟨none, 0⟩) := by
  obtain ⟨q, _ | refusal⟩ := d
  · by_cases hnames : q.usesNames = true
    · rw [statements_of_usesNames hnames]
      cases hn : q.namedStatement with
      | error e =>
          refine ⟨[], fun exec query => ?_⟩
          rw [Run.logAll_nil, exec_of_usesNames hnames, hn]
          rfl
      | ok n =>
          cases hresolved : q.resolve with
          | error e =>
              refine ⟨[], fun exec query => ?_⟩
              rw [Run.logAll_nil, exec_of_usesNames hnames, hn, hresolved]
              rfl
          | ok resolved =>
              refine ⟨[.compiled .namedInsert n.sql n.items.length], fun exec query => ?_⟩
              rw [exec_of_usesNames hnames, hn, hresolved, Run.ofExcept_bind, Run.ofExcept_bind,
                execNamed_eq hn hresolved]
              rfl
    · rw [statements_of_rows hnames]
      cases hst : Insert.statement { q with settings := q.settings.withPlaceholder p } with
      | error e =>
          refine ⟨[], fun exec query => ?_⟩
          rw [Run.logAll_nil, exec_of_rows hnames, hst]
          rfl
      | ok st =>
          refine ⟨[.compiled .insert st.sql st.params.length], fun exec query => ?_⟩
          rw [exec_of_rows hnames, hst, Run.ofExcept_bind, ← sendAll_singleton exec st]
          rfl
  · refine ⟨[], fun exec query => ?_⟩
    rw [Run.logAll_nil, InsertDraft.exec]
    split <;> rfl

/-- The bound statements are those of the items, one for each. -/
theorem binds_of_statements {q : Insert} {p : Placeholder} {sent : List Statement}
    (hnames : q.usesNames = true) (h : statements ⟨q, none⟩ p = .ok sent) :
    ∃ n, q.namedStatement = .ok n ∧ q.namedItems = .ok n.items ∧ n.items ≠ [] ∧
      List.Forall₂ (Binds p n.sql n.tag) n.items sent := by
  rw [statements_of_usesNames hnames] at h
  obtain ⟨n, hn, h⟩ := bind_eq_ok.1 h
  obtain ⟨⟨columns, rows⟩, hresolved, h⟩ := bind_eq_ok.1 h
  obtain ⟨_, hitems, -, -, htag, -⟩ := Insert.namedStatement_eq_ok hn
  obtain ⟨-, hrows⟩ := Insert.resolve_items hresolved hitems
  obtain ⟨hne, hbound⟩ := guard_eq_ok.1 h
  refine ⟨n, hn, hitems, fun hnil => hne (List.isEmpty_iff.2 hnil), ?_⟩
  have hkeys := Insert.keys_perm_of_hasRow hrows
  rw [← htag] at hkeys
  rcases binds_or_error p n.sql hkeys with
    ⟨bound, hbinds⟩ | ⟨first, rest, m, e, hsplit, hm, ht⟩
  · obtain rfl := Except.ok.inj ((bindItems_of_binds hbinds 0).symm.trans hbound)
    exact hbinds
  · rw [hsplit, bindItems, hm] at hbound
    simp only [bind, Except.bind, ht] at hbound
    exact absurd hbound (by simp)

/-- A draft that gives statements has no error. -/
theorem eq_of_statements {d : Draft Insert} {p : Placeholder} {sent : List Statement}
    (h : statements d p = .ok sent) : d = ⟨d.state, none⟩ := by
  obtain ⟨q, hq, -⟩ := bind_eq_ok.1 h
  exact Draft.eq_of_error? (Draft.get_eq_ok.1 hq).1

/-- A draft without items is one statement, and it is sent. -/
theorem build_of_statements {σ : Type} {q : Insert} {p : Placeholder} {sent : List Statement}
    (hnames : ¬q.usesNames = true) (h : statements ⟨q, none⟩ p = .ok sent)
    (exec : Statement → Run σ WriteResult) (query : Statement → Run σ (List Row)) :
    ∃ st, build (forExecutor ⟨q, none⟩ (positional p exec query)) = .ok st ∧ sent = [st] := by
  rw [statements_of_rows hnames] at h
  obtain ⟨st, hst, h⟩ := bind_eq_ok.1 h
  exact ⟨st, hst, (pure_eq_ok.1 h).symm⟩

/-- **An INSERT is refused before anything is sent, or it is sent in order.**  The calls to
an execution are kept beside its session, which changes nothing else.  A draft that is
refused, by an error of its calls, of its columns and rows or of its markers, makes no call.
A draft of positional rows, or with values of its own in ON DUPLICATE KEY UPDATE, makes one
call, and the answer to it is the answer of the run.  A draft of maps or records makes one
call for each item in order.  If all of them are answered with a result, the run returns
the id of the first one and the sum of the rows, where 64 bits hold it; the first one that
is answered with an error is the last one made, and the run returns this error. -/
theorem exec_sends_in_order {σ : Type} (d : Draft Insert) (p : Placeholder)
    (exec : Statement → Run σ WriteResult) (query : Statement → Run σ (List Row))
    (query' : Statement → Run (σ × Calls) (List Row)) (s : Session (σ × Calls)) :
    let run := InsertDraft.exec d (positional p (recording exec) query') s
    (run.1, run.2.forget) = InsertDraft.exec d (positional p exec query) s.forget ∧
      ∃ calls : Calls, run.2.backend.2 = s.backend.2 ++ calls ∧
        (∀ e, statements d p = .error e → run.1 = .error e ∧ calls = []) ∧
        ∀ sent, statements d p = .ok sent →
          (d.state.usesNames = false →
            ∃ st, build (forExecutor d (positional p exec query)) = .ok st ∧ sent = [st] ∧
              calls = [(st, run.1)]) ∧
          (d.state.usesNames = true →
            (∃ n, buildNamed d = .ok n ∧ d.state.namedItems = .ok n.items ∧ n.items ≠ [] ∧
              List.Forall₂ (Binds p n.sql n.tag) n.items sent) ∧
            ((∃ (answered : List (Statement × WriteResult)) (total : WriteResult),
                sent = answered.map Prod.fst ∧ calls = accepted answered ∧ run.1 = .ok total ∧
                total.lastInsertId =
                  (answered.map Prod.snd).head?.bind WriteResult.lastInsertId ∧
                (rowsOf (answered.map Prod.snd) < 0x10000000000000000 →
                  total.rowsAffected.toNat = rowsOf (answered.map Prod.snd))) ∨
              ∃ (answered : List (Statement × WriteResult)) (st : Statement)
                (rest : List Statement) (e : SqlError),
                sent = answered.map Prod.fst ++ st :: rest ∧
                calls = accepted answered ++ [(st, .error e)] ∧ run.1 = .error e)) := by
  intro run
  obtain ⟨logged, hexec⟩ := exec_eq_sendAll d p
  let t : Session (σ × Calls) := { s with events := s.events ++ logged }
  cases hsettled : statements d p with
  | error e =>
      have hrun : run = (.error e, t) := by
        simp only [run, hexec, hsettled]
        rfl
      have hplain : InsertDraft.exec d (positional p exec query) s.forget =
          (.error e, t.forget) := by
        rw [hexec, hsettled]
        rfl
      rw [hrun, hplain]
      refine ⟨rfl, [], (List.append_nil _).symm, fun e' he => ⟨?_, rfl⟩, fun sent hsent => ?_⟩
      · rw [Except.error.inj he]
      · exact absurd hsent (by simp)
  | ok sent =>
      have hrun : run = sendAll (recording exec) 0 sent ⟨none, 0⟩ t := by
        simp only [run, hexec, hsettled]
        rfl
      have hplain : InsertDraft.exec d (positional p exec query) s.forget =
          sendAll exec 0 sent ⟨none, 0⟩ t.forget := by
        rw [hexec, hsettled]
        rfl
      obtain ⟨calls, hcalls, hsent⟩ := sendAll_recording exec 0 sent ⟨none, 0⟩ t
      rw [← hrun] at hcalls hsent
      have hd := eq_of_statements hsettled
      refine ⟨?_, calls, hcalls, fun e he => absurd he (by simp), fun found hfound => ?_⟩
      · rw [hrun, hplain]
        exact forget_sendAll exec 0 sent ⟨none, 0⟩ t
      · obtain rfl := Except.ok.inj hfound
        rw [hd] at hsettled
        refine ⟨fun hrows => ?_, fun hnames => ⟨?_, ?_⟩⟩
        · obtain ⟨st, hst, rfl⟩ := build_of_statements (by simp [hrows]) hsettled exec query
          rw [hd]
          exact ⟨st, hst, rfl, hsent.calls_single⟩
        · obtain ⟨n, hn, hitems, hne, hbinds⟩ := binds_of_statements hnames hsettled
          rw [hd]
          exact ⟨n, hn, hitems, hne, hbinds⟩
        · exact hsent.outcome

end InsertDraft

end BoundSql
