import BoundSql.Proofs.Statement.InsertMasking
import BoundSql.Proofs.Statement.SelectMasking

/-!
# Values never reach SQL

An INSERT statement sends a fixed sequence of texts (`Insert.texts`), one for each item
if it is sent with named markers and one in all if not.  A run hands an executor these
texts in order: all of them if it succeeds, the first few if it ends early
(`InsertDraft.hands_exec`).  The texts are those of the masked statement.

With what is known of the calls, no value has a part in any text: two builders whose
calls differ in values alone build one text, and send the same texts.
-/

namespace BoundSql

namespace Executor

variable {σ α β : Type}

/-- An execution that also notes the texts that it is handed. -/
def noting (exec : Statement → Run σ WriteResult) (q : Statement) :
    Run (σ × List String) WriteResult := fun s =>
  let (answer, t) := exec q { s with backend := s.backend.1 }
  (answer, { t with backend := (t.backend, s.backend.2 ++ [q.sql]) })

/-- An execution that looks at nothing but the text of a statement. -/
def Blind (exec : Statement → Run σ WriteResult) : Prop :=
  ∀ q q' : Statement, q.sql = q'.sql → exec q = exec q'

/-- A run notes these texts in order: all of them if it succeeds, the first few if it
fails. -/
def Hands (r : Run (σ × List String) α) (texts : List String) : Prop :=
  ∀ s, ∃ handed, (r s).2.backend.2 = s.backend.2 ++ handed ∧ handed <+: texts ∧
    ∀ a, (r s).1 = .ok a → handed = texts

/-- A run that does nothing notes no text. -/
theorem hands_pure (a : α) : Hands (pure a : Run (σ × List String) α) [] := fun _ =>
  ⟨[], (List.append_nil _).symm, List.prefix_refl _, fun _ _ => rfl⟩

/-- A run that only fails notes nothing, which is the beginning of any texts. -/
theorem hands_error (e : SqlError) (texts : List String) :
    Hands (Run.ofExcept (.error e) : Run (σ × List String) α) texts := fun _ =>
  ⟨[], (List.append_nil _).symm, List.nil_prefix, fun _ h => absurd h (by simp [Run.ofExcept])⟩

/-- Two steps hand out the texts of the first and then those of the second. -/
theorem hands_bind {r : Run (σ × List String) α} {f : α → Run (σ × List String) β}
    {texts texts' : List String} (hr : Hands r texts) (hf : ∀ a, Hands (f a) texts') :
    Hands (r >>= f) (texts ++ texts') := by
  intro s
  obtain ⟨handed, hnoted, hprefix, hall⟩ := hr s
  rcases h : r s with ⟨e | a, t⟩
  · have hrun : (r >>= f) s = (.error e, t) := by
      simp only [bind, Run.bind, h]
    rw [h] at hnoted
    rw [hrun]
    exact ⟨handed, hnoted, hprefix.trans (List.prefix_append _ _), fun _ h => absurd h (by simp)⟩
  · have hrun : (r >>= f) s = f a t := by
      simp only [bind, Run.bind, h]
    rw [h] at hnoted hall
    obtain rfl := hall a rfl
    obtain ⟨more, hmore, hmoreprefix, hmoreall⟩ := hf a t
    rw [hrun]
    refine ⟨handed ++ more, ?_, (List.prefix_append_right_inj _).2 hmoreprefix, fun b hb => ?_⟩
    · rw [hmore, hnoted, List.append_assoc]
    · rw [hmoreall b hb]

/-- What was computed without the session is handed to nobody. -/
theorem hands_ofExcept_bind {x : Except SqlError α} {f : α → Run (σ × List String) β}
    {texts : List String} (h : ∀ a, x = .ok a → Hands (f a) texts) :
    Hands (Run.ofExcept x >>= f) texts := by
  cases x with
  | error e => exact hands_error e texts
  | ok a => exact h a rfl

/-- Logging hands out no text. -/
theorem hands_log_bind {e : Event} {f : Unit → Run (σ × List String) β} {texts : List String}
    (h : Hands (f ()) texts) : Hands (Run.log e >>= f) texts := by
  intro s
  exact h { s with events := s.events ++ [e] }

/-- A statement that is executed hands out its text. -/
theorem hands_noting (exec : Statement → Run σ WriteResult) (q : Statement) :
    Hands (noting exec q) [q.sql] := fun _ =>
  ⟨[q.sql], rfl, List.prefix_refl _, fun _ _ => rfl⟩

/-! ## Statements with named markers -/

/-- The texts that the items of a statement with named markers are sent as, up to the
first item that cannot be bound. -/
def itemTexts (placeholder : Placeholder) (sql tag : String) : Nat → List NamedItem → List String
  | _, [] => []
  | index, item :: rest =>
    match (do Template.ofNamed sql (← item.toMap tag index) : Except SqlError Template) with
    | .ok t => (t.emit placeholder).sql :: itemTexts placeholder sql tag (index + 1) rest
    | .error _ => []

/-- Items hand out the texts that they are bound to, in order. -/
theorem hands_execItems (placeholder : Placeholder) (exec : Statement → Run σ WriteResult)
    (sql tag : String) (index : Nat) (items : List NamedItem) (total : WriteResult) :
    Hands (execItems placeholder (noting exec) sql tag index items total)
      (itemTexts placeholder sql tag index items) := by
  induction items generalizing index total with
  | nil => exact hands_pure total
  | cons item rest ih =>
      refine hands_ofExcept_bind fun lookup hlookup => hands_ofExcept_bind fun t ht => ?_
      have htexts : itemTexts placeholder sql tag index (item :: rest) =
          [(t.emit placeholder).sql] ++ itemTexts placeholder sql tag (index + 1) rest := by
        simp only [itemTexts, hlookup, bind, Except.bind, ht, List.singleton_append]
      rw [htexts]
      exact hands_bind (hands_noting exec _) fun result => ih _ _

/-- A statement with named markers hands out the texts of its items. -/
theorem hands_execNamed (placeholder : Placeholder) (exec : Statement → Run σ WriteResult)
    (n : NamedStatement) : Hands (execNamed placeholder (noting exec) n)
      (itemTexts placeholder n.sql n.tag 0 n.items) := by
  rw [execNamed]
  split
  · exact hands_error _ _
  · exact hands_execItems placeholder exec n.sql n.tag 0 n.items _

/-- The map of a masked item is its map, masked. -/
theorem toMap_mask (item : NamedItem) (tag : String) (index : Nat) :
    item.mask.toMap tag index = (item.toMap tag index).map KeyMap.mask := by
  cases item with
  | map m => rfl
  | record r =>
      rw [NamedItem.mask, NamedItem.toMap, NamedItem.toMap, r.fieldsAt_mask]
      rcases r.fieldsAt tag index with e | fields
      · rfl
      · exact congrArg Except.ok (KeyMap.mask_ofList fields).symm

/-- The template of an item, of a masked item the masked one. -/
theorem ofNamed_toMap_mask (sql tag : String) (index : Nat) (item : NamedItem) :
    (do Template.ofNamed sql (← item.mask.toMap tag index) : Except SqlError Template) =
      (do Template.ofNamed sql (← item.toMap tag index) : Except SqlError Template).map
        Template.mask := by
  rw [toMap_mask]
  rcases item.toMap tag index with e | lookup
  · rfl
  · exact Template.ofNamed_mask sql lookup

/-- The texts that items are bound to do not depend on their values. -/
theorem itemTexts_mask (placeholder : Placeholder) (sql tag : String) (index : Nat)
    (items : List NamedItem) :
    itemTexts placeholder sql tag index (items.map NamedItem.mask) =
      itemTexts placeholder sql tag index items := by
  induction items generalizing index with
  | nil => rfl
  | cons item rest ih =>
      rw [List.map_cons, itemTexts, itemTexts, ofNamed_toMap_mask, ih]
      rcases (do Template.ofNamed sql (← item.toMap tag index) : Except SqlError Template)
        with e | t
      · rfl
      · exact congrArg (· :: _) (Template.sqlFrom_mask placeholder 0 t)

/-- Where values are not seen, masked items are executed as the items are. -/
theorem execItems_mask {exec : Statement → Run σ WriteResult} (hblind : Blind exec)
    (placeholder : Placeholder) (sql tag : String) (index : Nat) (items : List NamedItem)
    (total : WriteResult) :
    execItems placeholder exec sql tag index (items.map NamedItem.mask) total =
      execItems placeholder exec sql tag index items total := by
  induction items generalizing index total with
  | nil => rfl
  | cons item rest ih =>
      rw [List.map_cons, execItems, execItems, toMap_mask]
      rcases item.toMap tag index with e | lookup
      · rfl
      · show (Run.ofExcept (Template.ofNamed sql lookup.mask) >>= _ : Run σ WriteResult) =
          Run.ofExcept (Template.ofNamed sql lookup) >>= _
        rw [Template.ofNamed_mask]
        rcases Template.ofNamed sql lookup with e | t
        · rfl
        · have hexec : exec (t.mask.emit placeholder) = exec (t.emit placeholder) :=
            hblind _ _ (Template.sqlFrom_mask placeholder 0 t)
          show (exec (t.mask.emit placeholder) >>= _ : Run σ WriteResult) =
            exec (t.emit placeholder) >>= _
          rw [hexec]
          exact congrArg (exec (t.emit placeholder) >>= ·) (funext fun result => ih _ _)

/-- Where values are not seen, a masked statement is executed as the statement is. -/
theorem execNamed_mask {exec : Statement → Run σ WriteResult} (hblind : Blind exec)
    (placeholder : Placeholder) (n : NamedStatement) :
    execNamed placeholder exec n.mask = execNamed placeholder exec n := by
  rw [execNamed, execNamed, NamedStatement.mask, List.isEmpty_map, execItems_mask hblind]

end Executor

open Executor

/-- The texts that a statement is sent as in a style of placeholders; none if it is
refused. -/
def Insert.texts (q : Insert) (placeholder : Placeholder) : List String :=
  if q.usesNames then
    match q.namedStatement, q.resolve with
    | .ok n, .ok _ => itemTexts placeholder n.sql n.tag 0 n.items
    | _, _ => []
  else
    match ({ q with settings := q.settings.withPlaceholder placeholder } : Insert).statement with
    | .ok st => [st.sql]
    | .error _ => []

/-- The texts that an INSERT hands out do not depend on its values. -/
theorem Insert.texts_mask (q : Insert) (placeholder : Placeholder) :
    q.mask.texts placeholder = q.texts placeholder := by
  have hstatement := statement_mask { q with settings := q.settings.withPlaceholder placeholder }
  rw [texts, texts, usesNames_mask, namedStatement_mask, resolve_mask]
  split
  · rcases q.namedStatement with e | n
    · rfl
    · rcases q.resolve with e | resolved
      · rfl
      · exact itemTexts_mask placeholder n.sql n.tag 0 n.items
  · rw [show ({ q.mask with settings := q.mask.settings.withPlaceholder placeholder } : Insert) =
      mask { q with settings := q.settings.withPlaceholder placeholder } from rfl, hstatement]
    rcases Insert.statement { q with settings := q.settings.withPlaceholder placeholder }
      with e | st
    · rfl
    · rfl

namespace InsertDraft

variable {σ : Type}

/-- **A statement hands an executor its texts in order.** -/
theorem hands_exec (q : Insert) (placeholder : Placeholder) (exec : Statement → Run σ WriteResult)
    (query : Statement → Run (σ × List String) (List Row)) :
    Hands (InsertDraft.exec ⟨q, none⟩ (positional placeholder (noting exec) query))
      (q.texts placeholder) := by
  rw [InsertDraft.exec, Insert.texts]
  simp only
  split
  · refine hands_ofExcept_bind fun n hn => hands_ofExcept_bind fun resolved hresolved => ?_
    have hn : q.namedStatement = .ok n := hn
    rw [hn, hresolved]
    exact hands_log_bind (hands_execNamed placeholder exec n)
  · refine hands_ofExcept_bind fun st hst => ?_
    have hst : ({ q with settings := q.settings.withPlaceholder placeholder } : Insert).statement =
        .ok st := hst
    rw [hst]
    exact hands_log_bind (hands_noting exec st)

/-- An executor that looks at the text alone does not tell a statement from the masked
one. -/
theorem exec_mask {exec : Statement → Run σ WriteResult} (hblind : Blind exec) (q : Insert)
    (placeholder : Placeholder) (query : Statement → Run σ (List Row)) :
    InsertDraft.exec ⟨q.mask, none⟩ (positional placeholder exec query) =
      InsertDraft.exec ⟨q, none⟩ (positional placeholder exec query) := by
  have hnamed : buildNamed ⟨q.mask, none⟩ = (buildNamed ⟨q, none⟩).map NamedStatement.mask :=
    q.namedStatement_mask
  have hbuild : build (forExecutor ⟨q.mask, none⟩ (positional placeholder exec query)) =
      (build (forExecutor ⟨q, none⟩ (positional placeholder exec query))).map Statement.mask :=
    Insert.statement_mask { q with settings := q.settings.withPlaceholder placeholder }
  rw [InsertDraft.exec, InsertDraft.exec, hnamed, hbuild]
  simp only [q.usesNames_mask, q.resolve_mask]
  split
  · rcases buildNamed ⟨q, none⟩ with e | n
    · rfl
    · rcases q.resolve with e | resolved
      · rfl
      · show (Run.log (.compiled .namedInsert n.sql (n.items.map NamedItem.mask).length) >>=
            fun _ => execNamed placeholder exec n.mask) = _
        rw [List.length_map, execNamed_mask hblind]
        rfl
  · rcases build (forExecutor ⟨q, none⟩ (positional placeholder exec query)) with e | st
    · rfl
    · show (Run.log (.compiled .insert st.sql (st.params.map Value.mask).length) >>=
          fun _ => exec st.mask) = _
      rw [List.length_map, hblind st.mask st rfl]
      rfl

end InsertDraft

namespace Builder

/-- Builders whose calls differ in values alone. -/
inductive Alike : Builder → Builder → Prop
  | select (table : String) {calls calls' : List Select.Call}
      (h : List.Forall₂ Select.Call.Alike calls calls') :
      Alike (.select table calls) (.select table calls')
  | insert (mode : InsertMode) (table : String) {calls calls' : List Insert.Call}
      (h : List.Forall₂ Insert.Call.Alike calls calls') :
      Alike (.insert mode table calls) (.insert mode table calls')

/-- The first error of the calls. -/
def error? : Builder → Option SqlError
  | .select table calls => (SelectDraft.ofCalls table calls).error?
  | .insert mode table calls => (InsertDraft.ofCalls mode table calls).error?

/-- The INSERT statement that is built, if it is one. -/
def insert? : Builder → Option (Draft Insert)
  | .select .. => none
  | .insert mode table calls => some (InsertDraft.ofCalls mode table calls)

/-- **No value has a part in the text.**  Two builders without an error whose calls
differ in values alone build statements that are the same when masked: the same text
with as many parameters, or the same refusal.  An INSERT statement sent to an executor
that knows placeholders by position only hands it the same texts in both runs, all of
them if the run succeeds and the first few if it fails, and to an executor that looks
at the text alone the runs are one. -/
theorem mask_build_eq_of_alike {b b' : Builder} (h : b.Alike b') (hb : b.error? = none)
    (hb' : b'.error? = none) :
    b.build.map Statement.mask = b'.build.map Statement.mask ∧
      ∀ d ∈ b.insert?, ∀ d' ∈ b'.insert?, ∀ placeholder : Placeholder,
        (∃ texts, ∀ (σ : Type) (exec : Statement → Run σ WriteResult)
          (query : Statement → Run (σ × List String) (List Row)),
            Hands (InsertDraft.exec d (positional placeholder (noting exec) query)) texts ∧
              Hands (InsertDraft.exec d' (positional placeholder (noting exec) query)) texts) ∧
          ∀ (σ : Type) (exec : Statement → Run σ WriteResult)
            (query : Statement → Run σ (List Row)), Blind exec →
              InsertDraft.exec d (positional placeholder exec query) =
                InsertDraft.exec d' (positional placeholder exec query) := by
  cases h with
  | select table hcalls => exact ⟨SelectDraft.mask_build hcalls hb hb', by simp [insert?]⟩
  | @insert mode table calls calls' hcalls =>
      have hstate := InsertDraft.mask_state hcalls hb hb'
      have hd :=
        Draft.eq_of_error? (show (InsertDraft.ofCalls mode table calls).error? = none from hb)
      have hd' :=
        Draft.eq_of_error? (show (InsertDraft.ofCalls mode table calls').error? = none from hb')
      rw [insert?, insert?, build, build, hd, hd']
      generalize (InsertDraft.ofCalls mode table calls).state = q at hstate
      generalize (InsertDraft.ofCalls mode table calls').state = q' at hstate
      refine ⟨?_, ?_⟩
      · show q.statement.map Statement.mask = q'.statement.map Statement.mask
        rw [← q.statement_mask, ← q'.statement_mask, hstate]
      · intro d hd d' hd' placeholder
        obtain rfl := Option.mem_some.1 hd
        obtain rfl := Option.mem_some.1 hd'
        refine ⟨⟨q.texts placeholder, fun σ exec query => ⟨?_, ?_⟩⟩, fun σ exec query hblind => ?_⟩
        · exact InsertDraft.hands_exec q placeholder exec query
        · rw [← q.texts_mask, hstate, q'.texts_mask]
          exact InsertDraft.hands_exec q' placeholder exec query
        · rw [← InsertDraft.exec_mask hblind q, hstate, InsertDraft.exec_mask hblind q']

/-- The hypotheses of `mask_build_eq_of_alike` are satisfiable: two rows by key and an
assignment of SQL, sent with named markers, where one run has the text of an attack for
a value. -/
theorem mask_build_eq_of_alike_rows :
    let assign : Insert.Call := .update (Identifier.ofText "n") (.raw "n + 1")
    let b : Builder := .insert .insert "t"
      [.maps [.ofList [("a", .text "x"), ("n", .int 1)], .ofList [("a", .null), ("n", .int 2)]],
        assign]
    let b' : Builder := .insert .insert "t"
      [.maps
          [.ofList [("a", .text "'); --"), ("n", .null)], .ofList [("n", .int 0), ("a", .int 3)]],
        assign]
    (b.Alike b' ∧ b.error? = none ∧ b'.error? = none) ∧
      b.build.map Statement.mask = b'.build.map Statement.mask := by
  intro assign b b'
  have h : b.Alike b' := .insert .insert "t" (.cons (.maps rfl) (.cons (.same assign) .nil))
  have hb : b.error? = none := by rfl
  have hb' : b'.error? = none := by rfl
  exact ⟨⟨h, hb, hb'⟩, (mask_build_eq_of_alike h hb hb').1⟩

end Builder

end BoundSql
