import BoundSql.Proofs.Identifier.Accepted
import BoundSql.Proofs.Statement.InsertPresence
import BoundSql.Proofs.Statement.NamedInsert

/-!
# What REPLACE excludes

REPLACE goes neither with IGNORE nor with HIGH_PRIORITY nor with ON DUPLICATE KEY UPDATE, in
whatever order they are asked for.  A call that asks for one of them, or for REPLACE itself,
makes a statement that is known beforehand (`Insert.Call.effect?`).  On a statement that has
nothing REPLACE excludes it is refused just when the statement it would make has something,
or when its own arguments are refused (`Insert.apply_eq_ok_of_effect`).  So no calls lead to
a REPLACE with any of the three, and none is finished (`InsertDraft.replace_excludes`).
-/

namespace BoundSql

/-- An assignment to a column with a name, of a value or of SQL that is not blank and has no
marker. -/
structure Assignment.Valid (a : Assignment) : Prop where
  parts : ∀ part ∈ a.column.parts, part ≠ "" ∧ '\x00' ∉ part.toList
  raw : ∀ sql, a.assigned = .raw sql → Text.allBlank sql = false ∧ Marker.count sql = 0

namespace Insert

/-- The check of an assignment accepts just the valid ones. -/
theorem validateAssignment_eq_ok {a : Assignment} : validateAssignment a = .ok () ↔ a.Valid := by
  have hcolumn : (a.column.validate.mapError
      (SqlError.inContext "INSERT: ON DUPLICATE KEY UPDATE column") = .ok ()) ↔
      ∀ part ∈ a.column.parts, part ≠ "" ∧ '\x00' ∉ part.toList :=
    mapError_eq_ok.trans Identifier.validate_eq_ok
  rw [validateAssignment, bind_unit_eq_ok, hcolumn]
  obtain ⟨column, v | sql⟩ := a
  · exact ⟨fun h => ⟨h.1, nofun⟩, fun h => ⟨h.parts, rfl⟩⟩
  · simp only [throw, throwThe, MonadExceptOf.throw, guard_eq_ok, pure_eq_ok, Decidable.not_not,
      Bool.not_eq_true, and_true]
    refine ⟨fun h => ⟨h.1, fun raw hraw => ?_⟩, fun h => ⟨h.parts, h.raw sql rfl⟩⟩
    obtain rfl := Assigned.raw.inj hraw
    exact h.2

/-! ## Statements without a clash -/

variable {q r : Insert} {c : Call}

/-- A REPLACE has nothing that it excludes. -/
def Consistent (q : Insert) : Prop :=
  q.mode = .replace → q.assignments = [] ∧ q.ignore = false ∧ q.priority? ≠ some .high

/-- What a REPLACE has and excludes, the first of it. -/
def clash? (q : Insert) : Option String :=
  if q.mode = .insert then none
  else if !q.assignments.isEmpty then some "ON DUPLICATE KEY UPDATE"
  else if q.ignore then some "IGNORE"
  else if q.priority? = some .high then some "HIGH_PRIORITY"
  else none

/-- A statement without a clash has nothing that its mode excludes. -/
theorem clash?_eq_none : q.clash? = none ↔ q.Consistent := by
  rw [clash?, Consistent]
  cases q.mode <;> cases q.ignore <;> cases hassignments : q.assignments <;>
    simp

/-- The statement that a call is to make by which verb, modifiers or assignments change. -/
def Call.effect? (q : Insert) : Call → Option Insert
  | .ignore => some { q with ignore := true }
  | .priority p => some { q with priority? := some p }
  | .replace => some { q with mode := .replace }
  | .update column assigned =>
    some { q with assignments := q.assignments ++ [⟨column, assigned⟩] }
  | _ => none

/-- What is checked of a call by itself. -/
def Call.Valid : Call → Prop
  | .update column assigned => Assignment.Valid ⟨column, assigned⟩
  | _ => True

/-- **An accepted call makes the statement it is to make,** and this is without a clash. -/
theorem apply_eq_ok_of_effect (hq : q.Consistent) (hr : c.effect? q = some r) {b : Insert} :
    q.apply c = .ok b ↔ r.Consistent ∧ c.Valid ∧ r = b := by
  cases c with
  | ignore =>
      obtain rfl := Option.some.inj hr
      rw [apply_ignore_eq_ok]
      simp [Consistent, Call.Valid]
  | priority p =>
      obtain rfl := Option.some.inj hr
      have hconsistent : Consistent { q with priority? := some p } ↔
          ¬(q.mode = .replace ∧ p = .high) := by
        rw [not_and, Consistent]
        refine forall_congr' fun hmode => ?_
        simp [hq hmode]
      rw [apply_priority_eq_ok, hconsistent]
      simp [Call.Valid]
  | replace =>
      obtain rfl := Option.some.inj hr
      rw [apply_replace_eq_ok]
      simp [Consistent, Call.Valid, and_assoc]
  | update column assigned =>
      obtain rfl := Option.some.inj hr
      rw [apply_update_eq_ok, validateAssignment_eq_ok]
      simp [Consistent, Call.Valid]
  | settings | dialect | tag | columns | rows | maps | records => cases hr

/-- A statement with a clash is a REPLACE. -/
theorem mode_of_clash {what : String} (h : q.clash? = some what) : q.mode = .replace := by
  rw [clash?] at h
  cases hmode : q.mode with
  | insert => simp [hmode] at h
  | replace => rfl

/-- A call that is to make a statement with a clash is refused for it. -/
theorem apply_of_clash (hq : q.Consistent) (hr : c.effect? q = some r) {what : String}
    (hclash : r.clash? = some what) : q.apply c = .error (notWithReplace what) := by
  have hmode := mode_of_clash hclash
  cases c with
  | ignore =>
      obtain rfl := Option.some.inj hr
      have hnone := hq hmode
      simp_all [clash?, apply]
  | priority p =>
      obtain rfl := Option.some.inj hr
      have hnone := hq hmode
      simp_all [clash?, apply]
  | replace =>
      obtain rfl := Option.some.inj hr
      simp only [clash?, reduceCtorEq, if_false] at hclash
      rw [apply]
      split_ifs at hclash <;> simp_all
  | update column assigned =>
      obtain rfl := Option.some.inj hr
      have hnone := hq hmode
      simp_all [clash?, apply]
  | settings | dialect | tag | columns | rows | maps | records => cases hr

/-- **Every accepted call keeps a statement without a clash.** -/
theorem consistent_apply (q : Insert) (c : Call) (r : Insert) (hq : q.Consistent)
    (h : q.apply c = .ok r) : r.Consistent := by
  cases c with
  | settings s | dialect d | tag t =>
      obtain rfl := Except.ok.inj h
      exact hq
  | rows rows | maps maps | records records =>
      obtain ⟨_, -, h⟩ := bind_eq_ok.1 h
      obtain rfl := pure_eq_ok.1 h
      exact hq
  | columns names =>
      obtain ⟨-, rfl⟩ := apply_columns_eq_ok.1 h
      exact hq
  | ignore | priority p | replace | update column assigned =>
      exact ((apply_eq_ok_of_effect hq rfl).1 h).2.2 ▸ ((apply_eq_ok_of_effect hq rfl).1 h).1

/-! ## Finished statements -/

/-- The text of a REPLACE with its groups. -/
def ReplaceText (q : Insert) (columns : List Identifier) (groups sql : String) : Prop :=
  ∃ word ∈ ["", " LOW_PRIORITY", " DELAYED"],
    sql = "REPLACE" ++ word ++ " INTO " ++ q.table.toSql q.settings.dialect.quote ++ " (" ++
      ", ".intercalate (columns.map (·.toSql q.settings.dialect.quote)) ++ ") VALUES " ++ groups

/-- A statement that begins with REPLACE is one. -/
theorem mode_of_headText {columns : List Identifier} {groups update rest : String}
    (h : q.headText columns ++ groups ++ update = "REPLACE" ++ rest) : q.mode = .replace := by
  cases hmode : q.mode with
  | replace => rfl
  | insert =>
      have hlist := congrArg String.toList h
      simp [headText, hmode, InsertMode.toSql] at hlist

/-- **A REPLACE without a clash has none of what it excludes.** -/
theorem replaceText_of_consistent (hq : q.Consistent) (hmode : q.mode = .replace)
    (columns : List Identifier) (groups : String) (p : Placeholder) (index : Nat) :
    q.ReplaceText columns groups
      (q.headText columns ++ groups ++
        updateText q.settings.dialect.quote p index q.assignments) := by
  obtain ⟨hassignments, hignore, hpriority⟩ := hq hmode
  refine ⟨(q.priority?.map fun p => " " ++ p.toSql).getD "", ?_, ?_⟩
  · cases hp : q.priority? with
    | none => simp
    | some p =>
        cases p with
        | low => exact List.mem_cons_of_mem _ List.mem_cons_self
        | high => exact absurd hp hpriority
        | delayed => simp [Priority.toSql]
  · rw [headText, hmode, hignore, hassignments, updateText]
    simp [InsertMode.toSql]

/-- The text of a statement with named markers has a marker for each column. -/
theorem sql_of_namedStatement {n : NamedStatement} (h : q.namedStatement = .ok n) :
    ∃ columns, q.namedColumns = .ok columns ∧
      n.sql = q.headText columns ++
        ("(" ++ ", ".intercalate (columns.map fun c => ":" ++ c.name) ++ ")") ++
          updateText q.settings.dialect.quote q.settings.dialect.placeholder 0 q.assignments := by
  obtain ⟨items, -, h⟩ := bind_eq_ok.1 h
  obtain ⟨columns, hcolumns, h⟩ := bind_eq_ok.1 h
  obtain ⟨-, h⟩ := bind_unit_eq_ok.1 h
  simp only at h
  split at h
  · obtain rfl := pure_eq_ok.1 h
    have hparams :
        (Template.join ", " (columns.map fun c => [.text (":" ++ c.name)])).params = [] := by
      rw [Template.params_join, List.flatMap_map, List.flatMap_eq_nil_iff]
      exact fun _ _ => rfl
    refine ⟨columns, hcolumns, ?_⟩
    simp [Template.emit, namedTemplate, Template.sqlFrom_append, Template.sqlFrom,
      Template.params_append, params_head, hparams, sqlFrom_head, Template.sqlFrom_join,
      Template.sqls_texts, sqlFrom_updateTemplate, String.append_assoc]
  · exact absurd h (by simp [throw, throwThe, MonadExceptOf.throw])

end Insert

namespace InsertDraft

open BoundSql.Insert

/-- **REPLACE is never combined with what it excludes.**  After any calls, in whatever order,
the statement has no clash, and a finished one that begins with REPLACE, with places or with
named markers, is this word, at most LOW_PRIORITY or DELAYED, the table, the columns and the
rows, with nothing behind them.  On a draft without an error a call for a verb, a modifier or
an assignment makes what it is to make, unless this has a clash, which is then the error, or
the call itself is not valid. -/
theorem replace_excludes (mode : InsertMode) (table : String) (calls : List Call) :
    let d := ofCalls mode table calls
    let q := d.state
    q.Consistent ∧
      (∀ st rest, build d = .ok st → st.sql = "REPLACE" ++ rest →
        q.ReplaceText q.rowColumns (", ".intercalate ((List.range q.source.entries.length).map
          fun i => placesText q.settings.dialect.placeholder (i * q.rowColumns.length)
            q.rowColumns.length)) st.sql) ∧
      (∀ named rest, buildNamed d = .ok named → named.sql = "REPLACE" ++ rest →
        ∃ columns, q.namedColumns = .ok columns ∧ q.ReplaceText columns
          ("(" ++ ", ".intercalate (columns.map fun c => ":" ++ c.name) ++ ")") named.sql) ∧
      ∀ c r, d.error? = none → c.effect? q = some r →
        ((ofCalls mode table (calls ++ [c])).error? = none ↔ r.Consistent ∧ c.Valid) ∧
          (r.Consistent → c.Valid → ofCalls mode table (calls ++ [c]) = ⟨r, none⟩) ∧
          (¬r.Consistent → ∃ what, r.clash? = some what ∧
            ofCalls mode table (calls ++ [c]) =
              { d with error? := some (notWithReplace what) }) := by
  intro d q
  have hq : q.Consistent := ofCalls_preserves (fun _ _ _ => ⟨rfl, rfl, nofun⟩)
    consistent_apply mode table calls
  refine ⟨hq, fun st rest hst hrest => ?_, fun named rest hnamed hrest => ?_,
    fun c r hd hr => ?_⟩
  · obtain ⟨found, hfound, hst⟩ := bind_eq_ok.1 hst
    obtain ⟨-, rfl⟩ := Draft.get_eq_ok.1 hfound
    have hsql := sql_of_statement hst
    rw [hsql] at hrest ⊢
    exact replaceText_of_consistent hq (mode_of_headText hrest) ..
  · obtain ⟨found, hfound, hnamed⟩ := bind_eq_ok.1 hnamed
    obtain ⟨-, rfl⟩ := Draft.get_eq_ok.1 hfound
    obtain ⟨columns, hcolumns, hsql⟩ := sql_of_namedStatement hnamed
    rw [hsql] at hrest ⊢
    exact ⟨columns, hcolumns, replaceText_of_consistent hq (mode_of_headText hrest) ..⟩
  · rw [ofCalls_concat]
    have hmade : r.Consistent → c.Valid → call d c = ⟨r, none⟩ := fun hr' hc =>
      Draft.step_eq_of_ok hd ((apply_eq_ok_of_effect hq hr).2 ⟨hr', hc, rfl⟩)
    refine ⟨⟨fun h => ?_, fun ⟨hr', hc⟩ => ?_⟩, hmade, fun hclash => ?_⟩
    · obtain ⟨-, b, hb, -⟩ := Draft.exists_of_step h
      obtain ⟨hr', hc, -⟩ := (apply_eq_ok_of_effect hq hr).1 hb
      exact ⟨hr', hc⟩
    · rw [hmade hr' hc]
    · rw [← clash?_eq_none] at hclash
      obtain ⟨what, hwhat⟩ := Option.ne_none_iff_exists'.1 hclash
      exact ⟨what, hwhat, Draft.step_eq_of_error hd (apply_of_clash hq hr hwhat)⟩

/-- HIGH_PRIORITY that DELAYED has taken the place of does not stand against REPLACE, which
then refuses IGNORE. -/
theorem replace_excludes_delayed :
    let calls : List Call := [
      .columns [.single "a"], .priority .high, .priority .delayed, .rows [[.int 1]], .replace]
    let d := ofCalls .insert "t" calls
    (∃ st, build d = .ok st ∧
      d.state.ReplaceText [.single "a"] "(?)" st.sql) ∧
      (ofCalls .insert "t" (calls ++ [.ignore])).error? = some (notWithReplace "IGNORE") ∧
      (ofCalls .insert "t" (calls ++ [.priority .low])).error? = none := by
  intro calls d
  obtain ⟨hconsistent, hbuild, -, hcalls⟩ := replace_excludes .insert "t" calls
  have hst : build d = .ok _ := rfl
  refine ⟨⟨_, hst, hbuild _ _ hst rfl⟩, ?_, ?_⟩
  · have hclash : ¬Consistent { d.state with ignore := true } := fun h =>
      Bool.noConfusion (h rfl).2.1
    obtain ⟨what, hwhat, herror⟩ := (hcalls .ignore _ rfl rfl).2.2 hclash
    obtain rfl := Option.some.inj hwhat
    rw [herror]
  · exact (hcalls (.priority .low) _ rfl rfl).1.2 ⟨fun _ => ⟨rfl, rfl, nofun⟩, trivial⟩

end InsertDraft

end BoundSql
