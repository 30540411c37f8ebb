import BoundSql.Proofs.Execution.Delivery
import BoundSql.Proofs.Statement.InsertPresence
import BoundSql.Proofs.Template.NamedBinding

/-!
# What becomes of raw assignments

Raw SQL of ON DUPLICATE KEY UPDATE goes into a finished statement as it is.  An INSERT of maps
or records that is sent with named markers is scanned for these once more, and the scan does not
tell the columns from the raw SQL: a colon with a name behind it is taken for a marker there as
well (`InsertDraft.raw_sent_rewritten`).  Where ON DUPLICATE KEY UPDATE has no marker, and on the
path of positional rows always, what is sent has the raw SQL as it is and binds nothing for it,
and a draft is refused for other reasons only (`InsertDraft.raw_sent`).
-/

namespace BoundSql

namespace Named

/-- A text without markers is all characters to a scan. -/
theorem partsFrom_of_unmarked {cs : List Char}
    (h : ∀ before name, ¬MarkerAt none cs before name) : partsFrom none cs = cs.map .char := by
  refine partsFrom_eq_map fun part hpart => ?_
  cases part with
  | char c => exact ⟨c, rfl⟩
  | marker name =>
      obtain ⟨done, rest, hparts⟩ := List.append_of_mem hpart
      exact absurd ((markerAt_iff (by simp)).2 ⟨done, rest, hparts, rfl⟩) (h _ name)

/-- A text that is all characters to a scan has no markers. -/
theorem unmarked_of_partsFrom {cs : List Char} (h : partsFrom none cs = cs.map .char) :
    ∀ before name, ¬MarkerAt none cs before name := by
  intro before name hmarker
  obtain ⟨done, rest, hparts, -⟩ := (markerAt_iff (by simp)).1 hmarker
  have hmem : Part.marker name ∈ cs.map Part.char := by
    rw [← h, hparts]
    simp
  exact absurd hmem (by simp)

end Named

namespace Insert

variable {q : Insert} {columns : List Identifier} {rows : List (List Value)}

/-- Raw assignments assign no values. -/
theorem assignedValues_eq_nil {assignments : List Assignment}
    (h : ∀ a ∈ assignments, ∃ sql, a.assigned = .raw sql) : assignedValues assignments = [] := by
  induction assignments with
  | nil => rfl
  | cons a more ih =>
      obtain ⟨⟨sql, ha⟩, hmore⟩ := List.forall_mem_cons.1 h
      obtain ⟨column, assigned⟩ := a
      obtain rfl : assigned = .raw sql := ha
      exact ih hmore

/-- A statement that is sent with named markers binds nothing in ON DUPLICATE KEY UPDATE. -/
theorem assignedValues_of_usesNames (h : q.usesNames = true) :
    assignedValues q.assignments = [] := by
  refine assignedValues_eq_nil fun a ha => ?_
  have hraw := List.all_eq_true.1 (Bool.and_eq_true_iff.1 h).2 a ha
  cases hassigned : a.assigned with
  | value v => simp [hassigned] at hraw
  | raw sql => exact ⟨sql, rfl⟩

/-- With named markers no value is assigned, so assignments without markers are plain text. -/
theorem textClause_of_unmarked (hnames : q.usesNames = true)
    (h : ∀ before name, ¬Named.MarkerAt none q.updateTemplate.texts before name) : q.TextClause :=
  ⟨(params_updateTemplate_eq q).trans (assignedValues_of_usesNames hnames),
    Named.partsFrom_of_unmarked h⟩

/-! ## Text -/

/-- Each of the texts with commas between them is part of the whole. -/
theorem infix_intercalate (separator : String) {s : String} {ss : List String} (h : s ∈ ss) :
    s.toList <:+: (separator.intercalate ss).toList := by
  induction ss with
  | nil => exact absurd h List.not_mem_nil
  | cons first rest ih =>
      cases rest with
      | nil =>
          obtain rfl := List.mem_singleton.1 h
          have hone : separator.intercalate [s] = s := String.intercalate_singleton
          exact hone ▸ List.infix_rfl
      | cons next more =>
          rw [String.intercalate_cons_cons, String.toList_append, String.toList_append]
          rcases List.mem_cons.1 h with rfl | h
          · exact (List.prefix_append _ _).isInfix.trans (List.prefix_append _ _).isInfix
          · exact (ih h).trans (List.suffix_append _ _).isInfix

section

variable (quote : Char) (p : Placeholder)

/-- A raw assignment is one of the texts, word for word. -/
theorem mem_assignmentTexts {assignments : List Assignment} {column : Identifier} {sql : String}
    (h : ⟨column, .raw sql⟩ ∈ assignments) (index : Nat) :
    column.toSql quote ++ " = " ++ sql ∈ assignmentTexts quote p index assignments := by
  induction assignments generalizing index with
  | nil => exact absurd h List.not_mem_nil
  | cons a more ih =>
      rcases List.mem_cons.1 h with rfl | hmore
      · exact List.mem_cons_self
      · obtain ⟨other, v | text⟩ := a <;> exact List.mem_cons_of_mem _ (ih hmore _)

/-- **A raw assignment is part of the statement as it is.** -/
theorem infix_updateText {assignments : List Assignment} {column : Identifier} {sql : String}
    (h : ⟨column, .raw sql⟩ ∈ assignments) (index : Nat) :
    (column.toSql quote ++ " = " ++ sql).toList <:+:
      (updateText quote p index assignments).toList := by
  have hne : ¬assignments.isEmpty = true := fun hnil =>
    List.ne_nil_of_mem h (List.isEmpty_iff.1 hnil)
  rw [updateText, if_neg hne]
  refine (infix_intercalate ", " (mem_assignmentTexts quote p h index)).trans ?_
  rw [String.toList_append]
  exact (List.suffix_append _ _).isInfix

end

/-- **The statement of a group of rows** binds the rows and the values that are assigned, and
has its raw assignments as they are. -/
theorem emit_template (p : Placeholder) {group : List (List Value)}
    (h : ∀ row ∈ group, row.length = columns.length) :
    let st := (q.template columns group).emit p
    st.params = group.flatten ++ assignedValues q.assignments ∧
      st.sql = q.headText columns ++
        ", ".intercalate ((List.range group.length).map fun i =>
          placesText p (i * columns.length) columns.length) ++
        updateText q.settings.dialect.quote p (group.length * columns.length) q.assignments ∧
      ∀ column raw, ⟨column, .raw raw⟩ ∈ q.assignments →
        (column.toSql q.settings.dialect.quote ++ " = " ++ raw).toList <:+: st.sql.toList := by
  intro st
  have hsql := sqlFrom_template p q columns h
  refine ⟨params_template q columns group, hsql, fun column raw hmem => ?_⟩
  refine (infix_updateText q.settings.dialect.quote p hmem
    (group.length * columns.length)).trans ?_
  show _ <:+: (Template.sqlFrom p 0 (q.template columns group)).toList
  rw [hsql, String.toList_append]
  exact (List.suffix_append _ _).isInfix

end Insert

namespace InsertDraft

open Executor BoundSql.Insert

variable {q : Insert} {p : Placeholder} {columns : List Identifier} {rows : List (List Value)}

/-- The columns and rows of a statement that is sent with named markers, or why it is refused
whatever is assigned. -/
def namedRows (q : Insert) : Except SqlError (List Identifier × List (List Value)) := do
  let items ← q.namedItems
  validateNames (← q.namedColumns)
  let resolved ← q.resolve
  if items.isEmpty then throw (.validation "named execution requires at least one item")
  else return resolved

/-- Where only columns have markers, the items are bound to their rows. -/
theorem binds_rows (hquote : Quoting.opens q.settings.dialect.quote = true)
    (hclause : q.TextClause) {n : NamedStatement} (hn : q.namedStatement = .ok n)
    (hresolved : q.resolve = .ok (columns, rows)) :
    List.Forall₂ (Binds p n.sql n.tag) n.items
      (rows.map fun row => (q.template columns [row]).emit p) := by
  obtain ⟨found, hitems, hcolumns, hvalid, htag, htexts⟩ := namedStatement_eq_ok hn
  obtain ⟨hfound, hrows⟩ := resolve_items hresolved hitems
  obtain rfl : columns = found := Except.ok.inj (hfound.symm.trans hcolumns)
  rw [List.forall₂_map_right_iff, htag]
  refine hrows.imp fun item row hrow index => ?_
  obtain ⟨⟨m, hm, hvalues⟩, -⟩ := hrow
  obtain ⟨t, ht, hsame⟩ := yields_of_textClause hquote hclause hvalid hvalues
  rw [← htexts] at ht
  exact ⟨m, t, hm index, ht, hsame.emit_eq p⟩

/-- A statement with named markers that binds nothing is refused for its items and columns
alone. -/
theorem namedStatement_of_params (h : q.updateTemplate.params = []) : q.namedStatement = do
    let items ← q.namedItems
    let columns ← q.namedColumns
    validateNames columns
    return {
      sql := ((q.namedTemplate columns).emit q.settings.dialect.placeholder).sql
      tag := q.settings.tag
      items
      batch := items.length ≠ 1 } := by
  have hparams : ∀ found, (q.namedTemplate found).params.isEmpty = true := by
    intro found
    simp [namedTemplate, Template.params_append, params_head, Template.params,
      Template.params_join, h]
  simp only [namedStatement, hparams, if_true]

/-- **Where only columns have markers,** each row is sent by itself, and a draft is refused
whatever is assigned. -/
theorem statements_of_textClause (hnames : q.usesNames = true)
    (hquote : Quoting.opens q.settings.dialect.quote = true) (hclause : q.TextClause) :
    statements ⟨q, none⟩ p = (namedRows q).map fun r =>
      r.2.map fun row => (q.template r.1 [row]).emit p := by
  have hstatement := namedStatement_of_params hclause.params_eq
  rw [statements_of_usesNames hnames, namedRows]
  cases hitems : q.namedItems with
  | error e =>
      rw [hstatement, hitems]
      rfl
  | ok items =>
      cases hcolumns : q.namedColumns with
      | error e =>
          rw [hstatement, hitems, hcolumns]
          rfl
      | ok found =>
          cases hvalid : validateNames found with
          | error e =>
              rw [hstatement, hitems, hcolumns]
              simp only [bind, Except.bind, hvalid, Except.map]
          | ok _ =>
              rw [hitems, hcolumns] at hstatement
              simp only [bind, Except.bind, hvalid, pure, Except.pure] at hstatement
              cases hresolved : q.resolve with
              | error e =>
                  rw [hstatement]
                  simp only [bind, Except.bind, hvalid, Except.map]
              | ok r =>
                  have hbinds : List.Forall₂ (Binds p _ _) items _ :=
                    binds_rows hquote hclause hstatement hresolved
                  rw [hstatement]
                  simp only [bind, Except.bind, hvalid, NamedStatement.bound]
                  split
                  · rfl
                  · exact bindItems_of_binds hbinds 0

/-- Rows that are given by position, or with values to assign, are sent as one statement. -/
theorem statements_of_positional (hnames : ¬q.usesNames = true) (p : Placeholder) :
    statements ⟨q, none⟩ p = q.resolve.map fun r => [(q.template r.1 r.2).emit p] := by
  have hresolve : resolve { q with settings := q.settings.withPlaceholder p } = q.resolve := rfl
  rw [statements_of_rows hnames, statement, hresolve]
  cases q.resolve <;> rfl

/-- The rows with named markers are those by position. -/
theorem resolve_of_namedRows (h : namedRows q = .ok (columns, rows)) :
    q.resolve = .ok (columns, rows) := by
  obtain ⟨items, -, h⟩ := bind_eq_ok.1 h
  obtain ⟨found, -, h⟩ := bind_eq_ok.1 h
  obtain ⟨-, h⟩ := bind_unit_eq_ok.1 h
  obtain ⟨resolved, hresolved, h⟩ := bind_eq_ok.1 h
  rw [hresolved, pure_eq_ok.1 (guard_eq_ok.1 h).2]

/-- A draft that is refused makes no call. -/
theorem exec_of_refused {σ : Type} {d : Draft Insert} {e : SqlError}
    (h : statements d p = .error e) (exec : Statement → Run σ WriteResult)
    (query : Statement → Run σ (List Row)) (s : Session σ) :
    (InsertDraft.exec d (positional p exec query) s).1 = .error e ∧
      (InsertDraft.exec d (positional p exec query) s).2.backend = s.backend := by
  obtain ⟨logged, hexec⟩ := exec_eq_sendAll d p
  rw [hexec, h]
  exact ⟨rfl, rfl⟩

/-- A draft that is settled sends its statements one after another. -/
theorem exec_of_settled {d : Draft Insert} {sent : List Statement}
    (h : statements d p = .ok sent) : ∃ logged : List Event,
      ∀ {σ : Type} (exec : Statement → Run σ WriteResult) (query : Statement → Run σ (List Row))
        (s : Session σ), InsertDraft.exec d (positional p exec query) s =
          sendAll exec 0 sent ⟨none, 0⟩ { s with events := s.events ++ logged } := by
  obtain ⟨logged, hexec⟩ := exec_eq_sendAll d p
  refine ⟨logged, fun exec query s => ?_⟩
  rw [hexec, h]
  rfl

/-- Rows that are sent together: each one by itself with named markers, else all of them. -/
def groups (q : Insert) (rows : List (List Value)) : List (List (List Value)) :=
  if q.usesNames then rows.map fun row => [row] else [rows]

/-- Grouping rows adds none. -/
theorem mem_of_mem_groups {group : List (List Value)} (hgroup : group ∈ groups q rows)
    {row : List Value} (hrow : row ∈ group) : row ∈ rows := by
  rw [groups] at hgroup
  split at hgroup
  · obtain ⟨other, hother, rfl⟩ := List.mem_map.1 hgroup
    exact List.mem_singleton.1 hrow ▸ hother
  · exact List.mem_singleton.1 hgroup ▸ hrow

/-- Where only columns have markers, what is sent is finished for each group of rows. -/
theorem statements_eq (hnamed : q.usesNames = true →
      Quoting.opens q.settings.dialect.quote = true ∧ q.TextClause)
    {sent : List Statement} (h : statements ⟨q, none⟩ p = .ok sent) :
    ∃ columns rows, q.resolve = .ok (columns, rows) ∧
      sent = (groups q rows).map fun group => (q.template columns group).emit p := by
  by_cases hnames : q.usesNames = true
  · obtain ⟨hquote, hclause⟩ := hnamed hnames
    rw [statements_of_textClause hnames hquote hclause, map_eq_ok] at h
    obtain ⟨⟨columns, rows⟩, hrows, rfl⟩ := h
    refine ⟨columns, rows, resolve_of_namedRows hrows, ?_⟩
    rw [groups, if_pos hnames, List.map_map]
    rfl
  · rw [statements_of_positional hnames, map_eq_ok] at h
    obtain ⟨⟨columns, rows⟩, hrows, rfl⟩ := h
    exact ⟨columns, rows, hrows, by rw [groups, if_neg hnames, List.map_singleton]⟩

/-- Where only columns have markers, a draft is refused for its rows, or for its names whatever
is assigned. -/
theorem refused_of_statements {d : Draft Insert} (hnamed : d.state.usesNames = true →
      Quoting.opens d.state.settings.dialect.quote = true ∧ d.state.TextClause)
    {e : SqlError} (h : statements d p = .error e) :
    (d.state.usesNames = false → build d = .error e) ∧
      (d.state.usesNames = true →
        statements ⟨{ d.state with assignments := [] }, d.error?⟩ p = .error e) := by
  obtain ⟨q, _ | refusal⟩ := d
  · refine ⟨fun hrows => ?_, fun hnames => ?_⟩
    · have hpositional : ¬q.usesNames = true := by
        rw [show q.usesNames = false from hrows]
        exact Bool.false_ne_true
      rw [statements_of_positional hpositional, map_eq_error] at h
      exact bind_eq_error.2 (.inr ⟨q, rfl, bind_eq_error.2 (.inl h)⟩)
    · obtain ⟨hquote, hclause⟩ := hnamed hnames
      have hsource := (Bool.and_eq_true_iff.1 hnames).1
      have hclear : usesNames { q with assignments := [] } = true :=
        Bool.and_eq_true_iff.2 ⟨hsource, rfl⟩
      rw [statements_of_textClause hnames hquote hclause, map_eq_error] at h
      rw [statements_of_textClause hclear hquote ⟨rfl, Named.partsFrom_nil none⟩, map_eq_error]
      exact h
  · obtain rfl : refusal = e := Except.error.inj h
    exact ⟨fun _ => rfl, fun _ => rfl⟩

/-- **Raw assignments are sent as they are,** by position always, and with named markers where
ON DUPLICATE KEY UPDATE has no marker.  A run that makes no call is refused as the statement by
position is, or with named markers as the same statement is without assignments.  Any other run
sends, up to the first that fails, the statements of the rows: all of them together by position,
each by itself with named markers.  They bind the rows and the values that are assigned and
nothing else, and have every raw assignment word for word. -/
theorem raw_sent {σ : Type} (d : Draft Insert) (p : Placeholder)
    (hnamed : d.state.usesNames = true →
      Quoting.opens d.state.settings.dialect.quote = true ∧
        ∀ before name, ¬Named.MarkerAt none d.state.updateTemplate.texts before name)
    (exec : Statement → Run σ WriteResult) (query : Statement → Run (σ × Calls) (List Row))
    (s : Session (σ × Calls)) :
    let q := d.state
    let quote := q.settings.dialect.quote
    let run := InsertDraft.exec d (positional p (recording exec) query) s
    ∃ calls, run.2.backend.2 = s.backend.2 ++ calls ∧
      ((calls = [] ∧ ∃ e, run.1 = .error e ∧ (q.usesNames = false → build d = .error e) ∧
          (q.usesNames = true →
            (InsertDraft.exec ⟨{ q with assignments := [] }, d.error?⟩
              (positional p (recording exec) query) s).1 = .error e)) ∨
        ∃ columns rows sent, q.resolve = .ok (columns, rows) ∧ Sent 0 ⟨none, 0⟩ sent calls run.1 ∧
          List.Forall₂ (fun group (st : Statement) =>
            st.params = group.flatten ++ assignedValues q.assignments ∧
              st.sql = q.headText columns ++
                ", ".intercalate ((List.range group.length).map fun i =>
                  placesText p (i * columns.length) columns.length) ++
                updateText quote p (group.length * columns.length) q.assignments ∧
              ∀ column raw, ⟨column, .raw raw⟩ ∈ q.assignments →
                (column.toSql quote ++ " = " ++ raw).toList <:+: st.sql.toList)
            (groups q rows) sent) := by
  intro q quote run
  have hclause : q.usesNames = true →
      Quoting.opens q.settings.dialect.quote = true ∧ q.TextClause := fun hnames =>
    ⟨(hnamed hnames).1, textClause_of_unmarked hnames (hnamed hnames).2⟩
  cases hsettled : statements d p with
  | error e =>
      obtain ⟨hrun, hbackend⟩ := exec_of_refused hsettled (recording exec) query s
      obtain ⟨hpositional, hclear⟩ := refused_of_statements hclause hsettled
      refine ⟨[], by rw [List.append_nil, hbackend], .inl ⟨rfl, e, hrun, hpositional, ?_⟩⟩
      exact fun hnames => (exec_of_refused (hclear hnames) (recording exec) query s).1
  | ok sent =>
      obtain ⟨logged, hexec⟩ := exec_of_settled hsettled
      have hrun : run = sendAll (recording exec) 0 sent ⟨none, 0⟩
          { s with events := s.events ++ logged } := hexec (recording exec) query s
      obtain ⟨calls, hcalls, hsent⟩ := sendAll_recording exec 0 sent ⟨none, 0⟩
        { s with events := s.events ++ logged }
      rw [← hrun] at hcalls hsent
      rw [eq_of_statements hsettled] at hsettled
      obtain ⟨columns, rows, hresolved, hgroups⟩ := statements_eq hclause hsettled
      refine ⟨calls, hcalls, .inr ⟨columns, rows, sent, hresolved, hsent, ?_⟩⟩
      have hwidths : ∀ row ∈ rows, row.length = columns.length :=
        Entry.length_of_hasRow (hasRow_of_resolve hresolved).2
      rw [hgroups, List.forall₂_map_right_iff, List.forall₂_same]
      refine fun group hgroup => emit_template p fun row hrow => hwidths row ?_
      exact mem_of_mem_groups hgroup hrow

/-- A quoted text and a cast are kept, though they have colons. -/
theorem raw_sent_cast :
    let d := ofCalls .insert "t"
      [.maps [.ofList [("n", .int 1)]], .update (.single "n") (.raw "':y' || n::int")]
    let answer : Statement → Run Unit WriteResult := fun _ => pure ⟨none, 1⟩
    let x : Executor (Unit × Calls) :=
      .positional .dollar (recording answer) fun _ => pure []
    d.state.usesNames = true ∧ Quoting.opens d.state.settings.dialect.quote = true ∧
      (∀ before name, ¬Named.MarkerAt none d.state.updateTemplate.texts before name) ∧
      ∃ st : Statement, (exec d x (.start ((), []))).2.backend.2 = [(st, .ok ⟨none, 1⟩)] ∧
        st.params = [.int 1] ∧
        st.sql = "INSERT INTO `t` (`n`) VALUES ($1)" ++
          " ON DUPLICATE KEY UPDATE `n` = ':y' || n::int" := by
  intro d answer x
  have hquote : Quoting.opens d.state.settings.dialect.quote = true := by decide
  have hmarkers : ∀ before name,
      ¬Named.MarkerAt none d.state.updateTemplate.texts before name :=
    Named.unmarked_of_partsFrom (by decide +kernel)
  have hsettled : statements d .dollar =
      .ok [(d.state.template [.single "n"] [[.int 1]]).emit .dollar] :=
    (statements_of_textClause rfl hquote (textClause_of_unmarked rfl hmarkers)).trans rfl
  obtain ⟨logged, hexec⟩ := exec_of_settled hsettled
  have hok : (exec d x (.start ((), []))).1 = .ok ⟨none, 1⟩ :=
    congrArg Prod.fst (hexec (recording answer) (fun _ => pure []) (.start ((), [])))
  obtain ⟨calls, hcalls, ⟨-, e, herror, -⟩ | ⟨columns, rows, sent, hresolved, hsent, hgroups⟩⟩ :=
    raw_sent d .dollar (fun _ => ⟨hquote, hmarkers⟩) answer (fun _ => pure []) (.start ((), []))
  · exact absurd (hok.symm.trans herror) (by simp)
  · obtain ⟨rfl, rfl⟩ := Prod.mk.inj (Except.ok.inj hresolved).symm
    cases hgroups with
    | @cons _ st _ _ hst hnil =>
        cases hnil
        obtain ⟨hparams, hsql, -⟩ := hst
        refine ⟨rfl, hquote, hmarkers, st, ?_, hparams, hsql.trans (by decide +kernel)⟩
        rw [← hok, ← hsent.calls_single]
        exact hcalls

/-- **A colon in raw SQL is not kept with named markers.**  Where the name behind it is no
column, a draft that can be built is refused; where it is one, the colon and the name are
replaced, and the value of the column is bound once more. -/
theorem raw_sent_rewritten :
    let d := fun raw : String =>
      ofCalls .insert "t" [.maps [.ofList [("a", .int 1)]], .update (.single "a") (.raw raw)]
    let answer : Statement → Run (List Statement) WriteResult := fun st s =>
      (.ok ⟨none, 1⟩, { s with backend := s.backend ++ [st] })
    let x : Executor (List Statement) := .positional .question answer fun _ => pure []
    build (d ":x") = .ok ⟨"INSERT INTO \x60t\x60 (\x60a\x60) VALUES (?)" ++
        " ON DUPLICATE KEY UPDATE \x60a\x60 = :x", [.int 1]⟩ ∧
      (exec (d ":x") x (.start [])).1 =
        .error (.validation "named parameter ':x' has no value") ∧
      build (d "f(:a)") = .ok ⟨"INSERT INTO \x60t\x60 (\x60a\x60) VALUES (?)" ++
        " ON DUPLICATE KEY UPDATE \x60a\x60 = f(:a)", [.int 1]⟩ ∧
      (exec (d "f(:a)") x (.start [])).2.backend =
        [⟨"INSERT INTO \x60t\x60 (\x60a\x60) VALUES (?)" ++
          " ON DUPLICATE KEY UPDATE \x60a\x60 = f(?)", [.int 1, .int 1]⟩] := by
  intro d answer x
  let m : ValueMap := .ofList [("a", .int 1)]
  have hrefused : statements (d ":x") .question =
      .error (.validation "named parameter ':x' has no value") := by
    let text := "INSERT INTO \x60t\x60 (\x60a\x60) VALUES (:a) ON DUPLICATE KEY UPDATE \x60a\x60 = :x"
    have hbound : statements (d ":x") .question =
        NamedStatement.bound .question ⟨text, "db", [.map m], false⟩ := rfl
    have hparts : Named.parts text =
        ("INSERT INTO \x60t\x60 (\x60a\x60) VALUES (".toList.map .char ++ .marker "a" ::
          ") ON DUPLICATE KEY UPDATE \x60a\x60 = ".toList.map .char) ++ [.marker "x"] := by
      decide +kernel
    have hvalue : ¬m.get? "a" = none := by decide
    have hmissing : Template.ofNamed text m =
        .error (.validation "named parameter ':x' has no value") :=
      Named.mapM_eq_error.2 ⟨_, "x", [], hparts, by simpa using hvalue, rfl, rfl⟩
    rw [hbound, NamedStatement.bound_map, hmissing]
    rfl
  have hsent : statements (d "f(:a)") .question =
      .ok [⟨"INSERT INTO \x60t\x60 (\x60a\x60) VALUES (?)" ++
        " ON DUPLICATE KEY UPDATE \x60a\x60 = f(?)", [.int 1, .int 1]⟩] := by
    let text :=
      "INSERT INTO \x60t\x60 (\x60a\x60) VALUES (:a) ON DUPLICATE KEY UPDATE \x60a\x60 = f(:a)"
    have hbound : statements (d "f(:a)") .question =
        NamedStatement.bound .question ⟨text, "db", [.map m], false⟩ := rfl
    have hparts : Named.parts text =
        "INSERT INTO \x60t\x60 (\x60a\x60) VALUES (".toList.map .char ++ ([.marker "a"] ++
          (") ON DUPLICATE KEY UPDATE \x60a\x60 = f(".toList.map .char ++
            ([.marker "a"] ++ ")".toList.map .char))) := by
      decide +kernel
    have hvalue : Named.Yields m [.marker "a"] [.bind (.int 1)] := Named.yields_marker rfl
    obtain ⟨t, ht, hsame⟩ := (Named.yields_chars _).append (hvalue.append
      ((Named.yields_chars _).append (hvalue.append (Named.yields_chars _))))
    rw [← hparts] at ht
    rw [hbound, NamedStatement.bound_map, Template.ofNamed, ht, Except.map, hsame.emit_eq]
    rfl
  refine ⟨rfl, (exec_of_refused hrefused _ _ _).1, rfl, ?_⟩
  obtain ⟨logged, hexec⟩ := exec_of_settled hsent
  exact congrArg (fun run => run.2.backend) (hexec answer (fun _ => pure []) (.start []))

end InsertDraft

end BoundSql
