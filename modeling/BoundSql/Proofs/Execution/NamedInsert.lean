import BoundSql.Proofs.Statement.NamedInsert

/-!
# An INSERT with named markers by position

An executor that knows placeholders by position only runs an INSERT with named markers for
one item after another.  What it sends for an item is the statement that is built for this
item alone, with the columns given and in the executor's style of placeholders.
-/

namespace BoundSql

/-- A step that succeeds is followed by the next one. -/
theorem Run.ofExcept_bind {σ α β : Type} (a : α) (f : α → Run σ β) :
    (Run.ofExcept (.ok a) >>= f) = f a := rfl

namespace Executor

variable {σ : Type}

/-- Sends statements one after another; the affected rows are summed, and the id is that of
the first one. -/
def sendAll (exec : Statement → Run σ WriteResult) :
    Nat → List Statement → WriteResult → Run σ WriteResult
  | _, [], total => return total
  | index, st :: rest, total => do
    let result ← exec st
    sendAll exec (index + 1) rest
      { lastInsertId := if index = 0 then result.lastInsertId else total.lastInsertId
        rowsAffected := total.rowsAffected + result.rowsAffected }

/-- Items that are bound to statements are sent as these. -/
theorem execItems_eq_sendAll (p : Placeholder) (exec : Statement → Run σ WriteResult)
    {sql tag : String} {items : List NamedItem} {statements : List Statement}
    (h : List.Forall₂ (fun item st => ∀ index, ∃ m t, item.toMap tag index = .ok m ∧
      Template.ofNamed sql m = .ok t ∧ t.emit p = st) items statements) (index : Nat)
    (total : WriteResult) :
    execItems p exec sql tag index items total = sendAll exec index statements total := by
  induction h generalizing index total with
  | nil => rfl
  | cons hitem _ ih =>
      obtain ⟨m, t, hm, ht, rfl⟩ := hitem index
      rw [execItems, sendAll, hm, Run.ofExcept_bind, ht, Run.ofExcept_bind]
      simp only [ih]

end Executor

namespace InsertDraft

open Executor (sendAll)

/-- **An INSERT of maps or records is sent as it is built for each item.**  The markers
of its text are those of the columns as they are written, and no others.  The executor is
handed, for one item after another, the statement that is built for this item alone, with
the columns given and in the executor's style of placeholders. -/
theorem exec_named {q : Insert} {n : NamedStatement} {columns : List Identifier}
    {rows : List (List Value)} (hnames : q.usesNames = true)
    (hquote : Quoting.opens q.settings.dialect.quote = true) (hraw : q.Unmarked)
    (hn : buildNamed ⟨q, none⟩ = .ok n) (hrows : q.resolve = .ok (columns, rows))
    (p : Placeholder) :
    (∃ before behind : List Char,
      n.sql.toList = before ++
        ([',', ' '].intercalate ((columns.map Identifier.name).map fun name =>
          ':' :: name.toList) ++ behind) ∧
      Named.parts n.sql = before.map .char ++
        ([.char ',', .char ' '].intercalate ((columns.map Identifier.name).map fun name =>
          [.marker name]) ++ behind.map .char)) ∧
      q.namedItems = .ok n.items ∧
      ∃ statements : List Statement,
        List.Forall₂ (fun item st => build ⟨{ q with
          columns, source := item.source, settings := q.settings.withPlaceholder p }, none⟩ =
            .ok st) n.items statements ∧
        ∀ (σ : Type) (exec : Statement → Run σ WriteResult) (query : Statement → Run σ (List Row)),
          InsertDraft.exec ⟨q, none⟩ (Executor.positional p exec query) = (do
            Run.log (.compiled .namedInsert n.sql n.items.length)
            if n.items.isEmpty then
              Run.ofExcept (.error (.validation "named execution requires at least one item"))
            else sendAll exec 0 statements ⟨none, 0⟩) := by
  obtain ⟨found, hitems, hcolumns, hvalid, htag, htexts⟩ := Insert.namedStatement_eq_ok hn
  obtain ⟨hresolved, hitem⟩ := Insert.resolve_items hrows hitems
  obtain rfl : columns = found := Except.ok.inj (hresolved.symm.trans hcolumns)
  have htext := Insert.isText_of_usesNames hnames hraw
  have hparts := Insert.parts_namedTemplate hquote htext hvalid
  have hsplit := Insert.texts_namedTemplate q columns
  refine ⟨⟨q.before columns, q.behind, htexts.trans hsplit, ?_⟩, hitems,
    rows.map fun row => (q.template columns [row]).emit p, ?_, fun σ exec query => ?_⟩
  · rw [← hparts, ← htexts, Named.parts]
  · rw [List.forall₂_map_right_iff]
    refine hitem.imp fun item row hrow => ?_
    exact bind_eq_ok.2 ⟨_, rfl, bind_eq_ok.2 ⟨_, hrow.2 p, rfl⟩⟩
  · have hsent : List.Forall₂ (fun item st => ∀ index, ∃ m t,
        item.toMap n.tag index = .ok m ∧ Template.ofNamed n.sql m = .ok t ∧ t.emit p = st)
        n.items (rows.map fun row => (q.template columns [row]).emit p) := by
      rw [List.forall₂_map_right_iff]
      refine hitem.imp fun item row hrow index => ?_
      obtain ⟨⟨m, hm, hvalues⟩, -⟩ := hrow
      obtain ⟨t, ht, hsame⟩ := Insert.yields_namedTemplate hquote htext hvalid hvalues
      rw [← htexts] at ht
      rw [htag]
      exact ⟨m, t, hm index, ht, hsame.emit_eq p⟩
    have hitems := fun total => Executor.execItems_eq_sendAll p exec hsent 0 total
    rw [InsertDraft.exec, if_pos hnames, hn, Run.ofExcept_bind, hrows, Run.ofExcept_bind]
    simp only [Executor.positional, Executor.execNamed, hitems]

/-- A table with a quote and a colon in its name, two maps, and an expression with a colon
in a literal. -/
theorem exec_named_quoted :
    let q : Insert := ⟨.single "t\":x", ⟨"db", .sqlite⟩, [],
      .maps [.ofList [("n", .null), ("id", .int 1)], .ofList [("id", .int 2), ("n", .text ":z")]],
      .insert, none, false, [⟨.single "n", .raw "':y'"⟩]⟩
    ∀ (σ : Type) (exec : Statement → Run σ WriteResult) (query : Statement → Run σ (List Row)),
      ∃ sql, sql = "INSERT INTO \"t\"\":x\" (\"id\", \"n\") VALUES ($1, $2)" ++
          " ON DUPLICATE KEY UPDATE \"n\" = ':y'" ∧
        ∃ log, InsertDraft.exec ⟨q, none⟩ (Executor.positional .dollar exec query) = (do
          Run.log log
          sendAll exec 0 [⟨sql, [.int 1, .null]⟩, ⟨sql, [.int 2, .text ":z"]⟩] ⟨none, 0⟩) := by
  intro q σ exec query
  have hraw : q.Unmarked := by
    intro s hs
    obtain rfl : s = "':y'" := List.mem_singleton.1 hs
    refine ⟨by decide, fun part hpart => ?_⟩
    have hparts : Named.parts "':y'" = "':y'".toList.map .char := by
      rw [Named.parts, show "':y'".toList = ['\x27', ':', 'y', '\x27'] from rfl,
        Named.partsFrom_cons (by decide), Named.partsFrom_cons (by decide),
        Named.partsFrom_cons (by decide), Named.partsFrom_cons (by decide), Named.partsFrom_nil]
      rfl
    rw [hparts] at hpart
    obtain ⟨c, -, rfl⟩ := List.mem_map.1 hpart
    exact ⟨c, rfl⟩
  obtain ⟨-, -, statements, hbuilt, hexec⟩ :=
    exec_named (q := q) (by decide) (by decide) hraw rfl rfl .dollar
  obtain ⟨first, more, hfirst, hmore, rfl⟩ := List.forall₂_cons_left_iff.1 hbuilt
  obtain ⟨second, none, hsecond, hnone, rfl⟩ := List.forall₂_cons_left_iff.1 hmore
  obtain rfl := List.forall₂_nil_left_iff.1 hnone
  obtain rfl := Except.ok.inj hfirst
  obtain rfl := Except.ok.inj hsecond
  exact ⟨_, rfl, _, hexec σ exec query⟩

end InsertDraft

end BoundSql
