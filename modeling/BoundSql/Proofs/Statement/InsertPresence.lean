import BoundSql.Proofs.Statement.InsertPlaces
import BoundSql.Proofs.Statement.Refusal

/-!
# Whether an INSERT has entries

A statement to which nothing was added is refused, and otherwise it has a group or an item
for every entry.  Adding an empty collection is not the same as adding nothing: the statement
then has a form of rows, and with columns of its own it is finished without a group
(`InsertDraft.inserts_entries_none`).  Apart from this a finished INSERT inserts what its
calls have brought, and at least one entry (`InsertDraft.inserts_entries`).
-/

namespace BoundSql

namespace Insert

variable {q : Insert}

/-- A statement with named markers has an item for each entry. -/
theorem length_items {named : NamedStatement} (h : q.namedStatement = .ok named) :
    named.items.length = q.source.entries.length := by
  obtain ⟨items, hitems, h⟩ := bind_eq_ok.1 h
  obtain ⟨columns, -, h⟩ := bind_eq_ok.1 h
  obtain ⟨-, h⟩ := bind_unit_eq_ok.1 h
  have hnamed : named.items = items := by
    simp only at h
    split at h
    · obtain rfl := pure_eq_ok.1 h
      rfl
    · exact absurd h (by simp [throw, throwThe, MonadExceptOf.throw])
  rw [hnamed]
  rw [namedItems] at hitems
  split at hitems
  · exact absurd hitems (by simp)
  · exact absurd hitems (by simp)
  · rename_i maps hsource
    obtain rfl := Except.ok.inj hitems
    rw [hsource, Source.entries, List.length_map, List.length_map]
  · rename_i records hsource
    obtain rfl := Except.ok.inj hitems
    rw [hsource, Source.entries, List.length_map, List.length_map]

/-- The text of a statement with rows has a group of places for each entry. -/
theorem sql_of_statement {st : Statement} (h : q.statement = .ok st) :
    let p := q.settings.dialect.placeholder
    let n := q.rowColumns.length
    let k := q.source.entries.length
    st.sql = q.headText q.rowColumns ++
      ", ".intercalate ((List.range k).map fun i => placesText p (i * n) n) ++
        updateText q.settings.dialect.quote p (k * n) q.assignments := by
  obtain ⟨⟨columns, rows⟩, hresolve, h⟩ := bind_eq_ok.1 h
  obtain rfl := pure_eq_ok.1 h
  obtain ⟨hcolumns, hrows⟩ := hasRow_of_resolve hresolve
  obtain rfl : columns = q.rowColumns := hcolumns
  rw [hrows.length_eq]
  exact sqlFrom_template _ q _ (Entry.length_of_hasRow hrows)

end Insert

namespace InsertDraft

open BoundSql.Insert

/-- Calls that add nothing leave a statement without rows. -/
theorem source_ofCalls {mode : InsertMode} {table : String} {calls : List Call}
    (h : (ofCalls mode table calls).error? = none) (hcalls : ∀ c ∈ calls, c.adds = false) :
    (ofCalls mode table calls).state.source = .empty := by
  have hgathers := Draft.foldl_gathers
    (I := fun made q => (∀ c ∈ made, Call.adds c = false) → q.source = .empty)
    (fun {made a c b} hmade hb hadds => ?_) [] calls (d := ofTable mode table) ?_ h
  · exact hgathers hcalls
  · obtain ⟨hbefore, hc⟩ := List.forall_mem_append.1 hadds
    exact ((kept_of_apply hb).2 (hc c (List.mem_singleton_self c))).trans (hmade hbefore)
  · rw [ofTable, Draft.checked_state]
    exact fun _ => rfl

/-- A statement without rows is refused, whatever is asked of it. -/
theorem refuses_of_empty {d : Draft Insert} (hd : d.error? = none)
    (hsource : d.state.source = .empty) : Refuses d noRows := by
  have hbuild : ∀ q : Insert, q.source = .empty → q.statement = .error noRows := by
    intro q hq
    rw [statement, resolve, hq]
    rfl
  constructor
  · rw [InsertDraft.build, Draft.get, hd]
    exact hbuild _ hsource
  · rw [InsertDraft.buildNamed, Draft.get, hd]
    show d.state.namedStatement = .error noRows
    rw [namedStatement, namedItems, hsource]
    rfl
  · intro σ x s
    have hnames : d.state.usesNames = false := by rw [usesNames, hsource]; rfl
    have hexecutor : InsertDraft.build (forExecutor d x) = .error noRows := by
      have hstep : forExecutor d x = ⟨{ d.state with
          settings := d.state.settings.withPlaceholder x.placeholder }, none⟩ :=
        Draft.step_eq_of_ok hd rfl
      rw [hstep]
      exact hbuild _ hsource
    rw [InsertDraft.exec, hnames, if_neg Bool.false_ne_true, hexecutor, Run.ofExcept_error_bind]

/-- Calls that bring no entry, and of which none adds a collection, leave a draft that is
refused: by the first error of the calls, or else because there are no rows. -/
theorem refuses_ofCalls {mode : InsertMode} {table : String} {calls : List Call}
    (hcalls : ∀ c ∈ calls, c.adds = false) :
    let d := ofCalls mode table calls
    Refuses d (d.error?.getD noRows) := by
  intro d
  cases herror : d.error? with
  | some e => exact refuses_of_error herror
  | none => exact refuses_of_empty herror (source_ofCalls herror hcalls)

/-- **A finished INSERT inserts something.**  For calls of which one brings an entry, or none
adds a collection: a finished statement has a group of places for every entry that the calls
have brought, and one with named markers has an item for every entry, and there is at least
one.  Without entries it is refused, by the first error of the calls or else because there are
no rows, and nothing is sent to any executor. -/
theorem inserts_entries {mode : InsertMode} {table : String} {calls : List Call}
    (hadds : calls.flatMap Call.entries = [] → ∀ c ∈ calls, c.adds = false) :
    let d := ofCalls mode table calls
    let q := d.state
    let p := q.settings.dialect.placeholder
    let n := q.rowColumns.length
    let k := (calls.flatMap Call.entries).length
    (∀ st, build d = .ok st → 0 < k ∧
        st.sql = q.headText q.rowColumns ++
          ", ".intercalate ((List.range k).map fun i => placesText p (i * n) n) ++
            updateText q.settings.dialect.quote p (k * n) q.assignments) ∧
      (∀ named, buildNamed d = .ok named → 0 < k ∧ named.items.length = k) ∧
      (k = 0 →
        let e := d.error?.getD noRows
        build d = .error e ∧ buildNamed d = .error e ∧
          ∀ {σ : Type} (x : Executor σ) (s : Session σ), exec d x s = (.error e, s)) := by
  intro d q p n k
  have hnone : k = 0 → Refuses d (d.error?.getD noRows) := fun hk =>
    refuses_ofCalls (hadds (List.eq_nil_of_length_eq_zero hk))
  have hentries : d.error? = none → k = q.source.entries.length := fun herror => by
    rw [(gathers_ofCalls herror).entries]
  refine ⟨fun st hst => ⟨?_, ?_⟩, fun named hnamed => ⟨?_, ?_⟩, fun hk => ?_⟩
  · refine Nat.pos_of_ne_zero fun hk => ?_
    exact absurd (hst.symm.trans (hnone hk).build) (by simp)
  · obtain ⟨found, hfound, hst⟩ := bind_eq_ok.1 hst
    obtain ⟨herror, rfl⟩ := Draft.get_eq_ok.1 hfound
    rw [hentries herror]
    exact sql_of_statement hst
  · refine Nat.pos_of_ne_zero fun hk => ?_
    exact absurd (hnamed.symm.trans (hnone hk).buildNamed) (by simp)
  · obtain ⟨found, hfound, hnamed⟩ := bind_eq_ok.1 hnamed
    obtain ⟨herror, rfl⟩ := Draft.get_eq_ok.1 hfound
    rw [hentries herror]
    exact length_items hnamed
  · exact ⟨(hnone hk).build, (hnone hk).buildNamed, (hnone hk).exec⟩

/-- An empty collection of maps, and behind it a map. -/
theorem inserts_entries_maps :
    let m : ValueMap := .ofList [("a", .int 1)]
    let d := ofCalls .insert "t" [.maps [], .maps [m]]
    ∃ st named, build d = .ok st ∧ st.sql = "INSERT INTO \x60t\x60 (\x60a\x60) VALUES (?)" ∧
      buildNamed d = .ok named ∧ named.items.length = 1 := by
  intro m d
  have hbuild : build d = .ok _ := rfl
  have hnamed : buildNamed d = .ok _ := rfl
  obtain ⟨htext, hitems, -⟩ := @inserts_entries .insert "t" [.maps [], .maps [m]]
    fun h => absurd h (List.cons_ne_nil _ _)
  refine ⟨_, _, hbuild, (htext _ hbuild).2.trans (by decide +kernel), hnamed, ?_⟩
  exact (hitems _ hnamed).2

/-- **Empty collections are missed.**  With columns of its own, a statement to which no rows
or no maps were added is finished without a group or an item, and the one of rows is sent. -/
theorem inserts_entries_none :
    let rows := ofCalls .insert "t" [.columns [.single "a"], .rows []]
    let maps := ofCalls .insert "t" [.columns [.single "a"], .maps []]
    let x : Executor (List String) :=
      .positional .question
        (fun st s => (.ok ⟨none, 0⟩, { s with backend := s.backend ++ [st.sql] }))
        fun _ s => (.ok [], s)
    build rows = .ok ⟨"INSERT INTO \x60t\x60 (\x60a\x60) VALUES ", []⟩ ∧
      build maps = .ok ⟨"INSERT INTO \x60t\x60 (\x60a\x60) VALUES ", []⟩ ∧
      (∃ named, buildNamed maps = .ok named ∧ named.items = []) ∧
      (exec rows x (.start [])).2.backend = ["INSERT INTO \x60t\x60 (\x60a\x60) VALUES "] :=
  ⟨rfl, rfl, ⟨_, rfl, rfl⟩, rfl⟩

end InsertDraft

end BoundSql
