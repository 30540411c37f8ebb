import BoundSql.Proofs.KeyMap
import BoundSql.Proofs.Statement.Names
import BoundSql.Proofs.Statement.Replace

/-!
# Keyed input in any order

Equalities of a condition, and the map of a row, are given as entries one after another.
What becomes of them depends on the last entry of each key alone and not on the order of the
keys: they are the entries of one map, and a map has one order (`KeyMap.LastEntries`).  So a
condition compares the columns in the order of the keys, and an INSERT whose first entry is a
map, without columns of its own, has its columns and the values of its first row in that order
(`InsertDraft.entries_in_any_order`).
-/

namespace BoundSql

namespace KeyMap

variable {α : Type}

/-- The last entry of every key, in key order. -/
structure LastEntries (given entries : List (String × α)) : Prop where
  sorted : entries.Pairwise fun a b => a.1 < b.1
  mem_iff : ∀ key value, (key, value) ∈ entries ↔ LastOf given key value

/-- Entering pairs one by one leaves the last value of each key, in the order of the keys. -/
theorem lastEntries_ofList (given : List (String × α)) :
    LastEntries given (ofList given).entries :=
  ⟨(ofList given).sorted, fun _ _ => mem_entries_ofList⟩

end KeyMap

namespace Predicate

/-- The equality of an entry. -/
def ofEntry (entry : String × Value) : Predicate :=
  columnIs (Identifier.ofText entry.1) .eq entry.2

/-- Equalities as a condition: a single one stands alone, several are a group. -/
structure Equalities (entries : List (String × Value)) (p? : Option Predicate) : Prop where
  none : entries = [] → p? = Option.none
  bare : ∀ only, entries = [only] → p? = some (ofEntry only)
  group : 1 < entries.length → p? = some (.and (entries.map ofEntry))

/-- The condition of a map is made of the equalities of its entries. -/
theorem equalities_ofEqualities (m : ValueMap) : Equalities m.entries (ofEqualities m) := by
  constructor
  · intro h
    rw [ofEqualities, h]
    rfl
  · intro only h
    rw [ofEqualities, h]
    rfl
  · intro h
    rw [ofEqualities]
    cases hentries : m.entries with
    | nil => simp [hentries] at h
    | cons first rest =>
        cases rest with
        | nil => simp [hentries] at h
        | cons second more => rfl

end Predicate

namespace Insert

/-- A map that is given as entries. -/
def Call.ofEntries (entries : List (String × Value)) : Call := .maps [.ofList entries]

variable {q : Insert} {m : ValueMap}

/-- Columns that are inferred from a map are its keys. -/
theorem rowColumns_of_first (hcolumns : q.columns = [])
    (hfirst : q.source.entries.head? = some (.map m)) :
    q.rowColumns = m.entries.map fun entry => Identifier.single entry.1 := by
  rw [rowColumns, columnsOr, hcolumns, hfirst]
  exact List.map_map

/-- The row of a map under its keys has its values in key order. -/
theorem values_of_hasRow {tag : String} {row : List Value}
    (h : (Entry.map m).HasRow tag (m.entries.map fun entry => .single entry.1) row) :
    row = m.entries.map Prod.snd := by
  refine List.ext_getElem? fun j => ?_
  cases hentry : m.entries[j]? with
  | none =>
      have hlength : m.entries.length ≤ j := List.getElem?_eq_none_iff.1 hentry
      have hrow : row.length = m.entries.length := h.length.trans (List.length_map _)
      rw [List.getElem?_map, hentry, Option.map_none, List.getElem?_eq_none_iff, hrow]
      exact hlength
  | some entry =>
      have hcolumn : (m.entries.map fun entry => Identifier.single entry.1)[j]? =
          some (.single entry.1) := by
        rw [List.getElem?_map, hentry, Option.map_some]
      rw [h.cell hcolumn, List.getElem?_map, hentry, Option.map_some]
      exact KeyMap.get?_eq_some.2 (List.mem_of_getElem? hentry)

/-- The first parameters of a statement are the values of the map it begins with. -/
theorem params_of_first {st : Statement} (h : q.statement = .ok st) (hcolumns : q.columns = [])
    (hfirst : q.source.entries.head? = some (.map m)) :
    st.params.take m.entries.length = m.entries.map Prod.snd := by
  obtain ⟨⟨columns, rows⟩, hresolve, h⟩ := bind_eq_ok.1 h
  obtain rfl := pure_eq_ok.1 h
  obtain ⟨hnames, hrows⟩ := hasRow_of_resolve hresolve
  obtain rfl : columns = m.entries.map fun entry => .single entry.1 :=
    hnames.trans (rowColumns_of_first hcolumns hfirst)
  obtain ⟨more, hentries⟩ := List.head?_eq_some_iff.1 hfirst
  rw [hentries] at hrows
  cases hrows with
  | cons hrow hmore =>
      have hvalues := values_of_hasRow hrow
      show (q.template _ _).params.take _ = _
      rw [params_template, List.flatten_cons, hvalues, List.append_assoc,
        List.take_left' (List.length_map _)]

end Insert

namespace InsertDraft

open BoundSql.Insert

variable {mode : InsertMode} {table : String} {before after : List Call}

/-- A statement that begins with a map and has no columns of its own. -/
theorem first_of_ofCalls {entries : List (String × Value)}
    (h : (ofCalls mode table (before ++ .ofEntries entries :: after)).error? = none)
    (hcolumns : ((before ++ .ofEntries entries :: after).filterMap Call.columns?).getLastD [] = [])
    (hbefore : before.flatMap Call.entries = []) :
    let q := (ofCalls mode table (before ++ .ofEntries entries :: after)).state
    q.columns = [] ∧ q.source.entries.head? = some (.map (.ofList entries)) := by
  intro q
  have hgathers := gathers_ofCalls h
  refine ⟨hgathers.columns.trans hcolumns, ?_⟩
  rw [hgathers.entries, List.flatMap_append, hbefore, List.flatMap_cons]
  rfl

/-- **The order of entries never shows.**  For two sequences of entries with the same last
entry of every key, maps that are filled from them in any way give the same condition, and a
call with the one gives the same statements as a call with the other, with places and with
named markers, whatever the other calls are.  The condition compares the columns in strictly
increasing order of the keys, one alone and several in a group.  Where the map is the first
entry and no columns are given, the columns are its keys in that same order, and so are the
values of its row. -/
theorem entries_in_any_order {f g : KeyMap.Filling Value}
    (h : ∀ key value,
      KeyMap.LastOf f.entries key value ↔ KeyMap.LastOf g.entries key value) :
    Predicate.ofEqualities f.map = Predicate.ofEqualities g.map ∧
      (∀ (mode : InsertMode) (table : String) (before after : List Call),
        let made := fun entries => ofCalls mode table (before ++ .ofEntries entries :: after)
        build (made f.entries) = build (made g.entries) ∧
          buildNamed (made f.entries) = buildNamed (made g.entries)) ∧
      ∃ entries, KeyMap.LastEntries f.entries entries ∧
        Predicate.Equalities entries (Predicate.ofEqualities f.map) ∧
        ∀ (mode : InsertMode) (table : String) (before after : List Call),
          let calls := before ++ .ofEntries f.entries :: after
          let d := ofCalls mode table calls
          let columns := entries.map fun entry => Identifier.single entry.1
          (calls.filterMap Call.columns?).getLastD [] = [] → before.flatMap Call.entries = [] →
            (∀ st, build d = .ok st →
              (∃ rest, st.sql = d.state.headText columns ++ rest) ∧
                st.params.take entries.length = entries.map Prod.snd) ∧
            ∀ named, buildNamed d = .ok named →
              ∃ rest, named.sql = d.state.headText columns ++
                ("(" ++ ", ".intercalate (columns.map fun c => ":" ++ c.name) ++ ")") ++ rest := by
  have hsame : KeyMap.ofList f.entries = KeyMap.ofList g.entries := KeyMap.ofList_eq_iff.2 h
  refine ⟨?_, fun mode table before after => ?_, (KeyMap.ofList f.entries).entries,
    KeyMap.lastEntries_ofList _, ?_, ?_⟩
  · rw [f.map_eq, g.map_eq, hsame]
  · simp only [Call.ofEntries, hsame, and_self]
  · rw [f.map_eq]
    exact Predicate.equalities_ofEqualities _
  · intro mode table before after calls d columns hgiven hbefore
    have hfirst : ∀ {q}, d.get = .ok q → q = d.state ∧ q.columns = [] ∧
        q.source.entries.head? = some (.map (.ofList f.entries)) := by
      intro q hq
      obtain ⟨herror, rfl⟩ := Draft.get_eq_ok.1 hq
      exact ⟨rfl, first_of_ofCalls herror hgiven hbefore⟩
    constructor
    · intro st hst
      obtain ⟨q, hq, hst⟩ := bind_eq_ok.1 hst
      obtain ⟨rfl, hcolumns, hmap⟩ := hfirst hq
      have hsql := sql_of_statement hst
      simp only [rowColumns_of_first hcolumns hmap, String.append_assoc] at hsql
      exact ⟨⟨_, hsql⟩, params_of_first hst hcolumns hmap⟩
    · intro named hnamed
      obtain ⟨q, hq, hnamed⟩ := bind_eq_ok.1 hnamed
      obtain ⟨rfl, hcolumns, hmap⟩ := hfirst hq
      obtain ⟨found, hfound, hsql⟩ := sql_of_namedStatement hnamed
      obtain rfl : found = columns :=
        (namedColumns_eq hfound).trans (rowColumns_of_first hcolumns hmap)
      exact ⟨_, hsql⟩

/-- Two keys in either order, the value of one of them replaced. -/
theorem entries_in_any_order_replaced :
    let f : KeyMap.Filling Value := .collect [("b", .int 2), ("a", .int 1)]
    let g : KeyMap.Filling Value :=
      .insert (.insert (.collect [("a", .int 0)]) "b" (.int 2)) "a" (.int 1)
    let made := fun entries => ofCalls .insert "t" [.ofEntries entries]
    Predicate.ofEqualities f.map = Predicate.ofEqualities g.map ∧
      build (made f.entries) = build (made g.entries) ∧
      build (made g.entries) =
        .ok ⟨"INSERT INTO \x60t\x60 (\x60a\x60, \x60b\x60) VALUES (?, ?)", [.int 1, .int 2]⟩ := by
  intro f g made
  have hlast : KeyMap.ofList f.entries = KeyMap.ofList g.entries := rfl
  obtain ⟨hcondition, hbuild, -⟩ := entries_in_any_order (KeyMap.ofList_eq_iff.1 hlast)
  exact ⟨hcondition, (hbuild .insert "t" [] []).1, rfl⟩

end InsertDraft

end BoundSql
