import Mathlib.Data.List.Forall2
import BoundSql.Proofs.Except
import BoundSql.Proofs.KeyMap
import BoundSql.Statement.Insert

/-!
# Rows of maps and records, one by one

The place of an item among the items counts in messages alone.  So an item that has a row
in a statement has the same row in a statement that holds only this item, with the columns
given (`Insert.resolve_items`).  The row is what the map of the item has for the names of
the columns.
-/

namespace BoundSql

/-- The rows of a statement that holds only this item. -/
def NamedItem.source : NamedItem → Source
  | .map m => .maps [m]
  | .record r => .records [r]

/-- A record lists fields under a tag if there is at least one. -/
theorem Record.fieldsAt_eq_ok {r : Record} {tag : String} {index : Nat}
    {fields : List (String × Value)} : r.fieldsAt tag index = .ok fields ↔
      fields ≠ [] ∧ r.fields tag = some fields := by
  rw [fieldsAt]
  split
  · rename_i heq
    rw [heq]
    constructor
    · intro h
      obtain rfl := Except.ok.inj h
      exact ⟨List.cons_ne_nil _ _, rfl⟩
    · rintro ⟨-, h⟩
      rw [Option.some.inj h]
  · rename_i hnone
    constructor
    · exact fun h => absurd h (by simp)
    · rintro ⟨hne, h⟩
      obtain ⟨field, more, rfl⟩ := List.exists_cons_of_ne_nil hne
      exact absurd h (hnone field more)

namespace Insert

variable {q : Insert} {tag : String} {index : Nat} {names : List String} {m : ValueMap}
  {row : List Value} {rows : List (List Value)}

/-- A row takes the value of its first name out of the map, and the others from the rest. -/
theorem rowOfMap_cons {name : String} : rowOfMap index (name :: names) m = .ok row ↔
    ∃ v more, m.get? name = some v ∧ rowOfMap index names (m.erase name) = .ok more ∧
      row = v :: more := by
  rw [rowOfMap]
  cases hv : m.get? name with
  | none => simp
  | some v =>
      simp only [map_eq_ok]
      constructor
      · rintro ⟨more, hmore, rfl⟩
        exact ⟨v, more, rfl, hmore, rfl⟩
      · rintro ⟨w, more, hw, hmore, rfl⟩
        obtain rfl := Option.some.inj hw
        exact ⟨more, hmore, rfl⟩

/-- The row of a map does not depend on the place of the map. -/
theorem rowOfMap_place (h : rowOfMap index names m = .ok row) (other : Nat) :
    rowOfMap other names m = .ok row := by
  induction names generalizing m row with
  | nil =>
      rw [rowOfMap] at h ⊢
      split at h
      · exact h
      · exact absurd h (by simp)
  | cons name names ih =>
      obtain ⟨v, more, hv, hmore, rfl⟩ := rowOfMap_cons.1 h
      exact rowOfMap_cons.2 ⟨v, more, hv, ih hmore, rfl⟩

/-- The row of a map has the values of the names. -/
theorem get?_of_rowOfMap (h : rowOfMap index names m = .ok row) :
    List.Forall₂ (fun name v => m.get? name = some v) names row := by
  induction names generalizing m row with
  | nil =>
      rw [rowOfMap] at h
      split at h
      · obtain rfl := Except.ok.inj h
        exact .nil
      · exact absurd h (by simp)
  | cons name names ih =>
      obtain ⟨v, more, hv, hmore, rfl⟩ := rowOfMap_cons.1 h
      exact .cons hv ((ih hmore).imp fun _ _ => KeyMap.get?_of_erase)

/-- **A map that has a row has the columns for its keys,** each of them once. -/
theorem keys_perm_of_rowOfMap (h : rowOfMap index names m = .ok row) : m.keys.Perm names := by
  induction names generalizing m row with
  | nil =>
      rw [rowOfMap] at h
      split at h
      · rename_i hkeys
        rw [hkeys]
      · exact absurd h (by simp)
  | cons name names ih =>
      obtain ⟨v, more, hv, hmore, -⟩ := rowOfMap_cons.1 h
      have hname : name ∈ m.keys := KeyMap.isSome_get?.1 (Option.isSome_iff_exists.2 ⟨v, hv⟩)
      exact (KeyMap.keys_perm_erase hname).trans ((ih hmore).cons name)

/-- Rows that were made of maps are the rows of the maps one by one, wherever these stand. -/
theorem rowOfMap_of_rowsOfMaps {maps : List ValueMap} (h : rowsOfMaps names index maps = .ok rows) :
    List.Forall₂ (fun m row => ∀ place, rowOfMap place names m = .ok row) maps rows := by
  induction maps generalizing index rows with
  | nil =>
      obtain rfl := Except.ok.inj h
      exact .nil
  | cons m maps ih =>
      obtain ⟨row, hrow, h⟩ := bind_eq_ok.1 h
      obtain ⟨more, hmore, h⟩ := bind_eq_ok.1 h
      obtain rfl := pure_eq_ok.1 h
      exact .cons (rowOfMap_place hrow) (ih hmore)

/-- A record becomes a map if no column occurs twice among its fields. -/
theorem mapOfRecord_eq_ok {r : Record} : mapOfRecord tag index r = .ok m ↔
    ∃ fields, r.fieldsAt tag index = .ok fields ∧ KeyMap.ofList fields = m ∧
      m.size = fields.length := by
  rw [mapOfRecord, bind_eq_ok]
  refine exists_congr fun fields => and_congr_right fun _ => ?_
  simp only
  split
  · rename_i hsize
    rw [pure_eq_ok]
    constructor
    · rintro rfl
      exact ⟨rfl, hsize⟩
    · exact And.left
  · rename_i hsize
    constructor
    · exact fun h => absurd h (by simp [throw, throwThe, MonadExceptOf.throw])
    · rintro ⟨rfl, h⟩
      exact absurd h hsize

/-- The map of a record does not depend on the place of the record, and is the map that
its fields are bound from. -/
theorem mapOfRecord_place {r : Record} (h : mapOfRecord tag index r = .ok m) (other : Nat) :
    mapOfRecord tag other r = .ok m ∧ (NamedItem.record r).toMap tag other = .ok m := by
  obtain ⟨fields, hfields, hm, hsize⟩ := mapOfRecord_eq_ok.1 h
  have hother : r.fieldsAt tag other = .ok fields :=
    Record.fieldsAt_eq_ok.2 (Record.fieldsAt_eq_ok.1 hfields)
  refine ⟨mapOfRecord_eq_ok.2 ⟨fields, hother, hm, hsize⟩, ?_⟩
  rw [NamedItem.toMap, hother, ← hm]
  rfl

/-- Maps that were made of records are the maps of the records one by one, wherever these stand. -/
theorem mapOfRecord_of_mapsOfRecords {records : List Record} {maps : List ValueMap}
    (h : mapsOfRecords tag index records = .ok maps) :
    List.Forall₂ (fun r m => ∀ place, mapOfRecord tag place r = .ok m) records maps := by
  induction records generalizing index maps with
  | nil =>
      obtain rfl := Except.ok.inj h
      exact .nil
  | cons r records ih =>
      obtain ⟨m, hm, h⟩ := bind_eq_ok.1 h
      obtain ⟨more, hmore, h⟩ := bind_eq_ok.1 h
      obtain rfl := pure_eq_ok.1 h
      exact .cons (fun place => (mapOfRecord_place hm place).1) (ih hmore)

/-- Maps give rows if there are columns at all and each map has just these for keys. -/
theorem keyedRows_eq_ok {columns given : List Identifier} {maps : List ValueMap} :
    keyedRows given maps = .ok (columns, rows) ↔
      given ≠ [] ∧ given = columns ∧
        rowsOfMaps (columns.map Identifier.name) 0 maps = .ok rows := by
  rw [keyedRows, guard_eq_ok, List.isEmpty_iff, bind_eq_ok]
  refine and_congr_right fun _ => ?_
  constructor
  · rintro ⟨found, hfound, h⟩
    obtain ⟨rfl, rfl⟩ := Prod.mk.inj (pure_eq_ok.1 h)
    exact ⟨rfl, hfound⟩
  · rintro ⟨rfl, h⟩
    exact ⟨rows, h, rfl⟩

/-- An item has a row for some columns: it has a map with the values, and a statement that
holds only this item has this row. -/
def HasRow (q : Insert) (columns : List Identifier) (item : NamedItem) (row : List Value) : Prop :=
  (∃ m : ValueMap, (∀ place, item.toMap q.settings.tag place = .ok m) ∧
    List.Forall₂ (fun name v => m.get? name = some v) (columns.map Identifier.name) row) ∧
    ∀ p, resolve { q with
      columns, source := item.source, settings := q.settings.withPlaceholder p } =
        .ok (columns, [row])

/-- Columns that are given are the columns, and a map by itself has its row. -/
theorem keyedRows_single {columns : List Identifier} (hne : columns ≠ [])
    (inferred : List Identifier) (q : Insert)
    (h : rowOfMap 0 (columns.map Identifier.name) m = .ok row) :
    keyedRows (columnsOr { q with columns } inferred) [m] = .ok (columns, [row]) := by
  have hgiven : columnsOr { q with columns } inferred = columns := if_neg (by simpa using hne)
  rw [hgiven]
  exact keyedRows_eq_ok.2 ⟨hne, rfl, bind_eq_ok.2 ⟨row, h, rfl⟩⟩

/-- A map has the row that is made of it. -/
theorem hasRow_map {columns : List Identifier} (hne : columns ≠ [])
    (h : ∀ place, rowOfMap place (columns.map Identifier.name) m = .ok row) :
    q.HasRow columns (.map m) row :=
  ⟨⟨m, fun _ => rfl, get?_of_rowOfMap (h 0)⟩, fun p =>
    keyedRows_single hne _ { q with settings := q.settings.withPlaceholder p } (h 0)⟩

/-- A record has the row that is made of its map. -/
theorem hasRow_record {columns : List Identifier} (hne : columns ≠ []) {r : Record}
    (hm : ∀ place, mapOfRecord q.settings.tag place r = .ok m)
    (h : ∀ place, rowOfMap place (columns.map Identifier.name) m = .ok row) :
    q.HasRow columns (.record r) row := by
  refine ⟨⟨m, fun place => (mapOfRecord_place (hm place) place).2, get?_of_rowOfMap (h 0)⟩,
    fun p => ?_⟩
  obtain ⟨fields, hfields, -⟩ := mapOfRecord_eq_ok.1 (hm 0)
  have hmaps : mapsOfRecords q.settings.tag 0 [r] = .ok [m] := bind_eq_ok.2 ⟨m, hm 0, rfl⟩
  have hinferred : columnsOfRecords q.settings.tag [r] = .ok _ :=
    map_eq_ok.2 ⟨fields, hfields, rfl⟩
  exact bind_eq_ok.2 ⟨[m], hmaps, bind_eq_ok.2 ⟨_, hinferred,
    keyedRows_single hne _ { q with settings := q.settings.withPlaceholder p } (h 0)⟩⟩

/-- Records have the rows that are made of their maps. -/
theorem hasRow_records {columns : List Identifier} (hne : columns ≠ []) {records : List Record}
    {maps : List ValueMap}
    (hmaps : List.Forall₂ (fun r m => ∀ place, mapOfRecord q.settings.tag place r = .ok m)
      records maps)
    (hrows : List.Forall₂ (fun m row => ∀ place,
      rowOfMap place (columns.map Identifier.name) m = .ok row) maps rows) :
    List.Forall₂ (q.HasRow columns) (records.map .record) rows := by
  induction hmaps generalizing rows with
  | nil =>
      cases hrows
      exact .nil
  | cons hm _ ih =>
      cases hrows with
      | cons hrow hmore => exact .cons (hasRow_record hne hm hrow) (ih hmore)

/-- Without columns of its own a statement names the keys of its maps. -/
theorem namedColumns_maps {maps : List ValueMap} (hsource : q.source = .maps maps)
    (hne : q.columnsOr (columnsOfMaps maps) ≠ []) :
    q.namedColumns = .ok (q.columnsOr (columnsOfMaps maps)) := by
  rw [columnsOr] at hne ⊢
  rw [namedColumns, hsource]
  by_cases hgiven : q.columns = []
  · rw [hgiven] at hne ⊢
    have hinferred : columnsOfMaps maps ≠ [] := hne
    simp [hinferred, bind, Except.bind, pure, Except.pure]
  · simp [hgiven, bind, Except.bind, pure, Except.pure]

/-- Without columns of its own a statement names the fields of its records. -/
theorem namedColumns_records {records : List Record} (hsource : q.source = .records records)
    {inferred : List Identifier}
    (hcolumns : columnsOfRecords q.settings.tag records = .ok inferred)
    (hne : q.columnsOr inferred ≠ []) : q.namedColumns = .ok (q.columnsOr inferred) := by
  rw [columnsOr] at hne ⊢
  rw [namedColumns, hsource]
  by_cases hgiven : q.columns = []
  · rw [hgiven] at hne ⊢
    have hinferred : inferred ≠ [] := hne
    simp [hcolumns, hinferred, bind, Except.bind, pure, Except.pure]
  · simp [hgiven, bind, Except.bind, pure, Except.pure]

/-- An item that has a row has the columns for its names, wherever it stands. -/
theorem HasRow.keys_perm {columns : List Identifier} {item : NamedItem}
    (h : q.HasRow columns item row) :
    ∃ m : ValueMap, (∀ place, item.toMap q.settings.tag place = .ok m) ∧
      m.keys.Perm (columns.map Identifier.name) := by
  obtain ⟨⟨m, hm, -⟩, halone⟩ := h
  have hkeyed : ∀ {given : List Identifier} {found : ValueMap},
      keyedRows given [found] = .ok (columns, [row]) →
        found.keys.Perm (columns.map Identifier.name) := by
    intro given found h
    obtain ⟨-, -, hrows⟩ := keyedRows_eq_ok.1 h
    cases rowOfMap_of_rowsOfMaps hrows with
    | cons hrow _ => exact keys_perm_of_rowOfMap (hrow 0)
  have halone := halone .question
  cases item with
  | map found =>
      obtain rfl := Except.ok.inj (hm 0)
      exact ⟨_, hm, hkeyed halone⟩
  | record r =>
      obtain ⟨maps, hmaps, halone⟩ := bind_eq_ok.1 halone
      obtain ⟨_, -, halone⟩ := bind_eq_ok.1 halone
      cases mapOfRecord_of_mapsOfRecords hmaps with
      | cons hfound hrest =>
          cases hrest
          obtain rfl := Except.ok.inj ((hm 0).symm.trans (mapOfRecord_place (hfound 0) 0).2)
          exact ⟨_, hm, hkeyed halone⟩

/-- The items of a statement with rows have the same names. -/
theorem keys_perm_of_hasRow {columns : List Identifier} {items : List NamedItem}
    {rows : List (List Value)} (h : List.Forall₂ (q.HasRow columns) items rows) :
    ∀ item ∈ items, ∃ m : ValueMap, (∀ place, item.toMap q.settings.tag place = .ok m) ∧
      m.keys.Perm (columns.map Identifier.name) := by
  induction h with
  | nil => exact fun item hitem => absurd hitem List.not_mem_nil
  | cons hrow _ ih => exact List.forall_mem_cons.2 ⟨hrow.keys_perm, ih⟩

/-- **Every item has its row by itself.**  In a statement of maps or records with rows, the
columns of the rows are those of the named markers. -/
theorem resolve_items {columns : List Identifier} {items : List NamedItem}
    (h : q.resolve = .ok (columns, rows)) (hitems : q.namedItems = .ok items) :
    q.namedColumns = .ok columns ∧ List.Forall₂ (q.HasRow columns) items rows := by
  rw [resolve] at h
  rw [namedItems] at hitems
  split at hitems
  · exact absurd hitems (by simp)
  · exact absurd hitems (by simp)
  · rename_i maps hsource
    obtain rfl := Except.ok.inj hitems
    rw [hsource] at h
    obtain ⟨hne, rfl, hrows⟩ := keyedRows_eq_ok.1 h
    refine ⟨namedColumns_maps hsource hne, List.forall₂_map_left_iff.2 ?_⟩
    exact (rowOfMap_of_rowsOfMaps hrows).imp fun _ _ => hasRow_map hne
  · rename_i records hsource
    obtain rfl := Except.ok.inj hitems
    rw [hsource] at h
    obtain ⟨maps, hmaps, h⟩ := bind_eq_ok.1 h
    obtain ⟨inferred, hinferred, h⟩ := bind_eq_ok.1 h
    obtain ⟨hne, rfl, hrows⟩ := keyedRows_eq_ok.1 h
    exact ⟨namedColumns_records hsource hinferred hne,
      hasRow_records hne (mapOfRecord_of_mapsOfRecords hmaps) (rowOfMap_of_rowsOfMaps hrows)⟩

end Insert

end BoundSql
