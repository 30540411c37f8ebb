import Mathlib.Data.List.Nodup
import BoundSql.Proofs.Statement.InsertPlaces

/-!
# Which entries an INSERT takes

An INSERT without an error that holds an entry is finished just if it has columns and every
entry obeys them: positional rows by their number of values, maps and records by their names.
Entries are checked in order, so the place in a mismatch is the place of an entry that does
not obey, and of rows and maps the first such entry (`InsertDraft.build_accepts`).  Of records
all are first checked for columns that come twice, so an earlier one may have other names than
the columns.
-/

namespace BoundSql

/-- Names are distinct and are just some keys. -/
structure NamesKeys (names keys : List String) : Prop where
  nodup : names.Nodup
  mem_iff : ∀ name, name ∈ names ↔ name ∈ keys

/-- Since no key occurs twice, naming the keys means listing them in some order. -/
theorem namesKeys_iff_perm {names keys : List String} (hkeys : keys.Nodup) :
    NamesKeys names keys ↔ keys.Perm names := by
  constructor
  · exact fun h => (List.perm_ext_iff_of_nodup hkeys h.nodup).2 fun name => (h.mem_iff name).symm
  · exact fun h => ⟨h.nodup_iff.1 hkeys, fun name => h.symm.mem_iff⟩

namespace Record

/-- Under a tag a record has columns, none of them twice. -/
structure Listed (tag : String) (r : Record) (fields : List (String × Value)) : Prop where
  fields_eq : r.fields tag = some fields
  ne_nil : fields ≠ []
  nodup : (fields.map Prod.fst).Nodup

end Record

namespace Entry

/-- The rule for an entry: a row has a value for each column, the names of the columns are
distinct and just the keys of a map, and just the columns of a record, which has some and none
of them twice. -/
def Obeys (tag : String) (columns : List Identifier) : Entry → Prop
  | .values row => row.length = columns.length
  | .map m => NamesKeys (columns.map Identifier.name) m.keys
  | .record r => ∃ fields, r.Listed tag fields ∧
      NamesKeys (columns.map Identifier.name) (fields.map Prod.fst)

end Entry

namespace Insert

/-! ## Faults and their places -/

/-- An error is about the first element that is not good; if it is a mismatch it says where,
counted from an index. -/
def Blames {α : Type} (Good : α → Prop) (index : Nat) (as : List α) (e : SqlError) : Prop :=
  ∃ k a, as[k]? = some a ∧ ¬Good a ∧ (∀ j < k, ∀ b, as[j]? = some b → Good b) ∧
    ∀ i message, e = .rowMismatch i message → i = index + k

section

variable {α : Type} {Good : α → Prop} {index : Nat} {as : List α} {a : α} {e : SqlError}

/-- An error of the first entry is blamed on it. -/
theorem blames_head (ha : ¬Good a) (he : ∀ i message, e = .rowMismatch i message → i = index) :
    Blames Good index (a :: as) e :=
  ⟨0, a, rfl, ha, fun _ hj => absurd hj (Nat.not_lt_zero _), he⟩

/-- An error of a later entry is blamed on it, since the first one is good. -/
theorem Blames.cons (ha : Good a) (h : Blames Good (index + 1) as e) :
    Blames Good index (a :: as) e := by
  obtain ⟨k, b, hb, hbad, hbefore, he⟩ := h
  refine ⟨k + 1, b, hb, hbad, fun j hj c hc => ?_, fun i message hi => ?_⟩
  · cases j with
    | zero => exact Option.some.inj hc ▸ ha
    | succ j => exact hbefore j (Nat.lt_of_succ_lt_succ hj) c hc
  · rw [he i message hi]
    omega

/-- Over related elements the same places are blamed. -/
theorem Blames.related {β : Type} {R : β → α → Prop} {Good' : β → Prop} {bs : List β}
    (h : Blames Good index as e) (hrelated : List.Forall₂ R bs as)
    (hgood : ∀ b a, R b a → (Good' b ↔ Good a)) : Blames Good' index bs e := by
  obtain ⟨k, a, ha, hbad, hbefore, he⟩ := h
  obtain ⟨b, hb, hba⟩ := exists_of_forall₂ hrelated.flip ha
  refine ⟨k, b, hb, fun h => hbad ((hgood b a hba).1 h), fun j hj c hc => ?_, he⟩
  obtain ⟨d, hd, hcd⟩ := exists_of_forall₂ hrelated hc
  exact (hgood c d hcd).2 (hbefore j hj d hd)

end

variable {tag : String} {index : Nat} {names : List String} {m : ValueMap} {e : SqlError}

/-- A row of another width than the columns is blamed. -/
theorem checkWidths_blames {width : Nat} {rows : List (List Value)}
    (h : checkWidths width index rows = .error e) :
    Blames (fun row => row.length = width) index rows e := by
  induction rows generalizing index with
  | nil => exact absurd h (by simp [checkWidths])
  | cons row rows ih =>
      rw [checkWidths] at h
      split at h
      · rename_i hrow
        exact (ih h).cons hrow
      · rename_i hrow
        obtain rfl := Except.error.inj h
        exact blames_head hrow fun i message hi => (SqlError.rowMismatch.inj hi).1.symm

/-- A map whose keys are the names has a row. -/
theorem exists_rowOfMap (h : m.keys.Perm names) (index : Nat) :
    ∃ row, rowOfMap index names m = .ok row := by
  induction names generalizing m with
  | nil =>
      refine ⟨[], ?_⟩
      rw [rowOfMap, List.Perm.eq_nil h]
  | cons name names ih =>
      have hname : name ∈ m.keys := h.mem_iff.2 List.mem_cons_self
      obtain ⟨v, hv⟩ := Option.isSome_iff_exists.1 (KeyMap.isSome_get?.2 hname)
      have hrest : (m.erase name).keys.Perm names :=
        ((KeyMap.keys_perm_erase hname).symm.trans h).cons_inv
      obtain ⟨row, hrow⟩ := ih hrest
      exact ⟨v :: row, rowOfMap_cons.2 ⟨v, row, hv, hrow, rfl⟩⟩

/-- What is wrong with a map is reported at its own index. -/
theorem rowOfMap_mismatch (h : rowOfMap index names m = .error e) :
    ∃ message, e = .rowMismatch index message := by
  induction names generalizing m with
  | nil =>
      rw [rowOfMap] at h
      split at h
      · exact absurd h (by simp)
      · exact ⟨_, (Except.error.inj h).symm⟩
  | cons name names ih =>
      rw [rowOfMap] at h
      split at h
      · exact ⟨_, (Except.error.inj h).symm⟩
      · exact ih (map_eq_error.1 h)

/-- A map whose keys are not the columns is blamed. -/
theorem rowsOfMaps_blames {maps : List ValueMap} (h : rowsOfMaps names index maps = .error e) :
    Blames (fun m : ValueMap => NamesKeys names m.keys) index maps e := by
  induction maps generalizing index with
  | nil => exact absurd h (by simp [rowsOfMaps])
  | cons m maps ih =>
      rcases bind_eq_error.1 h with hrow | ⟨row, hrow, h⟩
      · refine blames_head (fun hkeys => ?_) fun i message hi => ?_
        · obtain ⟨row, hok⟩ := exists_rowOfMap ((namesKeys_iff_perm m.nodup_keys).1 hkeys) index
          rw [hrow] at hok
          exact absurd hok (by simp)
        · obtain ⟨message', hmismatch⟩ := rowOfMap_mismatch hrow
          exact (SqlError.rowMismatch.inj (hi.symm.trans hmismatch)).1
      · rcases bind_eq_error.1 h with hmore | ⟨rows, -, h⟩
        · exact (ih hmore).cons ((namesKeys_iff_perm m.nodup_keys).2 (keys_perm_of_rowOfMap hrow))
        · exact absurd h pure_ne_error

/-! ## Records -/

/-- A map with as many keys as there are fields, which are therefore distinct. -/
theorem size_ofList_iff {fields : List (String × Value)} :
    (KeyMap.ofList fields).size = fields.length ↔ (fields.map Prod.fst).Nodup := by
  constructor
  · exact fun h => (KeyMap.keys_ofList_perm h).nodup_iff.1 (KeyMap.nodup_keys _)
  · intro h
    have hperm : (KeyMap.ofList fields).keys.Perm (fields.map Prod.fst) :=
      (List.perm_ext_iff_of_nodup (KeyMap.nodup_keys _) h).2 fun _ => KeyMap.mem_keys_ofList
    simpa [KeyMap.keys, KeyMap.size] using hperm.length_eq

/-- The map of a record has the fields that the record lists under the tag. -/
theorem mapOfRecord_eq_ok_iff {r : Record} : mapOfRecord tag index r = .ok m ↔
    ∃ fields, r.Listed tag fields ∧ KeyMap.ofList fields = m := by
  rw [mapOfRecord_eq_ok]
  refine exists_congr fun fields => ?_
  rw [Record.fieldsAt_eq_ok]
  constructor
  · rintro ⟨⟨hne, hfields⟩, rfl, hsize⟩
    exact ⟨⟨hfields, hne, size_ofList_iff.1 hsize⟩, rfl⟩
  · rintro ⟨⟨hfields, hne, hnodup⟩, rfl⟩
    exact ⟨⟨hne, hfields⟩, rfl, size_ofList_iff.2 hnodup⟩

/-- What is wrong with a record is reported at its own index, if at any. -/
theorem mapOfRecord_mismatch {r : Record} (h : mapOfRecord tag index r = .error e) :
    ∀ i message, e = .rowMismatch i message → i = index := by
  rintro i message rfl
  rcases bind_eq_error.1 h with hfields | ⟨fields, -, h⟩
  · rw [Record.fieldsAt] at hfields
    split at hfields
    · exact absurd hfields (by simp)
    · exact absurd (Except.error.inj hfields) (by simp)
  · simp only at h
    split at h
    · exact absurd h pure_ne_error
    · exact (SqlError.rowMismatch.inj (Except.error.inj h)).1.symm

/-- A record that lists no fields under the tag is blamed. -/
theorem mapsOfRecords_blames {records : List Record}
    (h : mapsOfRecords tag index records = .error e) :
    Blames (fun r : Record => ∃ fields, r.Listed tag fields) index records e := by
  induction records generalizing index with
  | nil => exact absurd h (by simp [mapsOfRecords])
  | cons r records ih =>
      rcases bind_eq_error.1 h with hm | ⟨m, hm, h⟩
      · refine blames_head (fun ⟨fields, hfields⟩ => ?_) (mapOfRecord_mismatch hm)
        rw [mapOfRecord_eq_ok_iff.2 ⟨fields, hfields, rfl⟩] at hm
        exact absurd hm (by simp)
      · obtain ⟨fields, hfields, -⟩ := mapOfRecord_eq_ok_iff.1 hm
        rcases bind_eq_error.1 h with hmore | ⟨maps, -, h⟩
        · exact (ih hmore).cons ⟨fields, hfields⟩
        · exact absurd h pure_ne_error

/-- A record obeys just if its map does. -/
theorem obeys_record_iff {r : Record} {columns : List Identifier}
    (hm : mapOfRecord tag index r = .ok m) :
    (Entry.record r).Obeys tag columns ↔ NamesKeys (columns.map Identifier.name) m.keys := by
  obtain ⟨fields, hfields, rfl⟩ := mapOfRecord_eq_ok_iff.1 hm
  have hkeys : (KeyMap.ofList fields).keys.Perm (fields.map Prod.fst) :=
    KeyMap.keys_ofList_perm (size_ofList_iff.2 hfields.nodup)
  rw [namesKeys_iff_perm (KeyMap.nodup_keys _)]
  constructor
  · rintro ⟨other, hother, hnames⟩
    obtain rfl := Option.some.inj (hother.fields_eq.symm.trans hfields.fields_eq)
    exact hkeys.trans ((namesKeys_iff_perm hfields.nodup).1 hnames)
  · exact fun h => ⟨fields, hfields, (namesKeys_iff_perm hfields.nodup).2 (hkeys.symm.trans h)⟩

/-! ## Rows of a statement -/

variable {q : Insert}

/-- Rows of maps under columns, or why there are none. -/
theorem keyedRows_error {given : List Identifier} {maps : List ValueMap}
    (h : keyedRows given maps = .error e) :
    (given = [] ∧ e = noColumns) ∨
      Blames (fun m : ValueMap => NamesKeys (given.map Identifier.name) m.keys) 0 maps e := by
  rw [keyedRows] at h
  split at h
  · rename_i hgiven
    exact .inl ⟨List.isEmpty_iff.1 hgiven, (Except.error.inj h).symm⟩
  · rcases bind_eq_error.1 h with hrows | ⟨rows, -, h⟩
    · exact .inr (rowsOfMaps_blames hrows)
    · exact absurd h pure_ne_error

/-- Maps that have rows under columns have their names for keys. -/
theorem namesKeys_of_keyedRows {given columns : List Identifier} {maps : List ValueMap}
    {rows : List (List Value)} (h : keyedRows given maps = .ok (columns, rows)) :
    given ≠ [] ∧ ∀ m ∈ maps, NamesKeys (given.map Identifier.name) m.keys := by
  obtain ⟨hne, rfl, hrows⟩ := keyedRows_eq_ok.1 h
  refine ⟨hne, fun m hm => ?_⟩
  obtain ⟨j, hj⟩ := List.mem_iff_getElem?.1 hm
  obtain ⟨row, -, hrow⟩ := exists_of_forall₂ (rowOfMap_of_rowsOfMaps hrows) hj
  exact (namesKeys_iff_perm m.nodup_keys).2 (keys_perm_of_rowOfMap (hrow 0))

/-- **What has rows obeys.** -/
theorem obeys_of_resolve {columns : List Identifier} {rows : List (List Value)}
    (h : q.resolve = .ok (columns, rows)) :
    q.rowColumns ≠ [] ∧ ∀ entry ∈ q.source.entries, entry.Obeys q.settings.tag q.rowColumns := by
  have hcolumns : columns = q.rowColumns := (hasRow_of_resolve h).1
  rw [resolve] at h
  split at h
  · exact absurd h (by simp)
  · rename_i given hsource
    obtain ⟨hgiven, h⟩ := guard_eq_ok.1 h
    obtain ⟨hwidths, h⟩ := bind_unit_eq_ok.1 h
    obtain ⟨rfl, rfl⟩ := Prod.mk.inj (pure_eq_ok.1 h)
    rw [← hcolumns, hsource]
    refine ⟨fun hnil => hgiven (List.isEmpty_iff.2 hnil), List.forall_mem_map.2 fun row hrow => ?_⟩
    exact length_of_checkWidths hwidths row hrow
  · rename_i maps hsource
    obtain ⟨hne, hkeys⟩ := namesKeys_of_keyedRows h
    obtain ⟨-, rfl, -⟩ := keyedRows_eq_ok.1 h
    rw [← hcolumns, hsource]
    exact ⟨hne, List.forall_mem_map.2 hkeys⟩
  · rename_i records hsource
    obtain ⟨maps, hmaps, h⟩ := bind_eq_ok.1 h
    obtain ⟨inferred, -, h⟩ := bind_eq_ok.1 h
    obtain ⟨hne, hkeys⟩ := namesKeys_of_keyedRows h
    obtain ⟨-, rfl, -⟩ := keyedRows_eq_ok.1 h
    rw [← hcolumns, hsource]
    refine ⟨hne, List.forall_mem_map.2 fun r hr => ?_⟩
    obtain ⟨j, hj⟩ := List.mem_iff_getElem?.1 hr
    obtain ⟨m, hm, hmap⟩ := exists_of_forall₂ (mapOfRecord_of_mapsOfRecords hmaps) hj
    exact (obeys_record_iff (hmap 0)).2 (hkeys m (List.mem_of_getElem? hm))

/-- Why a statement with entries has no rows: it has no columns, or an entry does not obey.
Of rows and maps this is the first such entry. -/
def Faulty (q : Insert) (e : SqlError) : Prop :=
  (q.rowColumns = [] ∧ ∀ i message, e ≠ .rowMismatch i message) ∨
    ∃ k entry, q.source.entries[k]? = some entry ∧
      ¬entry.Obeys q.settings.tag q.rowColumns ∧
      (∀ i message, e = .rowMismatch i message → i = k) ∧
      ((∀ records, q.source ≠ .records records) → ∀ j < k, ∀ earlier,
        q.source.entries[j]? = some earlier → earlier.Obeys q.settings.tag q.rowColumns)

/-- An error that blames an entry is a fault of the statement. -/
theorem faulty_of_blames {e : SqlError}
    (h : Blames (Entry.Obeys q.settings.tag q.rowColumns) 0 q.source.entries e) :
    q.Faulty e := by
  obtain ⟨k, entry, hentry, hbad, hbefore, he⟩ := h
  refine .inr ⟨k, entry, hentry, hbad, fun i message hi => ?_, fun _ => hbefore⟩
  rw [he i message hi, Nat.zero_add]

/-- Maps under the columns of a statement whose entries they stand for. -/
theorem faulty_of_keyedRows {maps : List ValueMap}
    (hmaps : List.Forall₂ (fun (entry : Entry) (m : ValueMap) =>
      entry.Obeys q.settings.tag q.rowColumns ↔
        NamesKeys (q.rowColumns.map Identifier.name) m.keys) q.source.entries maps)
    (h : keyedRows q.rowColumns maps = .error e) : q.Faulty e := by
  rcases keyedRows_error h with ⟨hnone, rfl⟩ | hblames
  · exact .inl ⟨hnone, fun _ _ => by simp [noColumns]⟩
  · exact faulty_of_blames (hblames.related hmaps fun _ _ => id)

/-- Rows have the columns that were set, and nothing to infer others from. -/
theorem rowColumns_rows {rows : List (List Value)} (hsource : q.source = .rows rows) :
    q.rowColumns = q.columns := by
  have hinferred : ((q.source.entries.head?.map (Entry.columns q.settings.tag)).getD []) = [] := by
    rw [hsource]
    cases rows <;> rfl
  rw [rowColumns, columnsOr, hinferred]
  split
  · rename_i hnone
    exact (List.isEmpty_iff.1 hnone).symm
  · rfl

/-- Maps have the columns that were set, or else their keys. -/
theorem rowColumns_maps {maps : List ValueMap} (hsource : q.source = .maps maps) :
    q.rowColumns = q.columnsOr (columnsOfMaps maps) := by
  rw [rowColumns, hsource]
  cases maps <;> rfl

/-- Records have the columns that were set, or else those under the tag. -/
theorem rowColumns_records {records : List Record} (hsource : q.source = .records records)
    {inferred : List Identifier}
    (hinferred : columnsOfRecords q.settings.tag records = .ok inferred) :
    q.rowColumns = q.columnsOr inferred := by
  rw [rowColumns, hsource, columnsOfRecords_eq hinferred]
  cases records <;> rfl

/-- Records that have maps have columns to be inferred. -/
theorem exists_columnsOfRecords {records : List Record} {maps : List ValueMap}
    (h : mapsOfRecords tag index records = .ok maps) :
    ∃ inferred, columnsOfRecords tag records = .ok inferred := by
  cases records with
  | nil => exact ⟨[], rfl⟩
  | cons r records =>
      obtain ⟨m, hm, -⟩ := bind_eq_ok.1 h
      obtain ⟨fields, hfields, -⟩ := mapOfRecord_eq_ok.1 ((mapOfRecord_place hm 0).1)
      exact ⟨_, map_eq_ok.2 ⟨fields, hfields, rfl⟩⟩

/-- **What has no rows has a fault.** -/
theorem faulty_of_resolve (hne : q.source.entries ≠ []) (h : q.resolve = .error e) :
    q.Faulty e := by
  rw [resolve] at h
  split at h
  · rename_i hsource
    rw [hsource] at hne
    exact absurd rfl hne
  · rename_i rows hsource
    have hcolumns := rowColumns_rows hsource
    split at h
    · rename_i hnone
      obtain rfl := Except.error.inj h
      exact .inl ⟨hcolumns.trans (List.isEmpty_iff.1 hnone), fun _ _ => by simp⟩
    · rcases bind_eq_error.1 h with hwidths | ⟨-, -, h⟩
      · refine faulty_of_blames ((checkWidths_blames hwidths).related
          (R := fun entry row => entry = .values row) ?_ ?_)
        · rw [hsource]
          exact List.forall₂_map_left_iff.2 (List.forall₂_same.2 fun _ _ => rfl)
        · rintro _ row rfl
          rw [hcolumns]
          exact Iff.rfl
      · exact absurd h pure_ne_error
  · rename_i maps hsource
    rw [← rowColumns_maps hsource] at h
    refine faulty_of_keyedRows ?_ h
    rw [hsource]
    exact List.forall₂_map_left_iff.2 (List.forall₂_same.2 fun _ _ => Iff.rfl)
  · rename_i records hsource
    rcases bind_eq_error.1 h with hmaps | ⟨maps, hmaps, h⟩
    · -- all records are listed before any is compared with the columns: the first that cannot
      -- be listed is blamed, whatever the names of those in front of it
      obtain ⟨k, r, hr, hbad, -, he⟩ := mapsOfRecords_blames hmaps
      refine .inr ⟨k, .record r, ?_, fun hobeys => hbad ?_, fun i message hi => ?_,
        fun hother => absurd hsource (hother records)⟩
      · rw [hsource, Source.entries, List.getElem?_map, hr]
        rfl
      · obtain ⟨fields, hfields, -⟩ := hobeys
        exact ⟨fields, hfields⟩
      · rw [he i message hi, Nat.zero_add]
    · obtain ⟨inferred, hinferred⟩ := exists_columnsOfRecords hmaps
      have hrows : keyedRows q.rowColumns maps = .error e := by
        rw [hinferred] at h
        rw [rowColumns_records hsource hinferred]
        exact h
      refine faulty_of_keyedRows ?_ hrows
      rw [hsource]
      exact List.forall₂_map_left_iff.2 ((mapOfRecord_of_mapsOfRecords hmaps).imp fun _ _ hm =>
        obeys_record_iff (hm 0))

end Insert

namespace InsertDraft

open BoundSql.Insert

/-- **An INSERT takes just the entries that obey its columns, and says which one does not.**
For every statement without an error that holds an entry: it is finished if and only if it has
columns and every entry obeys them.  If it is refused with the place of a mismatch, there is an
entry at this place and it does not obey; if the entries are rows or maps, all earlier ones
do. -/
theorem build_accepts {d : Draft Insert} (hd : d.error? = none)
    (hne : d.state.source.entries ≠ []) :
    let q := d.state
    let entries := q.source.entries
    let tag := q.settings.tag
    let columns := q.columnsOr ((entries.head?.map (Entry.columns tag)).getD [])
    ((∃ st, build d = .ok st) ↔ columns ≠ [] ∧ ∀ entry ∈ entries, entry.Obeys tag columns) ∧
      ∀ i message, build d = .error (.rowMismatch i message) →
        (∃ entry, entries[i]? = some entry ∧ ¬entry.Obeys tag columns) ∧
          ((∀ records, q.source ≠ .records records) →
            ∀ j < i, ∀ earlier, entries[j]? = some earlier → earlier.Obeys tag columns) := by
  intro q entries tag columns
  have hbuild : build d = q.statement := by
    rw [build, Draft.get, hd]
    rfl
  rw [hbuild, statement]
  cases hresolve : q.resolve with
  | ok found =>
      obtain ⟨found, rows⟩ := found
      refine ⟨iff_of_true ⟨_, rfl⟩ (obeys_of_resolve hresolve), fun i message h => ?_⟩
      exact absurd h pure_ne_error
  | error e =>
      have hrefused : ¬∃ st : Statement, (Except.error e : Except SqlError Statement) = .ok st := by
        simp
      rcases faulty_of_resolve hne hresolve with
        ⟨hnone, hplaceless⟩ | ⟨k, entry, hentry, hbad, hplace, hfirst⟩
      · exact ⟨iff_of_false hrefused fun h => h.1 hnone, fun i message h =>
          absurd (Except.error.inj h) (hplaceless i message)⟩
      · refine ⟨iff_of_false hrefused fun h => hbad (h.2 entry (List.mem_of_getElem? hentry)), ?_⟩
        intro i message h
        obtain rfl := hplace i message (Except.error.inj h)
        exact ⟨⟨entry, hentry, hbad⟩, hfirst⟩

/-- Three maps, of which the last two have other keys than the columns of the first: the
second is named. -/
theorem build_accepts_maps :
    let first : ValueMap := .ofList [("b", .int 2), ("a", .int 1)]
    let second : ValueMap := .ofList [("a", .int 3)]
    let d := ofCalls .insert "t" [.maps [first, second, .ofList []]]
    build d = .error (.rowMismatch 1 "missing key 'b'") ∧
      ¬(Entry.map second).Obeys "db" [.single "a", .single "b"] ∧
        (Entry.map first).Obeys "db" [.single "a", .single "b"] := by
  intro first second d
  have hbuild : build d = .error (.rowMismatch 1 "missing key 'b'") := rfl
  obtain ⟨-, hplace⟩ := build_accepts (d := d) rfl (List.cons_ne_nil _ _)
  obtain ⟨⟨entry, hentry, hbad⟩, hfirst⟩ := hplace 1 _ hbuild
  obtain rfl := Option.some.inj hentry
  exact ⟨hbuild, hbad, hfirst nofun 0 Nat.one_pos _ rfl⟩

end InsertDraft

end BoundSql
