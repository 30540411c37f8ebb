import BoundSql.Proofs.Statement.Builder
import BoundSql.Proofs.Template.Masking

/-!
# Masked INSERT statements

The rows of an INSERT statement have a shape: the lengths of positional rows, the keys
of maps, the columns of records under every tag.  Masking keeps the shape, and the
shape alone decides whether rows fit the columns, which columns are inferred and which
row is reported.  So alike calls on INSERT statements that are the same when masked
have statements that are the same when masked, in the positional form and in the form
with named markers.
-/

namespace BoundSql

namespace Record

/-- A record with its values masked under every tag. -/
def mask (r : Record) : Record := ⟨fun tag => (r.fields tag).map (List.map KeyMap.maskEntry)⟩

/-- Masking a record masks the values of its fields and nothing of its names. -/
theorem fields_mask (r : Record) (tag : String) :
    r.mask.fields tag = (r.fields tag).map (List.map KeyMap.maskEntry) := rfl

/-- Whether a record has fields under a tag does not depend on their values. -/
theorem fieldsAt_mask (r : Record) (tag : String) (index : Nat) :
    r.mask.fieldsAt tag index = (r.fieldsAt tag index).map (List.map KeyMap.maskEntry) := by
  rw [fieldsAt, fieldsAt, fields_mask]
  rcases r.fields tag with _ | _ | ⟨field, fields⟩ <;> rfl

end Record

/-- Rows with their values masked. -/
def Source.mask : Source → Source
  | .empty => .empty
  | .rows rs => .rows (rs.map (List.map Value.mask))
  | .maps ms => .maps (ms.map KeyMap.mask)
  | .records rs => .records (rs.map Record.mask)

def Assigned.mask : Assigned → Assigned
  | .value v => .value v.mask
  | .raw sql => .raw sql

def Assignment.mask (a : Assignment) : Assignment := ⟨a.column, a.assigned.mask⟩

def NamedItem.mask : NamedItem → NamedItem
  | .map m => .map m.mask
  | .record r => .record r.mask

def NamedStatement.mask (n : NamedStatement) : NamedStatement :=
  { n with items := n.items.map NamedItem.mask }

namespace Insert

/-- A statement with its values masked. -/
def mask (q : Insert) : Insert :=
  { q with source := q.source.mask, assignments := q.assignments.map Assignment.mask }

/-- Calls that differ in their values alone. -/
inductive Call.Alike : Call → Call → Prop
  | same (c : Call) : Alike c c
  | rows {rows rows' : List (List Value)}
      (h : rows.map (List.map Value.mask) = rows'.map (List.map Value.mask)) :
      Alike (.rows rows) (.rows rows')
  | maps {maps maps' : List ValueMap} (h : maps.map KeyMap.mask = maps'.map KeyMap.mask) :
      Alike (.maps maps) (.maps maps')
  | records {records records' : List Record}
      (h : records.map Record.mask = records'.map Record.mask) :
      Alike (.records records) (.records records')
  | update (column : Identifier) (v v' : Value) :
      Alike (.update column (.value v)) (.update column (.value v'))

/-! ## Calls -/

/-- Rows are added to others, or refused, whatever their values are. -/
theorem addRows_mask (current added : Source) :
    addRows current.mask added.mask = (addRows current added).map Source.mask := by
  cases current <;> cases added <;>
    simp [addRows, Source.mask, mixedSources, Source.describe, Except.map]

variable {q q' r r' : Insert}

/-- Rows of the same shape are added alike. -/
theorem addRows_masked {added added' source source' : Source} (h : q.mask = q'.mask)
    (hadded : added.mask = added'.mask) (hs : addRows q.source added = .ok source)
    (hs' : addRows q'.source added' = .ok source') :
    mask { q with source } = mask { q' with source := source' } := by
  have hsource : q.source.mask = q'.source.mask := congrArg Insert.source h
  have hmask := addRows_mask q.source added
  rw [hsource, hadded, addRows_mask, hs, hs'] at hmask
  calc
    _ = { q.mask with source := source.mask } := rfl
    _ = { q'.mask with source := source'.mask } := by rw [h, Except.ok.inj hmask]

/-- Two assignments that are alike lead to statements that are alike. -/
theorem apply_update_masked {column : Identifier} {assigned assigned' : Assigned}
    (h : q.mask = q'.mask) (ha : assigned.mask = assigned'.mask)
    (hr : q.apply (.update column assigned) = .ok r)
    (hr' : q'.apply (.update column assigned') = .ok r') : r.mask = r'.mask := by
  have hupdate : ∀ {q r : Insert} {assigned : Assigned},
      q.apply (.update column assigned) = .ok r → r.mask = { q.mask with
        assignments := q.mask.assignments ++ [⟨column, assigned.mask⟩] } := by
    intro q r assigned h
    obtain ⟨-, -, rfl⟩ := apply_update_eq_ok.1 h
    rw [mask, List.map_append]
    rfl
  rw [hupdate hr, hupdate hr', h, ha]

/-- **Alike calls keep statements the same when masked.** -/
theorem apply_masked {c c' : Call} (h : q.mask = q'.mask) (hc : c.Alike c')
    (hr : q.apply c = .ok r) (hr' : q'.apply c' = .ok r') : r.mask = r'.mask := by
  have hrows : ∀ {added added' : Source} {r r' : Insert}, added.mask = added'.mask →
      (do return { q with source := ← addRows q.source added } : Except SqlError Insert) = .ok r →
      (do return { q' with source := ← addRows q'.source added' } : Except SqlError Insert) =
        .ok r' → r.mask = r'.mask := by
    intro added added' r r' hadded hr hr'
    obtain ⟨source, hsource, hr⟩ := bind_eq_ok.1 hr
    obtain ⟨source', hsource', hr'⟩ := bind_eq_ok.1 hr'
    rw [← pure_eq_ok.1 hr, ← pure_eq_ok.1 hr']
    exact addRows_masked h hadded hsource hsource'
  cases hc with
  | @rows rows rows' hrow =>
      have hmask : (Source.rows rows).mask = (Source.rows rows').mask := congrArg Source.rows hrow
      exact hrows hmask hr hr'
  | @maps maps maps' hmap =>
      have hmask : (Source.maps maps).mask = (Source.maps maps').mask := congrArg Source.maps hmap
      exact hrows hmask hr hr'
  | @records records records' hrecord =>
      have hmask : (Source.records records).mask = (Source.records records').mask :=
        congrArg Source.records hrecord
      exact hrows hmask hr hr'
  | update column v v' =>
      have hmask : (Assigned.value v).mask = (Assigned.value v').mask := rfl
      exact apply_update_masked h hmask hr hr'
  | same c =>
      cases c with
      | rows rows => exact hrows rfl hr hr'
      | maps maps => exact hrows rfl hr hr'
      | records records => exact hrows rfl hr hr'
      | update column assigned => exact apply_update_masked h rfl hr hr'
      | settings s =>
          rw [← Except.ok.inj hr, ← Except.ok.inj hr']
          exact congrArg (fun q : Insert => { q with settings := s }) h
      | dialect d =>
          rw [← Except.ok.inj hr, ← Except.ok.inj hr']
          exact congrArg (fun q : Insert => { q with settings := q.settings.withDialect d }) h
      | tag tag =>
          rw [← Except.ok.inj hr, ← Except.ok.inj hr']
          exact congrArg (fun q : Insert => { q with settings := q.settings.withTag tag }) h
      | columns names =>
          obtain ⟨-, rfl⟩ := apply_columns_eq_ok.1 hr
          obtain ⟨-, rfl⟩ := apply_columns_eq_ok.1 hr'
          exact congrArg (fun q : Insert => { q with columns := names }) h
      | ignore =>
          obtain ⟨-, rfl⟩ := apply_ignore_eq_ok.1 hr
          obtain ⟨-, rfl⟩ := apply_ignore_eq_ok.1 hr'
          exact congrArg (fun q : Insert => { q with ignore := true }) h
      | priority p =>
          obtain ⟨-, rfl⟩ := apply_priority_eq_ok.1 hr
          obtain ⟨-, rfl⟩ := apply_priority_eq_ok.1 hr'
          exact congrArg (fun q : Insert => { q with priority? := some p }) h
      | replace =>
          obtain ⟨-, -, -, rfl⟩ := apply_replace_eq_ok.1 hr
          obtain ⟨-, -, -, rfl⟩ := apply_replace_eq_ok.1 hr'
          exact congrArg (fun q : Insert => { q with mode := .replace }) h

/-! ## Rows -/

/-- Columns and rows, the rows masked. -/
def maskRows (resolved : List Identifier × List (List Value)) :
    List Identifier × List (List Value) :=
  (resolved.1, resolved.2.map (List.map Value.mask))

/-- The width of a row does not depend on its values. -/
theorem checkWidths_mask (width index : Nat) (rows : List (List Value)) :
    checkWidths width index (rows.map (List.map Value.mask)) = checkWidths width index rows := by
  induction rows generalizing index with
  | nil => rfl
  | cons row rest ih => rw [List.map_cons, checkWidths, checkWidths, List.length_map, ih]

/-- A map gives its row, or is refused, by its keys alone. -/
theorem rowOfMap_mask (index : Nat) (names : List String) (m : ValueMap) :
    rowOfMap index names m.mask = (rowOfMap index names m).map (List.map Value.mask) := by
  induction names generalizing m with
  | nil =>
      rw [rowOfMap, rowOfMap, KeyMap.keys_mask]
      cases m.keys <;> rfl
  | cons name rest ih =>
      rw [rowOfMap, rowOfMap, KeyMap.get?_mask]
      rcases m.get? name with _ | v
      · rfl
      · simp only [Option.map_some]
        rw [← KeyMap.mask_erase, ih]
        cases rowOfMap index rest (m.erase name) <;> rfl

/-- Maps give their rows, or the first is refused, by their keys alone. -/
theorem rowsOfMaps_mask (names : List String) (index : Nat) (maps : List ValueMap) :
    rowsOfMaps names index (maps.map KeyMap.mask) =
      (rowsOfMaps names index maps).map (List.map (List.map Value.mask)) := by
  induction maps generalizing index with
  | nil => rfl
  | cons m rest ih =>
      rw [List.map_cons, rowsOfMaps, rowsOfMaps, rowOfMap_mask, ih]
      rcases rowOfMap index names m with e | row
      · rfl
      · cases rowsOfMaps names (index + 1) rest <;> rfl

/-- Columns and rows are made of maps by their keys alone. -/
theorem keyedRows_mask (columns : List Identifier) (maps : List ValueMap) :
    keyedRows columns (maps.map KeyMap.mask) = (keyedRows columns maps).map maskRows := by
  rw [keyedRows, keyedRows, rowsOfMaps_mask]
  split
  · rfl
  · cases rowsOfMaps (columns.map Identifier.name) 0 maps <;> rfl

/-- A record gives its map, or is refused, by the names of its fields alone. -/
theorem mapOfRecord_mask (tag : String) (index : Nat) (r : Record) :
    mapOfRecord tag index r.mask = (mapOfRecord tag index r).map KeyMap.mask := by
  rw [mapOfRecord, mapOfRecord, Record.fieldsAt_mask]
  rcases r.fieldsAt tag index with e | fields
  · rfl
  · show (if (KeyMap.ofList (fields.map KeyMap.maskEntry)).size =
        (fields.map KeyMap.maskEntry).length then _ else _ : Except SqlError ValueMap) =
      (if (KeyMap.ofList fields).size = fields.length then _ else _ :
        Except SqlError ValueMap).map _
    rw [← KeyMap.mask_ofList, KeyMap.size_mask, List.length_map]
    split <;> rfl

/-- Records give their maps, or the first is refused, by the names of their fields alone. -/
theorem mapsOfRecords_mask (tag : String) (index : Nat) (records : List Record) :
    mapsOfRecords tag index (records.map Record.mask) =
      (mapsOfRecords tag index records).map (List.map KeyMap.mask) := by
  induction records generalizing index with
  | nil => rfl
  | cons r rest ih =>
      rw [List.map_cons, mapsOfRecords, mapsOfRecords, mapOfRecord_mask, ih]
      rcases mapOfRecord tag index r with e | m
      · rfl
      · cases mapsOfRecords tag (index + 1) rest <;> rfl

/-- The columns that are inferred from maps are keys, so no value shows in them. -/
theorem columnsOfMaps_mask (maps : List ValueMap) :
    columnsOfMaps (maps.map KeyMap.mask) = columnsOfMaps maps := by
  cases maps with
  | nil => rfl
  | cons m rest => rw [List.map_cons, columnsOfMaps, columnsOfMaps, KeyMap.keys_mask]

/-- The columns that are inferred from records are names of fields, so no value shows in them. -/
theorem columnsOfRecords_mask (tag : String) (records : List Record) :
    columnsOfRecords tag (records.map Record.mask) = columnsOfRecords tag records := by
  cases records with
  | nil => rfl
  | cons r rest =>
      rw [List.map_cons, columnsOfRecords, columnsOfRecords, Record.fieldsAt_mask]
      rcases r.fieldsAt tag 0 with e | fields
      · rfl
      · exact congrArg Except.ok List.map_map

/-- **The columns and rows of a masked statement are the masked ones,** and it is
refused for the same reason. -/
theorem resolve_mask (q : Insert) : q.mask.resolve = q.resolve.map maskRows := by
  have hcolumns : q.mask.columns = q.columns := rfl
  have hsource : q.mask.source = q.source.mask := rfl
  have hor : ∀ inferred, q.mask.columnsOr inferred = q.columnsOr inferred := fun _ => rfl
  have htag : q.mask.settings.tag = q.settings.tag := rfl
  rw [resolve, resolve, hsource]
  rcases q.source with _ | rows | maps | records
  · rfl
  · simp only [Source.mask, hcolumns, checkWidths_mask]
    split
    · rfl
    · cases checkWidths q.columns.length 0 rows <;> rfl
  · simp only [Source.mask, hor, columnsOfMaps_mask, keyedRows_mask]
  · simp only [Source.mask, hor, htag, mapsOfRecords_mask, columnsOfRecords_mask]
    rcases mapsOfRecords q.settings.tag 0 records with e | maps
    · rfl
    · rcases columnsOfRecords q.settings.tag records with e | inferred
      · rfl
      · exact keyedRows_mask _ maps

/-! ## Text -/

/-- A list of columns has no values. -/
theorem mask_columnList (quote : Char) (columns : List Identifier) :
    (Insert.columnList quote columns).mask = Insert.columnList quote columns := by
  rw [Insert.columnList, Template.mask_join, List.map_map]
  rfl

/-- What stands in front of the rows has no values. -/
theorem mask_head (q : Insert) (columns : List Identifier) :
    (q.head columns).mask = q.mask.head columns := by
  have hpriority : q.mask.priority? = q.priority? := rfl
  have hignore : q.mask.ignore = q.ignore := rfl
  rw [head, head, hpriority, hignore]
  simp only [Template.mask_text, Template.mask_append, mask_columnList]
  cases q.priority? <;> cases q.ignore <;> rfl

/-- A row of masked values is a masked row. -/
theorem mask_rowTemplate (row : List Value) :
    (rowTemplate row).mask = rowTemplate (row.map Value.mask) := by
  have hvalues : (row.map fun v => [Piece.bind v]).map Template.mask =
      (row.map Value.mask).map fun v => [.bind v] := by
    rw [List.map_map, List.map_map]
    rfl
  simp only [rowTemplate, Template.mask_append, Template.mask_text, Template.mask_nil,
    Template.mask_join, hvalues]

/-- An assignment of a masked value is a masked assignment; raw SQL stays as it is. -/
theorem mask_assignmentTemplate (quote : Char) (a : Assignment) :
    (assignmentTemplate quote a).mask = assignmentTemplate quote a.mask := by
  obtain ⟨column, assigned⟩ := a
  cases assigned <;> rfl

/-- The assignments of a masked statement are its assignments with their values masked. -/
theorem mask_updateTemplate (q : Insert) : q.updateTemplate.mask = q.mask.updateTemplate := by
  have hassignments : q.mask.assignments = q.assignments.map Assignment.mask := rfl
  rw [updateTemplate, updateTemplate, hassignments, List.isEmpty_map]
  split
  · rfl
  · rw [Template.mask_text, Template.mask_join, List.map_map, List.map_map]
    refine congrArg (_ :: ·) (congrArg _ (List.map_congr_left fun a _ => ?_))
    exact mask_assignmentTemplate _ a

/-- The template of a statement whose values are masked is its template, masked. -/
theorem mask_template (q : Insert) (columns : List Identifier) (rows : List (List Value)) :
    (q.template columns rows).mask =
      q.mask.template columns (rows.map (List.map Value.mask)) := by
  have hrows : (rows.map rowTemplate).map Template.mask =
      (rows.map (List.map Value.mask)).map rowTemplate := by
    rw [List.map_map, List.map_map]
    exact List.map_congr_left fun row _ => mask_rowTemplate row
  rw [template, template, Template.mask_append, Template.mask_append, mask_head,
    Template.mask_join, hrows, mask_updateTemplate]

/-- **A masked statement has the text of the statement.** -/
theorem statement_mask (q : Insert) : q.mask.statement = q.statement.map Statement.mask := by
  have hdialect : q.mask.settings.dialect = q.settings.dialect := rfl
  rw [statement, statement, resolve_mask, hdialect]
  rcases q.resolve with e | ⟨columns, rows⟩
  · rfl
  · have hmask := Template.mask_emit (q.template columns rows) q.settings.dialect.placeholder
    rw [mask_template] at hmask
    exact congrArg Except.ok hmask.symm

/-! ## Named markers -/

/-- Whether a statement is sent with named markers does not depend on its values. -/
theorem usesNames_mask (q : Insert) : q.mask.usesNames = q.usesNames := by
  have hassignments : q.mask.assignments = q.assignments.map Assignment.mask := rfl
  have hsource : q.mask.source = q.source.mask := rfl
  have hassigned : ∀ a : Assigned, (match a.mask with
      | .value _ => false
      | .raw _ => true) = match a with
      | .value _ => false
      | .raw _ => true := by rintro (_ | _) <;> rfl
  rw [usesNames, usesNames, hassignments, hsource, List.all_map]
  refine congr (congrArg and ?_) (congrArg _ (funext fun a => hassigned a.assigned))
  cases q.source <;> rfl

/-- What is bound by name is masked where the statement is, and refused where it is. -/
theorem namedItems_mask (q : Insert) :
    q.mask.namedItems = q.namedItems.map (List.map NamedItem.mask) := by
  have hsource : q.mask.source = q.source.mask := rfl
  rw [namedItems, namedItems, hsource]
  rcases q.source with _ | rows | maps | records
  · rfl
  · rfl
  · refine congrArg Except.ok ?_
    rw [List.map_map, List.map_map]
    rfl
  · refine congrArg Except.ok ?_
    rw [List.map_map, List.map_map]
    rfl

/-- The columns with named markers do not depend on any value. -/
theorem namedColumns_mask (q : Insert) : q.mask.namedColumns = q.namedColumns := by
  have hcolumns : q.mask.columns = q.columns := rfl
  have hsource : q.mask.source = q.source.mask := rfl
  have htag : q.mask.settings.tag = q.settings.tag := rfl
  rw [namedColumns, namedColumns, hcolumns, hsource, htag]
  rcases q.source with _ | rows | maps | records
  · rfl
  · rfl
  · simp only [Source.mask, columnsOfMaps_mask]
  · simp only [Source.mask, columnsOfRecords_mask]

/-- A statement with named markers binds no row, so only its assignments are masked. -/
theorem mask_namedTemplate (q : Insert) (columns : List Identifier) :
    (q.namedTemplate columns).mask = q.mask.namedTemplate columns := by
  have hmarkers : (columns.map fun c => [Piece.text (":" ++ c.name)]).map Template.mask =
      columns.map fun c => [.text (":" ++ c.name)] := by
    rw [List.map_map]
    rfl
  simp only [namedTemplate, Template.mask_append, Template.mask_text, Template.mask_join, mask_head,
    hmarkers, mask_updateTemplate]

/-- **With named markers, too.** -/
theorem namedStatement_mask (q : Insert) :
    q.mask.namedStatement = q.namedStatement.map NamedStatement.mask := by
  rw [namedStatement, namedStatement, namedItems_mask, namedColumns_mask]
  rcases q.namedItems with e | items
  · rfl
  · rcases q.namedColumns with e | columns
    · rfl
    · have hparams : (q.mask.namedTemplate columns).params.isEmpty =
          (q.namedTemplate columns).params.isEmpty := by
        rw [← mask_namedTemplate, Template.params_mask, List.isEmpty_map]
      have hsql : ((q.mask.namedTemplate columns).emit q.settings.dialect.placeholder).sql =
          ((q.namedTemplate columns).emit q.settings.dialect.placeholder).sql := by
        rw [← mask_namedTemplate, ← Template.mask_emit]
        rfl
      have hdialect : q.mask.settings = q.settings := rfl
      simp only [Except.map, bind, Except.bind, hparams, hsql, hdialect, List.length_map]
      cases validateNames columns with
      | error e => rfl
      | ok u => simp only; split <;> rfl

end Insert

/-- **Alike calls on a table build INSERT statements that are the same when masked.** -/
theorem InsertDraft.mask_state {mode : InsertMode} {table : String}
    {calls calls' : List Insert.Call} (hcalls : List.Forall₂ Insert.Call.Alike calls calls')
    (h : (ofCalls mode table calls).error? = none)
    (h' : (ofCalls mode table calls').error? = none) :
    (ofCalls mode table calls).state.mask = (ofCalls mode table calls').state.mask :=
  ofCalls_related (R := fun q q' => q.mask = q'.mask) (fun _ _ => rfl) Insert.apply_masked
    hcalls h h'

end BoundSql
