import BoundSql.Proofs.Record.Deriving

/-!
# Which rows a record cannot be read from

A record is read by its columns under the standard tag.  When reading fails, the error names
one of these columns, and says that the row lacks it just when the row does
(`Fields.error_of_fromRow`); a row that lacks one of them is never read
(`Fields.fromRow_of_lacking`).

What the error says is its message, a text.  That the message tells a column that is not there
from a value that cannot be read rests on the faults of decoding being a closed list
(`DecodeFault`), none of which is worded that way (`Row.message_ne_lacking`).  A codec that
worded its faults freely could use the very words; that a row without the column is never read
would still hold, that the words mean a row without it would not.
-/

namespace BoundSql

/-! ## Rows of given columns -/

namespace Row

/-- The wording of a column that is not there. -/
def lacking : String := "column not found in row"

/-- A row with just the given columns, in any order, and with a value for each. -/
structure Exactly (row : Row) (columns : List String) : Prop where
  columns : ∀ column, column ∈ row.columns ↔ column ∈ columns
  values : row.values.length = row.columns.length

variable {row : Row} {column : String}

/-- A row of just these columns lacks the others. -/
theorem Exactly.get?_eq_none {columns : List String} (h : row.Exactly columns) :
    row.get? column = none ↔ column ∉ columns := by
  have hnames : (row.columns.zip row.values).map Prod.fst = row.columns :=
    List.map_fst_zip (Nat.le_of_eq h.values.symm)
  rw [← h.columns, ← hnames, get?_eq_lookup, List.lookup_eq_none_iff, List.mem_map, not_exists]
  refine forall_congr' fun pair => ?_
  rw [not_and, bne_iff_ne]
  exact imp_congr_right fun _ => ne_comm

/-- What starts in another way is worded otherwise. -/
theorem append_ne_lacking {start : String} {c : Char} (hstart : start.toList.head? = some c)
    (hc : c ≠ 'c') (rest : String) : start ++ rest ≠ lacking := by
  intro h
  have hfirst : (start ++ rest).toList.head? = some 'c' := by
    rw [h]
    rfl
  rw [String.toList_append, List.head?_append, hstart] at hfirst
  exact hc (Option.some.inj hfirst)

/-- No fault of decoding is worded like a column that is not there.  This is by cases on the
closed list of faults, and is where reading depends on there being no others. -/
theorem message_ne_lacking (fault : DecodeFault) : fault.message ≠ lacking := by
  cases fault with
  | mismatch expected found =>
      have hmessage : (DecodeFault.mismatch expected found).message =
          "expected " ++ (expected ++ (", got " ++ found)) := by
        rw [← String.append_assoc, ← String.append_assoc]
        rfl
      exact hmessage ▸ append_ne_lacking (c := 'e') rfl (by decide) _
  | range fault => cases fault <;> decide +kernel
  | utf8 fault =>
      cases fault with
      | invalid length index =>
          have hmessage : (DecodeFault.utf8 (.invalid length index)).message =
              "invalid utf-8 sequence of " ++
                (toString length ++ (" bytes from index " ++ toString index)) := by
            rw [← String.append_assoc, ← String.append_assoc]
            rfl
          exact hmessage ▸ append_ne_lacking (c := 'i') rfl (by decide) _
      | incomplete index => exact append_ne_lacking (c := 'i') rfl (by decide) _
  | unreadable expected => exact append_ne_lacking (c := 't') rfl (by decide) _

/-- An error of decoding names the column, and says whether the row lacks it. -/
theorem error_of_decode {α : Type} {c : Codec α} {e : SqlError}
    (h : row.decode c column = .error e) :
    ∃ message, e = .decode column message ∧ (message = lacking ↔ row.get? column = none) := by
  rw [decode] at h
  split at h
  · rename_i hnone
    exact ⟨lacking, (Except.error.inj h).symm, iff_of_true rfl hnone⟩
  · rename_i v hv
    rcases hdecode : c.decode v with fault | a
    · rw [hdecode] at h
      refine ⟨fault.message, (Except.error.inj h).symm, iff_of_false (message_ne_lacking fault) ?_⟩
      rw [hv]
      exact Option.some_ne_none v
    · rw [hdecode] at h
      exact absurd h (by simp [Except.mapError])

/-- A column that is not there is said to be lacking. -/
theorem decode_of_get?_eq_none {α : Type} (c : Codec α) (h : row.get? column = none) :
    row.decode c column = .error (.decode column lacking) := by
  rw [decode, h]
  rfl

end Row

/-! ## Reading -/

namespace Fields

/-- The columns that a record is read by. -/
def readColumns (fs : List Field) : List String :=
  fs.filterMap (·.mapping.column? Settings.standardTag)

variable {row : Row}

/-- **Why a record is not read:** the error names one of the columns that it is read by, and
says whether the row lacks it. -/
theorem error_of_fromRow : ∀ {fs : List Field} {e : SqlError}, fromRow fs row = .error e →
    ∃ column ∈ readColumns fs, ∃ message, e = .decode column message ∧
      (message = Row.lacking ↔ row.get? column = none)
  | [], _, h => absurd h (by simp [fromRow])
  | f :: fs, e, h => by
      rw [fromRow] at h
      rw [readColumns, List.filterMap_cons]
      cases hcolumn : f.mapping.column? Settings.standardTag with
      | none =>
          simp only [hcolumn] at h
          exact error_of_fromRow (map_eq_error.1 h)
      | some column =>
          simp only [hcolumn] at h
          cases hdecode : row.decode f.codec column with
          | error e' =>
              simp only [hdecode] at h
              obtain rfl := Except.error.inj h
              exact ⟨column, List.mem_cons_self, Row.error_of_decode hdecode⟩
          | ok datum =>
              simp only [hdecode] at h
              obtain ⟨other, hother, hmessage⟩ := error_of_fromRow (map_eq_error.1 h)
              exact ⟨other, List.mem_cons_of_mem _ hother, hmessage⟩

/-- A row without one of the columns is not read. -/
theorem fromRow_of_lacking {column : String} (hrow : row.get? column = none) :
    ∀ {fs : List Field}, column ∈ readColumns fs → ∃ e, fromRow fs row = .error e
  | [], h => absurd h List.not_mem_nil
  | f :: fs, h => by
      rw [readColumns, List.filterMap_cons] at h
      rw [fromRow]
      cases hcolumn : f.mapping.column? Settings.standardTag with
      | none =>
          simp only [hcolumn] at h ⊢
          obtain ⟨e, he⟩ := fromRow_of_lacking hrow h
          exact ⟨e, map_eq_error.2 he⟩
      | some first =>
          simp only [hcolumn] at h ⊢
          cases hdecode : row.decode f.codec first with
          | error e => exact ⟨e, rfl⟩
          | ok datum =>
              rcases List.mem_cons.1 h with rfl | h
              · rw [Row.decode_of_get?_eq_none f.codec hrow] at hdecode
                exact absurd hdecode (by simp)
              · obtain ⟨e, he⟩ := fromRow_of_lacking hrow h
                exact ⟨e, map_eq_error.2 he⟩

end Fields

/-! ## What is read and what is listed -/

variable {fs : List Field}

/-- The table that is derived for records has the columns of the record type. -/
theorem Declaration.recordColumns_eq {d : Declaration}
    (h : d.mappings .record = .ok (fs.map Field.mapping)) (name : String) :
    ∃ table, d.recordColumns = .ok table ∧ ∀ tag,
      (RecordType.ofFields name fs).columns tag = (table.lookup tag).map (·.map Prod.fst) := by
  cases d with
  | named ds => exact Declares.lookup_recordColumns (mappings_named_eq_ok.1 h)
  | unnamed => exact absurd h (by simp [mappings])
  | alternatives => exact absurd h (by simp [mappings])

/-- What is derived for reading names the columns that a record is read by. -/
theorem Declaration.rowColumns_eq {d : Declaration}
    (h : d.mappings .fromRow = .ok (fs.map Field.mapping)) :
    ∃ read, d.rowColumns = .ok read ∧ read.filterMap Prod.snd = Fields.readColumns fs := by
  refine ⟨_, bind_eq_ok.2 ⟨_, h, rfl⟩, ?_⟩
  rw [List.filterMap_map, List.filterMap_map]
  rfl

/-- Under the standard tag the columns are those that a record is read by. -/
theorem RecordType.columns_standard {name : String} {columns : List String}
    (h : (ofFields name fs).columns Settings.standardTag = some columns) :
    Fields.readColumns fs = columns := by
  obtain ⟨-, -, hcolumns⟩ := FieldMapping.columns?_eq_some.1 h
  rw [← hcolumns, List.filterMap_map]
  rfl

end BoundSql
