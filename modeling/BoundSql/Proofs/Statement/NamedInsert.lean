import BoundSql.Proofs.Statement.InsertRows
import BoundSql.Proofs.Statement.Markers
import BoundSql.Proofs.Template.NamedMarkers

/-!
# Named markers of an INSERT

An INSERT with named markers is text up to its row, a marker for each column, and text
from there on.  A scan finds these markers and no others: table and columns are quoted, and
the raw expressions of ON DUPLICATE KEY UPDATE have no marker of their own.  An item that
has a row binds the markers to its values, and what comes out is the statement with places
for this row.
-/

namespace BoundSql

namespace Insert

variable {q : Insert} {columns : List Identifier}

/-- What stands in front of the rows has no named marker, since identifiers are in quotes. -/
theorem silent_head (hquote : Quoting.opens q.settings.dialect.quote = true)
    (columns : List Identifier) : (q.head columns).Silent := by
  have hword : ∀ {s : String}, s.toList.all Named.isQuiet = true → Template.Silent [.text s] :=
    fun hs => Template.silent_text (Named.silent_of_quiet hs) Template.silent_nil
  have hname : ∀ i : Identifier, Template.Silent [.text (i.toSql q.settings.dialect.quote)] :=
    fun i => Template.silent_text (Named.silent_toSql hquote i) Template.silent_nil
  have hmode : Template.Silent [.text q.mode.toSql] := by
    cases q.mode <;> exact hword (by decide)
  have hignore : Template.Silent (if q.ignore then [.text " IGNORE"] else []) := by
    cases q.ignore
    · exact Template.silent_nil
    · exact hword (by decide)
  have hcolumns : (Insert.columnList q.settings.dialect.quote columns).Silent := by
    refine Template.silent_join (Named.silent_of_quiet (by decide)) fun t ht => ?_
    obtain ⟨i, -, rfl⟩ := List.mem_map.1 ht
    exact hname i
  have hinto : Template.Silent
      [.text " INTO ", .text (q.table.toSql q.settings.dialect.quote), .text " ("] :=
    (hword (by decide)).append ((hname q.table).append (hword (by decide)))
  have hvalues : Template.Silent [.text ") VALUES "] := hword (by decide)
  refine ((((hmode.append ?_).append hignore).append hinto).append hcolumns).append hvalues
  cases q.priority? with
  | none => exact Template.silent_nil
  | some p => cases p <;> exact hword (by decide)

/-- Raw expressions of ON DUPLICATE KEY UPDATE that leave their quoted sections and have no
named marker. -/
def Unmarked (q : Insert) : Prop :=
  ∀ s ∈ q.rawTexts, Quoting.Closed s ∧ ∀ part ∈ Named.parts s, ∃ c, part = .char c

/-- An assignment of a raw expression that leaves its quoted sections and has no named
marker. -/
def Assignment.IsText (a : Assignment) : Prop :=
  ∃ sql, a.assigned = .raw sql ∧ Quoting.Closed sql ∧
    ∀ part ∈ Named.parts sql, ∃ c, part = .char c

/-- A statement that is sent with named markers assigns no value, so its assignments are texts. -/
theorem isText_of_usesNames (hnames : q.usesNames = true) (h : q.Unmarked) :
    ∀ a ∈ q.assignments, Assignment.IsText a := by
  rw [usesNames, Bool.and_eq_true] at hnames
  intro a ha
  have hraw := List.all_eq_true.1 hnames.2 a ha
  cases hassigned : a.assigned with
  | value v => simp [hassigned] at hraw
  | raw sql =>
      exact ⟨sql, hassigned, h sql (List.mem_filterMap.2 ⟨a, ha, by rw [hassigned]⟩)⟩

variable {quote : Char}

/-- An assignment of text is text in front of what neither goes on with a name nor starts
with a colon. -/
theorem partsFrom_assignment (hquote : Quoting.opens quote = true) {a : Assignment}
    (h : Assignment.IsText a) {rest : List Char} (hcolon : rest.head? ≠ some ':')
    (hname : rest.head?.any Named.inName = false) :
    Named.partsFrom none ((assignmentTemplate quote a).texts ++ rest) =
      (assignmentTemplate quote a).texts.map .char ++ Named.partsFrom none rest := by
  obtain ⟨sql, hassigned, hclosed, hparts⟩ := h
  have htexts : (assignmentTemplate quote a).texts =
      (a.column.toSql quote).toList ++ " = ".toList ++ sql.toList := by
    simp [assignmentTemplate, hassigned, Template.texts]
  have hfront : Named.Silent ((a.column.toSql quote).toList ++ " = ".toList) :=
    (Named.silent_toSql hquote a.column).append (Named.silent_of_quiet (by decide))
  rw [htexts, List.append_assoc, hfront,
    Named.partsFrom_append_text hparts hclosed hcolon hname]
  simp only [List.map_append, List.append_assoc]

/-- Assignments of text are text. -/
theorem partsFrom_assignments (hquote : Quoting.opens quote = true)
    {assignments : List Assignment} (h : ∀ a ∈ assignments, Assignment.IsText a) :
    Named.partsFrom none
        ([',', ' '].intercalate (assignments.map fun a => (assignmentTemplate quote a).texts)) =
      ([',', ' '].intercalate
        (assignments.map fun a => (assignmentTemplate quote a).texts)).map .char := by
  induction assignments with
  | nil => exact Named.partsFrom_nil none
  | cons a more ih =>
      obtain ⟨ha, hmore⟩ := List.forall_mem_cons.1 h
      cases more with
      | nil =>
          have halone : Named.partsFrom none ((assignmentTemplate quote a).texts ++ []) = _ :=
            partsFrom_assignment hquote ha nofun rfl
          rw [Named.partsFrom_nil, List.append_nil, List.append_nil] at halone
          rw [List.map_singleton, List.intercalate_singleton]
          exact halone
      | cons next more =>
          have hcomma : Named.Silent [',', ' '] := Named.silent_of_quiet rfl
          rw [Named.intercalate_map_cons _ _ _ (List.cons_ne_nil _ _),
            partsFrom_assignment hquote ha (by simp) rfl, hcomma, ih hmore,
            List.map_append, List.map_append]

/-- Assignments that are texts bind nothing. -/
theorem params_updateTemplate (h : ∀ a ∈ q.assignments, Assignment.IsText a) :
    q.updateTemplate.params = [] := by
  rw [updateTemplate]
  split
  · rfl
  · rw [Template.params, Template.params_join, List.flatMap_eq_nil_iff]
    intro t ht
    obtain ⟨a, ha, rfl⟩ := List.mem_map.1 ht
    obtain ⟨sql, hassigned, -⟩ := h a ha
    simp [assignmentTemplate, hassigned, Template.params]

/-- ON DUPLICATE KEY UPDATE with text alone is text. -/
theorem partsFrom_updateTemplate (hquote : Quoting.opens q.settings.dialect.quote = true)
    (h : ∀ a ∈ q.assignments, Assignment.IsText a) :
    Named.partsFrom none q.updateTemplate.texts = q.updateTemplate.texts.map .char := by
  rw [updateTemplate]
  split
  · exact Named.partsFrom_nil none
  · have hkeyword : Named.Silent " ON DUPLICATE KEY UPDATE ".toList :=
      Named.silent_of_quiet (by decide)
    rw [Template.texts, Template.texts_join, List.map_map, hkeyword]
    exact (congrArg _ (partsFrom_assignments hquote h)).trans List.map_append.symm

/-- ON DUPLICATE KEY UPDATE that binds nothing and is text to a scan for named markers. -/
structure TextClause (q : Insert) : Prop where
  params_eq : q.updateTemplate.params = []
  parts_eq : Named.partsFrom none q.updateTemplate.texts = q.updateTemplate.texts.map .char

/-- Assignments that are texts each by itself are texts together, in a clause without markers. -/
theorem textClause_of_isText (hquote : Quoting.opens q.settings.dialect.quote = true)
    (h : ∀ a ∈ q.assignments, Assignment.IsText a) : q.TextClause :=
  ⟨params_updateTemplate h, partsFrom_updateTemplate hquote h⟩

/-! ## The statement -/

/-- The text up to the row. -/
def before (q : Insert) (columns : List Identifier) : List Char := (q.head columns).texts ++ ['(']

/-- The text behind the row. -/
def behind (q : Insert) : List Char := ')' :: q.updateTemplate.texts

/-- A statement with named markers is its columns, a marker for each, and its assignments. -/
theorem texts_namedTemplate (q : Insert) (columns : List Identifier) :
    (q.namedTemplate columns).texts = q.before columns ++
      ([',', ' '].intercalate ((columns.map Identifier.name).map fun name => ':' :: name.toList) ++
        q.behind) := by
  simp [namedTemplate, before, behind, Template.texts_append, Template.texts_join,
    Template.texts, Function.comp_def]

/-- **A scan finds the markers of the columns and no others.** -/
theorem parts_of_textClause (hquote : Quoting.opens q.settings.dialect.quote = true)
    (h : q.TextClause) (hnames : ∀ c ∈ columns, Named.isName c.name = true) :
    Named.partsFrom none (q.namedTemplate columns).texts =
      (q.before columns).map .char ++
        ([.char ',', .char ' '].intercalate
          ((columns.map Identifier.name).map fun name => [.marker name]) ++
            q.behind.map .char) := by
  have hbefore : Named.Silent (q.before columns) :=
    (silent_head hquote columns).texts_silent.append (Named.silent_of_quiet rfl)
  have hbehind : Named.partsFrom none q.behind = q.behind.map .char := by
    have hclose : Named.Silent [')'] := Named.silent_of_quiet rfl
    exact (hclose q.updateTemplate.texts).trans (congrArg _ h.parts_eq)
  have hmarkers : ∀ name ∈ columns.map Identifier.name, Named.isName name = true := by
    simpa using hnames
  rw [texts_namedTemplate, hbefore, Named.partsFrom_markers hmarkers rfl, hbehind]

/-- The same for assignments that are text each by itself. -/
theorem parts_namedTemplate (hquote : Quoting.opens q.settings.dialect.quote = true)
    (h : ∀ a ∈ q.assignments, Assignment.IsText a)
    (hnames : ∀ c ∈ columns, Named.isName c.name = true) :
    Named.partsFrom none (q.namedTemplate columns).texts =
      (q.before columns).map .char ++
        ([.char ',', .char ' '].intercalate
          ((columns.map Identifier.name).map fun name => [.marker name]) ++
            q.behind.map .char) :=
  parts_of_textClause hquote (textClause_of_isText hquote h) hnames

/-- Columns that pass the check can be used as markers. -/
theorem isName_of_validateNames (h : validateNames columns = .ok ()) :
    ∀ c ∈ columns, Named.isName c.name = true := by
  induction columns with
  | nil => exact fun c hc => absurd hc List.not_mem_nil
  | cons c more ih =>
      rw [validateNames] at h
      split at h
      · rename_i hc
        exact List.forall_mem_cons.2 ⟨hc, ih h⟩
      · exact absurd h (by simp)

/-- What a statement with named markers is. -/
theorem namedStatement_eq_ok {n : NamedStatement} (h : q.namedStatement = .ok n) :
    ∃ columns, q.namedItems = .ok n.items ∧ q.namedColumns = .ok columns ∧
      (∀ c ∈ columns, Named.isName c.name = true) ∧ n.tag = q.settings.tag ∧
        n.sql.toList = (q.namedTemplate columns).texts := by
  obtain ⟨items, hitems, h⟩ := bind_eq_ok.1 h
  obtain ⟨columns, hcolumns, h⟩ := bind_eq_ok.1 h
  obtain ⟨hvalid, h⟩ := bind_unit_eq_ok.1 h
  simp only at h
  split at h
  · rename_i hparams
    obtain rfl := pure_eq_ok.1 h
    refine ⟨columns, hitems, hcolumns, isName_of_validateNames hvalid, rfl, ?_⟩
    rw [Template.emit, Template.sqlFrom_of_params_nil (List.isEmpty_iff.1 hparams),
      String.toList_ofList]
  · exact absurd h (by simp [throw, throwThe, MonadExceptOf.throw])

/-- **The values of an item at the markers give the statement with its row.** -/
theorem yields_of_textClause (hquote : Quoting.opens q.settings.dialect.quote = true)
    (h : q.TextClause) (hnames : ∀ c ∈ columns, Named.isName c.name = true) {m : ValueMap}
    {row : List Value}
    (hrow : List.Forall₂ (fun name v => m.get? name = some v) (columns.map Identifier.name) row) :
    Named.Yields m (Named.partsFrom none (q.namedTemplate columns).texts)
      (q.template columns [row]) := by
  have hbefore : Named.Yields m ((q.before columns).map .char) (q.head columns ++ [.text "("]) := by
    have hparams : Template.params (q.head columns ++ [.text "("]) = [] := by
      rw [Template.params_append, (silent_head hquote columns).params_eq]
      rfl
    have htexts : (q.before columns) = Template.texts (q.head columns ++ [.text "("]) := by
      rw [Template.texts_append]
      rfl
    rw [htexts]
    exact Named.yields_texts hparams
  have hbehind : Named.Yields m (q.behind.map .char) (.text ")" :: q.updateTemplate) := by
    have hparams : Template.params (.text ")" :: q.updateTemplate) = [] := h.params_eq
    exact Named.yields_texts hparams
  have hsame : q.template columns [row] = (q.head columns ++ [.text "("]) ++
      (Template.join ", " (row.map fun v => [.bind v]) ++ (.text ")" :: q.updateTemplate)) := by
    simp [template, rowTemplate, Template.join]
  rw [parts_of_textClause hquote h hnames, hsame]
  exact hbefore.append ((Named.yields_markers hrow).append hbehind)

/-- The same for assignments that are text each by itself. -/
theorem yields_namedTemplate (hquote : Quoting.opens q.settings.dialect.quote = true)
    (h : ∀ a ∈ q.assignments, Assignment.IsText a)
    (hnames : ∀ c ∈ columns, Named.isName c.name = true) {m : ValueMap} {row : List Value}
    (hrow : List.Forall₂ (fun name v => m.get? name = some v) (columns.map Identifier.name) row) :
    Named.Yields m (Named.partsFrom none (q.namedTemplate columns).texts)
      (q.template columns [row]) :=
  yields_of_textClause hquote (textClause_of_isText hquote h) hnames hrow

end Insert

end BoundSql
