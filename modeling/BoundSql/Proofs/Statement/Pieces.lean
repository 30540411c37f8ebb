import BoundSql.Proofs.Predicate.Content
import BoundSql.Statement.Insert
import BoundSql.Statement.Select

/-!
# What a statement is made of

A whole statement is, like a predicate, a sequence of words of SQL, identifiers and bound
values, with the identifiers quoted.  The text of a raw fragment is a word.  So the
identifiers that are written in a statement are those of the sequence: the table and its
alias, the columns that are projected or inserted, the columns of every clause, and the
columns of ON DUPLICATE KEY UPDATE (`Select.columns_chunks`, `Insert.columns_chunks`).  A
part of a SELECT that is left out has none.
-/

namespace BoundSql

namespace Chunk

/-- The identifiers of two sequences are those of the first and then those of the second. -/
theorem columns_append (cs ds : List Chunk) : columns (cs ++ ds) = columns cs ++ columns ds :=
  List.filterMap_append

@[simp]
theorem columns_nil : columns [] = [] := rfl

@[simp]
theorem columns_word (s : String) (cs : List Chunk) : columns (.word s :: cs) = columns cs := rfl

@[simp]
theorem columns_bind (v : Value) (cs : List Chunk) : columns (.bind v :: cs) = columns cs := rfl

@[simp]
theorem columns_column (name : Identifier) (cs : List Chunk) :
    columns (.column name :: cs) = name :: columns cs := rfl

/-- Separators are no identifiers. -/
theorem columns_join (separator : String) (members : List (List Chunk)) :
    columns (join separator members) = members.flatMap columns :=
  filterMap_join (fun _ => rfl) separator members

/-- Identifiers in a list are quoted one by one. -/
theorem map_list (quote : Char) (names : List Identifier) :
    (list names).map (piece quote) = Insert.columnList quote names := by
  rw [list, map_join, List.map_map]
  rfl

/-- A list of identifiers has these identifiers. -/
theorem columns_list (names : List Identifier) : columns (list names) = names := by
  rw [list, columns_join, List.flatMap_map]
  exact List.flatMap_singleton' names

end Chunk

/-! ## Clauses -/

namespace Predicate

/-- Putting a fragment in parentheses adds no column. -/
theorem columns_isolatedLayout (p : Predicate) : p.isolatedLayout.columns = p.columns := by
  cases p with
  | raw sql values =>
      have hraw := columns_layout (.raw sql values)
      rw [Layout.columns, layout, Layout.leaves] at hraw
      rw [Layout.columns, isolatedLayout, Layout.leaves, Chunk.columns_append,
        Chunk.columns_word, hraw]
      rfl
  | _ => exact columns_layout _

/-- The columns of conditions are those of each of them, one after another. -/
theorem columns_conjunction (ps : List Predicate) :
    (conjunction ps).columns = ps.flatMap columns := by
  have hmembers : ∀ ps : List Predicate,
      Chunk.columns (Layout.leavesOf (ps.map isolatedLayout)) = ps.flatMap columns := by
    intro ps
    induction ps with
    | nil => rfl
    | cons p rest ih =>
        rw [List.map_cons, Layout.leavesOf, Chunk.columns_append, ih]
        exact congrArg (· ++ _) (columns_isolatedLayout p)
  rcases ps with _ | ⟨p, _ | ⟨next, more⟩⟩
  · rfl
  · exact (columns_layout p).trans (List.append_nil p.columns).symm
  · exact hmembers (p :: next :: more)

end Predicate

namespace ColumnClause

/-- The columns of the clause. -/
def names : ColumnClause → List Identifier
  | .columns items => items.map OrderItem.column
  | .raw _ _ => []
  | .predicate p _ => p.columns

/-- A direction is no identifier. -/
theorem columns_directionChunks (direction? : Option Direction) :
    Chunk.columns (directionChunks direction?) = [] := by
  cases direction? <;> rfl

/-- The identifiers in the layout of a clause are its names in order. -/
theorem columns_layout (c : ColumnClause) : c.layout.columns = c.names := by
  cases c with
  | columns items =>
      refine (Chunk.columns_join ", " _).trans ?_
      rw [List.flatMap_map, names, List.map_eq_flatMap]
      refine congrArg (items.flatMap ·) (funext fun item => ?_)
      rw [Chunk.columns_column, columns_directionChunks]
  | raw sql values => exact Predicate.columns_layout (.raw sql values)
  | predicate p direction? =>
      rw [Layout.columns, layout, Layout.leaves, Chunk.columns_append]
      refine (congrArg (_ ++ ·) (columns_directionChunks direction?)).trans ?_
      rw [List.append_nil]
      exact Predicate.columns_layout p

end ColumnClause

/-! ## Statements -/

namespace Projection

/-- The columns that are projected by their names. -/
def names : Projection → List Identifier
  | .columns names => names
  | _ => []

/-- The identifiers of a projection are its names in order. -/
theorem columns_chunks (projection : Projection) :
    Chunk.columns projection.chunks = projection.names := by
  cases projection with
  | columns names => exact Chunk.columns_list names
  | _ => rfl

end Projection

namespace Select

/-- The pieces that are written of a statement with a projection. -/
def chunks (q : Select) (projection : Projection) : List Chunk :=
  (q.layout projection).resolve q.settings.dialect.sight 0

/-- The identifiers that are written in a statement with a projection. -/
def names (q : Select) (projection : Projection) : List Identifier :=
  projection.names ++ q.table :: q.alias?.toList ++ q.restrictions.flatMap Predicate.columns ++
    (q.groupBy?.map ColumnClause.names).getD [] ++
    q.groupRestrictions.flatMap Predicate.columns ++ (q.orderBy?.map ColumnClause.names).getD []

/-- The projection for reading a record type. -/
def projectionFor {α : Type} (q : Select) (t : RecordType α) : Except SqlError Projection :=
  match q.projection with
  | .all => (t.columnsAt q.settings.tag).map fun columns => .columns (columns.map .single)
  | projection => .ok projection

/-- The record type of a SELECT decides its projection alone. -/
theorem statementFor_eq_map {α : Type} (q : Select) (t : RecordType α) :
    q.statementFor t = (q.projectionFor t).map q.statement := by
  rw [statementFor, projectionFor]
  cases q.projection with
  | all => cases t.columnsAt q.settings.tag <;> rfl
  | _ => rfl

/-- A SELECT is written from its chunks and nothing else. -/
theorem statement_eq_write (q : Select) (projection : Projection) :
    q.statement projection = Chunk.write q.settings.dialect (q.chunks projection) := rfl

/-- The opening of a SELECT has the names of the projection, the table and the alias. -/
theorem columns_opening (q : Select) (projection : Projection) :
    Chunk.columns (q.openingChunks projection) =
      projection.names ++ q.table :: q.alias?.toList := by
  rw [openingChunks]
  simp only [Chunk.columns_append, List.cons_append, Chunk.columns_word,
    Projection.columns_chunks]
  cases q.distinct <;> cases q.alias? <;> simp [aliasChunks]

/-- A clause that is not there has no names. -/
theorem columns_columnLayout (keyword : String) (clause? : Option ColumnClause) :
    (columnLayout keyword clause?).columns = (clause?.map ColumnClause.names).getD [] := by
  cases clause? with
  | none => rfl
  | some clause => exact clause.columns_layout

/-- A count is no identifier. -/
theorem columns_counts (keyword : String) (n? : Option Int64) :
    Chunk.columns (countChunks keyword n?) = [] := by
  cases n? <;> rfl

/-- The identifiers of a statement are those of its parts, whether these are written or not. -/
theorem columns_layout (q : Select) (projection : Projection) :
    (q.layout projection).columns = q.names projection := by
  have hwhere := Predicate.columns_conjunction q.restrictions
  have hgroup := columns_columnLayout " GROUP BY " q.groupBy?
  have hhaving := Predicate.columns_conjunction q.groupRestrictions
  have horder := columns_columnLayout " ORDER BY " q.orderBy?
  rw [Layout.columns] at hwhere hgroup hhaving horder
  rw [Layout.columns, layout, names]
  simp only [Layout.leaves, clauseLayout, Chunk.columns_append, columns_opening, hwhere, hgroup,
    hhaving, horder, columns_counts, List.append_nil, List.append_assoc]

/-- **A statement has the identifiers of its parts:** none is left out. -/
theorem columns_chunks (q : Select) (projection : Projection) :
    Chunk.columns (q.chunks projection) = q.names projection :=
  (Layout.columns_resolve (fun _ _ h => Chunk.columns_of_sight h) _ 0).trans
    (q.columns_layout projection)

end Select

namespace Insert

/-- The pieces up to the rows. -/
def headChunks (q : Insert) (columns : List Identifier) : List Chunk :=
  .word q.mode.toSql :: (q.priority?.map fun p => Chunk.word (" " ++ p.toSql)).toList ++
    (if q.ignore then [.word " IGNORE"] else []) ++
    [.word " INTO ", .column q.table, .word " ("] ++ Chunk.list columns ++ [.word ") VALUES "]

/-- The values of a row in parentheses. -/
def rowChunks (row : List Value) : List Chunk :=
  .word "(" :: Chunk.join ", " (row.map fun v => [.bind v]) ++ [.word ")"]

/-- What a column is set to. -/
def assignedChunk : Assigned → Chunk
  | .value v => .bind v
  | .raw sql => .word sql

/-- The assignments with their keyword. -/
def updateChunks (assignments : List Assignment) : List Chunk :=
  if assignments.isEmpty then []
  else
    .word " ON DUPLICATE KEY UPDATE " ::
      Chunk.join ", " (assignments.map fun a =>
        [.column a.column, .word " = ", assignedChunk a.assigned])

/-- The pieces of a statement with rows. -/
def chunks (q : Insert) (columns : List Identifier) (rows : List (List Value)) : List Chunk :=
  q.headChunks columns ++ Chunk.join ", " (rows.map rowChunks) ++ updateChunks q.assignments

/-- The pieces of a statement with named markers. -/
def namedChunks (q : Insert) (columns : List Identifier) : List Chunk :=
  q.headChunks columns ++
    .word "(" :: Chunk.join ", " (columns.map fun c => [.word (":" ++ c.name)]) ++
    .word ")" :: updateChunks q.assignments

/-- The identifiers that are written in a statement with columns. -/
def names (q : Insert) (columns : List Identifier) : List Identifier :=
  q.table :: columns ++ q.assignments.map Assignment.column

/-- The chunks in front of the rows are written as what stands there. -/
theorem map_headChunks (q : Insert) (columns : List Identifier) :
    (q.headChunks columns).map (Chunk.piece q.settings.dialect.quote) = q.head columns := by
  rw [headChunks, head]
  simp only [List.map_append, List.map_cons, Chunk.map_list]
  cases q.priority? <;> cases q.ignore <;> rfl

/-- The chunks of a row are written as the row. -/
theorem map_rowChunks (quote : Char) (row : List Value) :
    (rowChunks row).map (Chunk.piece quote) = rowTemplate row := by
  rw [rowChunks, rowTemplate, List.map_append, List.map_cons, Chunk.map_join, List.map_map]
  rfl

/-- The chunks of the assignments are written as the assignments. -/
theorem map_updateChunks (q : Insert) :
    (updateChunks q.assignments).map (Chunk.piece q.settings.dialect.quote) =
      q.updateTemplate := by
  rw [updateChunks, updateTemplate]
  split
  · rfl
  · rw [List.map_cons, Chunk.map_join, List.map_map]
    refine congrArg (_ :: Template.join ", " ·) (List.map_congr_left fun a _ => ?_)
    obtain ⟨column, v | sql⟩ := a <;> rfl

/-- **The template is made of the pieces.** -/
theorem template_eq_map (q : Insert) (columns : List Identifier) (rows : List (List Value)) :
    q.template columns rows =
      (q.chunks columns rows).map (Chunk.piece q.settings.dialect.quote) := by
  rw [template, chunks, List.map_append, List.map_append, map_headChunks, map_updateChunks,
    Chunk.map_join, List.map_map]
  exact congrArg (q.head columns ++ Template.join ", " · ++ q.updateTemplate)
    (List.map_congr_left fun row _ => (map_rowChunks _ row).symm)

/-- **The template with named markers is made of the pieces.** -/
theorem namedTemplate_eq_map (q : Insert) (columns : List Identifier) :
    q.namedTemplate columns =
      (q.namedChunks columns).map (Chunk.piece q.settings.dialect.quote) := by
  rw [namedTemplate, namedChunks, List.map_append, List.map_append, List.map_cons, List.map_cons,
    map_headChunks, map_updateChunks, Chunk.map_join, List.map_map]
  rfl

/-- In front of the rows stand the table and the columns. -/
theorem columns_headChunks (q : Insert) (columns : List Identifier) :
    Chunk.columns (q.headChunks columns) = q.table :: columns := by
  rw [headChunks]
  simp only [Chunk.columns_append, List.cons_append, Chunk.columns_word, Chunk.columns_list]
  cases q.priority? <;> cases q.ignore <;> simp

/-- Rows have no identifiers. -/
theorem columns_rowChunks (row : List Value) : Chunk.columns (rowChunks row) = [] := by
  rw [rowChunks, List.cons_append, Chunk.columns_word, Chunk.columns_append, Chunk.columns_join,
    List.flatMap_map]
  simp

/-- The assignments have the columns that are assigned to. -/
theorem columns_updateChunks (assignments : List Assignment) :
    Chunk.columns (updateChunks assignments) = assignments.map Assignment.column := by
  have hassignment : ∀ a : Assignment,
      Chunk.columns [.column a.column, .word " = ", assignedChunk a.assigned] = [a.column] := by
    rintro ⟨column, v | sql⟩ <;> rfl
  rw [updateChunks]
  split
  · rename_i hnone
    rw [List.isEmpty_iff.1 hnone]
    rfl
  · rw [Chunk.columns_word, Chunk.columns_join, List.flatMap_map, funext hassignment,
      List.map_eq_flatMap]

/-- The identifiers of an INSERT are its names in order. -/
theorem columns_chunks (q : Insert) (columns : List Identifier) (rows : List (List Value)) :
    Chunk.columns (q.chunks columns rows) = q.names columns := by
  have hrows : (rows.map rowChunks).flatMap Chunk.columns = [] := by
    rw [List.flatMap_map, funext columns_rowChunks]
    simp
  rw [chunks, Chunk.columns_append, Chunk.columns_append, Chunk.columns_join, hrows,
    columns_headChunks, columns_updateChunks, List.append_nil]
  rfl

/-- With named markers the identifiers of an INSERT are the same names. -/
theorem columns_namedChunks (q : Insert) (columns : List Identifier) :
    Chunk.columns (q.namedChunks columns) = q.names columns := by
  have hmarkers : (columns.map fun c => [Chunk.word (":" ++ c.name)]).flatMap Chunk.columns =
      [] := by
    rw [List.flatMap_map]
    simp
  rw [namedChunks, Chunk.columns_append, Chunk.columns_append, Chunk.columns_word,
    Chunk.columns_word, Chunk.columns_join, hmarkers, columns_headChunks, columns_updateChunks,
    List.append_nil]
  rfl

end Insert

end BoundSql
