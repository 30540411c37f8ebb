import BoundSql.Proofs.Except
import BoundSql.Statement.Insert
import BoundSql.Statement.Select

/-!
# Accepted calls

What is checked by each call that can be refused for its own sake, and what an accepted
one makes of the statement.  All other calls on a statement change what they name and
nothing else, or take what they add from a computation of its own.
-/

namespace BoundSql

namespace Select

variable {q r : Select}

/-- An alias is accepted if it is an identifier. -/
theorem apply_alias_eq_ok {name : String} : q.apply (.alias name) = .ok r ↔
    (Identifier.single name).validate = .ok () ∧ { q with alias? := some (.single name) } = r := by
  rw [apply, bind_unit_eq_ok, mapError_eq_ok, pure_eq_ok]

/-- Columns are accepted if each is an identifier; none at all mean all of them. -/
theorem apply_columns_eq_ok {names : List Identifier} : q.apply (.columns names) = .ok r ↔
    validateColumns "SELECT: column" names = .ok () ∧
      { q with projection := if names.isEmpty then .all else .columns names } = r := by
  rw [apply, bind_unit_eq_ok, pure_eq_ok]

/-- A raw projection is accepted if no marker is left in it; a blank one means all columns. -/
theorem apply_columnsRaw_eq_ok {sql : String} : q.apply (.columnsRaw sql) = .ok r ↔
    Marker.count (Text.trim sql) = 0 ∧
      { q with
        projection := if (Text.trim sql).isEmpty then .all else .raw (Text.trim sql) } = r := by
  rw [apply, guard_eq_ok, Decidable.not_not, Except.ok.injEq]

/-- A grouping is accepted if its clause is; one without content takes the grouping away. -/
theorem apply_groupBy_eq_ok {clause : ColumnClause} : q.apply (.groupBy clause) = .ok r ↔
    clause.validate "GROUP BY" = .ok () ∧
      { q with groupBy? := if clause.isEmpty then none else some clause } = r := by
  rw [apply, bind_unit_eq_ok, pure_eq_ok]

/-- An order is accepted if its clause is; one without content takes the order away. -/
theorem apply_orderBy_eq_ok {clause : ColumnClause} : q.apply (.orderBy clause) = .ok r ↔
    clause.validate "ORDER BY" = .ok () ∧
      { q with orderBy? := if clause.isEmpty then none else some clause } = r := by
  rw [apply, bind_unit_eq_ok, pure_eq_ok]

/-- A count passes its check unchanged, unless it is negative. -/
theorem nonNegative_eq_ok {clause : String} {n m : Int64} :
    nonNegative clause n = .ok m ↔ ¬n < 0 ∧ n = m := by
  rw [nonNegative, guard_eq_ok, Except.ok.injEq]

/-- A limit is accepted if it is not negative. -/
theorem apply_limit_eq_ok {n : Int64} : q.apply (.limit n) = .ok r ↔
    ¬n < 0 ∧ { q with limit? := some n } = r := by
  simp only [apply, bind_eq_ok, nonNegative_eq_ok, pure_eq_ok, and_assoc, exists_and_left,
    exists_eq_left']

/-- An offset is accepted if it is not negative. -/
theorem apply_offset_eq_ok {n : Int64} : q.apply (.offset n) = .ok r ↔
    ¬n < 0 ∧ { q with offset? := some n } = r := by
  simp only [apply, bind_eq_ok, nonNegative_eq_ok, pure_eq_ok, and_assoc, exists_and_left,
    exists_eq_left']

/-- A page is accepted if it and its size are at least one; it sets both counts. -/
theorem apply_paginate_eq_ok {page perPage : Int64} : q.apply (.paginate page perPage) = .ok r ↔
    ¬page < 1 ∧ ¬perPage < 1 ∧
      { q with limit? := some perPage, offset? := some (rowsBefore page perPage) } = r := by
  rw [apply, guard_eq_ok, guard_eq_ok, Except.ok.injEq]

end Select

namespace Insert

variable {q r : Insert}

/-- The columns of an INSERT are accepted if each is an identifier. -/
theorem apply_columns_eq_ok {names : List Identifier} : q.apply (.columns names) = .ok r ↔
    Select.validateColumns "INSERT: column" names = .ok () ∧ { q with columns := names } = r := by
  rw [apply, bind_unit_eq_ok, pure_eq_ok]

/-- Errors can be ignored by any statement but REPLACE. -/
theorem apply_ignore_eq_ok : q.apply .ignore = .ok r ↔
    q.mode ≠ .replace ∧ { q with ignore := true } = r := by
  rw [apply, guard_eq_ok, Except.ok.injEq]

/-- Every priority is accepted, but for high priority with REPLACE. -/
theorem apply_priority_eq_ok {p : Priority} : q.apply (.priority p) = .ok r ↔
    ¬(q.mode = .replace ∧ p = .high) ∧ { q with priority? := some p } = r := by
  rw [apply, guard_eq_ok, Except.ok.injEq]

/-- A statement becomes REPLACE if it has nothing that REPLACE excludes. -/
theorem apply_replace_eq_ok : q.apply .replace = .ok r ↔
    q.assignments = [] ∧ q.ignore = false ∧ q.priority? ≠ some .high ∧
      { q with mode := .replace } = r := by
  simp only [apply, guard_eq_ok, Except.ok.injEq, Bool.not_eq_true', Bool.not_eq_false,
    List.isEmpty_iff, Bool.not_eq_true]

/-- An assignment is accepted if it is one in itself and the statement is not REPLACE. -/
theorem apply_update_eq_ok {column : Identifier} {assigned : Assigned} :
    q.apply (.update column assigned) = .ok r ↔
      q.mode ≠ .replace ∧ validateAssignment ⟨column, assigned⟩ = .ok () ∧
        { q with assignments := q.assignments ++ [⟨column, assigned⟩] } = r := by
  rw [apply, guard_eq_ok, bind_unit_eq_ok, pure_eq_ok]

end Insert

end BoundSql
