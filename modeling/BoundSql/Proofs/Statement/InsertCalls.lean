import BoundSql.Proofs.Statement.Builder

/-!
# What an INSERT takes in

The calls on an INSERT bring in rows, in one of three forms, and assignments of ON DUPLICATE
KEY UPDATE.  Without an error, the statement has all of them in the order of the calls, and
the columns that were given last (`InsertDraft.gathers_ofCalls`).
-/

namespace BoundSql

/-- What is brought in for one row: its values, a map, or a record. -/
inductive Entry
  | values (row : List Value)
  | map (m : ValueMap)
  | record (r : Record)

/-- The entries of rows in either form. -/
def Source.entries : Source → List Entry
  | .empty => []
  | .rows given => given.map .values
  | .maps given => given.map .map
  | .records given => given.map .record

namespace Insert

namespace Call

/-- The entries that a call brings in. -/
def entries : Call → List Entry
  | .rows given => given.map .values
  | .maps given => given.map .map
  | .records given => given.map .record
  | _ => []

/-- The assignments that a call brings in. -/
def assignments : Call → List Assignment
  | .update column assigned => [⟨column, assigned⟩]
  | _ => []

/-- The call adds rows, maps or records, be it none of them. -/
def adds : Call → Bool
  | .rows _ | .maps _ | .records _ => true
  | _ => false

/-- The columns that a call gives. -/
def columns? : Call → Option (List Identifier)
  | .columns names => some names
  | _ => none

end Call

/-- The statement has taken in what calls have brought. -/
structure Gathers (calls : List Call) (q : Insert) : Prop where
  entries : q.source.entries = calls.flatMap Call.entries
  columns : q.columns = (calls.filterMap Call.columns?).getLastD []
  assignments : q.assignments = calls.flatMap Call.assignments

/-- Rows of one form are put behind one another. -/
theorem entries_of_addRows {current added source : Source}
    (h : addRows current added = .ok source) :
    source.entries = current.entries ++ added.entries := by
  cases current <;> cases added <;> simp only [addRows, Except.ok.injEq, reduceCtorEq] at h <;>
    subst h <;> simp [Source.entries]

/-- No call changes the table, and the rows are changed by those alone that add some. -/
theorem kept_of_apply {q r : Insert} {c : Call} (h : q.apply c = .ok r) :
    r.table = q.table ∧ (c.adds = false → r.source = q.source) := by
  cases c with
  | settings s | dialect d | tag t =>
      obtain rfl := Except.ok.inj h
      exact ⟨rfl, fun _ => rfl⟩
  | rows rows | maps maps | records records =>
      obtain ⟨_, -, h⟩ := bind_eq_ok.1 h
      obtain rfl := pure_eq_ok.1 h
      exact ⟨rfl, fun hadds => absurd hadds (by simp [Call.adds])⟩
  | columns names =>
      obtain ⟨-, rfl⟩ := apply_columns_eq_ok.1 h
      exact ⟨rfl, fun _ => rfl⟩
  | ignore =>
      obtain ⟨-, rfl⟩ := apply_ignore_eq_ok.1 h
      exact ⟨rfl, fun _ => rfl⟩
  | priority p =>
      obtain ⟨-, rfl⟩ := apply_priority_eq_ok.1 h
      exact ⟨rfl, fun _ => rfl⟩
  | replace =>
      obtain ⟨-, -, -, rfl⟩ := apply_replace_eq_ok.1 h
      exact ⟨rfl, fun _ => rfl⟩
  | update column assigned =>
      obtain ⟨-, -, rfl⟩ := apply_update_eq_ok.1 h
      exact ⟨rfl, fun _ => rfl⟩

/-- What a call brings is put behind what there is. -/
theorem gathers_apply {made : List Call} {q r : Insert} {c : Call} (hq : Gathers made q)
    (h : q.apply c = .ok r) : Gathers (made ++ [c]) r := by
  obtain ⟨hentries, hcolumns, hassignments⟩ := hq
  -- of what calls bring, a call brings one thing, and it leaves the rest as it is
  have hsame : c.entries = [] → c.columns? = none → c.assignments = [] →
      r.source = q.source → r.columns = q.columns → r.assignments = q.assignments →
        Gathers (made ++ [c]) r := by
    intro hnoEntries hnoColumns hnoAssignments hsource hgiven hassigned
    constructor <;> simp [*]
  have hrows : c.columns? = none → c.assignments = [] → ∀ {added source : Source},
      added.entries = c.entries → addRows q.source added = .ok source →
        { q with source } = r → Gathers (made ++ [c]) r := by
    intro hnoColumns hnoAssignments added source hadded hsource hr
    subst hr
    constructor <;> simp [entries_of_addRows hsource, *]
  cases c with
  | settings s =>
      obtain rfl := Except.ok.inj h
      exact hsame rfl rfl rfl rfl rfl rfl
  | dialect d =>
      obtain rfl := Except.ok.inj h
      exact hsame rfl rfl rfl rfl rfl rfl
  | tag tag =>
      obtain rfl := Except.ok.inj h
      exact hsame rfl rfl rfl rfl rfl rfl
  | columns names =>
      obtain ⟨-, rfl⟩ := apply_columns_eq_ok.1 h
      constructor <;> simp [Call.entries, Call.columns?, Call.assignments, *]
  | rows rows =>
      obtain ⟨source, hsource, h⟩ := bind_eq_ok.1 h
      exact hrows rfl rfl rfl hsource (pure_eq_ok.1 h)
  | maps maps =>
      obtain ⟨source, hsource, h⟩ := bind_eq_ok.1 h
      exact hrows rfl rfl rfl hsource (pure_eq_ok.1 h)
  | records records =>
      obtain ⟨source, hsource, h⟩ := bind_eq_ok.1 h
      exact hrows rfl rfl rfl hsource (pure_eq_ok.1 h)
  | ignore =>
      obtain ⟨-, rfl⟩ := apply_ignore_eq_ok.1 h
      exact hsame rfl rfl rfl rfl rfl rfl
  | priority p =>
      obtain ⟨-, rfl⟩ := apply_priority_eq_ok.1 h
      exact hsame rfl rfl rfl rfl rfl rfl
  | replace =>
      obtain ⟨-, -, -, rfl⟩ := apply_replace_eq_ok.1 h
      exact hsame rfl rfl rfl rfl rfl rfl
  | update column assigned =>
      obtain ⟨-, -, rfl⟩ := apply_update_eq_ok.1 h
      constructor <;> simp [Call.entries, Call.columns?, Call.assignments, *]

end Insert

namespace InsertDraft

/-- **A statement without an error has taken in all that its calls brought,** in order. -/
theorem gathers_ofCalls {mode : InsertMode} {table : String} {calls : List Insert.Call}
    (h : (ofCalls mode table calls).error? = none) :
    Insert.Gathers calls (ofCalls mode table calls).state := by
  refine Draft.foldl_gathers (fun hq hr => Insert.gathers_apply hq hr) [] calls ?_ h
  rw [ofTable, Draft.checked_state]
  exact ⟨rfl, rfl, rfl⟩

end InsertDraft

end BoundSql
