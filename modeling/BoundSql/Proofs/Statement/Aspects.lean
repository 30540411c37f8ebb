import BoundSql.Proofs.Statement.Builder
import Mathlib.Data.List.Basic
import Mathlib.Data.List.Perm.Basic

/-!
# What counts of the calls on a SELECT

Every call sets one or two aspects of the statement.  What counts of an aspect is the call
that set it last, and of the conditions of WHERE and of HAVING all of them in order.  A
statement is written down from this alone (`SelectDraft.ofCalls_eq_described`), whatever
stands between the calls, and whether a call is refused is a matter of the call
(`Select.Call.Accepted`).
-/

namespace BoundSql

namespace Select

/-- What of a statement calls can set. -/
inductive Aspect
  | tag | dialect | alias | distinct | projection | restriction | groupRestriction | groupBy
  | orderBy | limit | offset
  deriving DecidableEq

/-- What an aspect is set to. -/
@[reducible]
def Aspect.Setting : Aspect → Type
  | .tag => String
  | .dialect => Dialect
  | .alias => Identifier
  | .distinct => Unit
  | .projection => Projection
  | .restriction => Condition
  | .groupRestriction => Condition
  | .groupBy => ColumnClause
  | .orderBy => ColumnClause
  | .limit => Int64
  | .offset => Int64

/-- What a call sets an aspect to. -/
def Call.setting? : (a : Aspect) → Call → Option a.Setting
  | .tag, .settings s => some s.tag
  | .tag, .tag word => some word
  | .dialect, .settings s => some s.dialect
  | .dialect, .dialect d => some d
  | .alias, .alias name => some (.single name)
  | .distinct, .distinct => some ()
  | .projection, .columns names => some (if names.isEmpty then .all else .columns names)
  | .projection, .columnsRaw sql =>
    some (if (Text.trim sql).isEmpty then .all else .raw (Text.trim sql))
  | .restriction, .restrict c => some c
  | .groupRestriction, .restrictGroups c => some c
  | .groupBy, .groupBy clause => some clause
  | .orderBy, .orderBy clause => some clause
  | .limit, .limit n => some n
  | .limit, .paginate _ perPage => some perPage
  | .offset, .offset n => some n
  | .offset, .paginate page perPage => some (rowsBefore page perPage)
  | _, _ => none

/-- All that calls set an aspect to. -/
def settingsOf (a : Aspect) (calls : List Call) : List a.Setting :=
  calls.filterMap (Call.setting? a)

/-- What an aspect was set to last. -/
def last? (a : Aspect) (calls : List Call) : Option a.Setting := (settingsOf a calls).getLast?

/-- The settings of an aspect are made call by call, in order. -/
@[simp]
theorem settingsOf_concat (a : Aspect) (calls : List Call) (c : Call) :
    settingsOf a (calls ++ [c]) = settingsOf a calls ++ (c.setting? a).toList := by
  rw [settingsOf, List.filterMap_append, ← settingsOf]
  cases h : c.setting? a <;> simp [h]

/-- The last call for an aspect counts, and a call for another one does not. -/
@[simp]
theorem last?_concat (a : Aspect) (calls : List Call) (c : Call) :
    last? a (calls ++ [c]) = (c.setting? a).or (last? a calls) := by
  rw [last?, settingsOf_concat, List.getLast?_append, ← last?]
  cases c.setting? a <;> rfl

/-- The predicate of a condition, if it has content. -/
def resolved (clause : String) (c : Condition) : List Predicate :=
  match c.resolve clause with
  | .ok p? => p?.toList
  | .error _ => []

/-- The statement of a table that calls describe. -/
def described (table : Identifier) (calls : List Call) : Select where
  table := table
  alias? := last? .alias calls
  settings :=
    ⟨(last? .tag calls).getD Settings.standardTag, (last? .dialect calls).getD .standard⟩
  distinct := (last? .distinct calls).isSome
  projection := (last? .projection calls).getD .all
  restrictions := (settingsOf .restriction calls).flatMap (resolved "WHERE")
  groupBy? := (last? .groupBy calls).filter (!·.isEmpty)
  groupRestrictions := (settingsOf .groupRestriction calls).flatMap (resolved "HAVING")
  orderBy? := (last? .orderBy calls).filter (!·.isEmpty)
  limit? := last? .limit calls
  offset? := last? .offset calls

/-- A condition that is accepted stands for the predicate it resolves to, if to any. -/
theorem resolved_of_ok {clause : String} {c : Condition} {p? : Option Predicate}
    (h : c.resolve clause = .ok p?) : resolved clause c = p?.toList := by
  rw [resolved, h]

/-- A clause without content is as good as none. -/
theorem filter_clause (clause : ColumnClause) :
    (some clause).filter (!·.isEmpty) = if clause.isEmpty then none else some clause := by
  cases h : clause.isEmpty <;> simp [h]

/-- Without calls the described state is the one that a SELECT starts in. -/
theorem described_nil (table : Identifier) : described table [] = ofTable table := rfl

/-- **One more accepted call.** -/
theorem described_concat {table : Identifier} {calls : List Call} {c : Call} {r : Select}
    (h : (described table calls).apply c = .ok r) : described table (calls ++ [c]) = r := by
  -- every aspect that the call does not set is left as it is
  cases c with
  | settings s =>
      obtain rfl := Except.ok.inj h
      simp [described, Call.setting?]
  | dialect d =>
      obtain rfl := Except.ok.inj h
      simp [described, Call.setting?, Settings.withDialect]
  | tag tag =>
      obtain rfl := Except.ok.inj h
      simp [described, Call.setting?, Settings.withTag]
  | «alias» name =>
      obtain ⟨-, rfl⟩ := apply_alias_eq_ok.1 h
      simp [described, Call.setting?]
  | distinct =>
      obtain rfl := Except.ok.inj h
      simp [described, Call.setting?]
  | columns names =>
      obtain ⟨-, rfl⟩ := apply_columns_eq_ok.1 h
      simp [described, Call.setting?]
  | columnsRaw sql =>
      obtain ⟨-, rfl⟩ := apply_columnsRaw_eq_ok.1 h
      simp [described, Call.setting?]
  | restrict c =>
      obtain ⟨p?, hp, hr⟩ := bind_eq_ok.1 h
      obtain rfl := pure_eq_ok.1 hr
      simp [described, Call.setting?, resolved_of_ok hp]
  | restrictGroups c =>
      obtain ⟨p?, hp, hr⟩ := bind_eq_ok.1 h
      obtain rfl := pure_eq_ok.1 hr
      simp [described, Call.setting?, resolved_of_ok hp]
  | groupBy clause =>
      obtain ⟨-, rfl⟩ := apply_groupBy_eq_ok.1 h
      simp [described, Call.setting?, filter_clause]
  | orderBy clause =>
      obtain ⟨-, rfl⟩ := apply_orderBy_eq_ok.1 h
      simp [described, Call.setting?, filter_clause]
  | limit n =>
      obtain ⟨-, rfl⟩ := apply_limit_eq_ok.1 h
      simp [described, Call.setting?]
  | offset n =>
      obtain ⟨-, rfl⟩ := apply_offset_eq_ok.1 h
      simp [described, Call.setting?]
  | paginate page perPage =>
      obtain ⟨-, -, rfl⟩ := apply_paginate_eq_ok.1 h
      simp [described, Call.setting?]

namespace Call

/-- The call is accepted, whatever statement it is made on. -/
def Accepted (c : Call) : Prop := ∀ q : Select, ∃ r, q.apply c = .ok r

/-- **A call is refused for its own sake.** -/
theorem accepted_of_apply {q r : Select} {c : Call} (h : q.apply c = .ok r) : c.Accepted := by
  intro q'
  cases c with
  | settings s => exact ⟨_, rfl⟩
  | dialect d => exact ⟨_, rfl⟩
  | tag tag => exact ⟨_, rfl⟩
  | distinct => exact ⟨_, rfl⟩
  | «alias» name => exact ⟨_, apply_alias_eq_ok.2 ⟨(apply_alias_eq_ok.1 h).1, rfl⟩⟩
  | columns names => exact ⟨_, apply_columns_eq_ok.2 ⟨(apply_columns_eq_ok.1 h).1, rfl⟩⟩
  | columnsRaw sql =>
      exact ⟨_, apply_columnsRaw_eq_ok.2 ⟨(apply_columnsRaw_eq_ok.1 h).1, rfl⟩⟩
  | restrict c =>
      obtain ⟨p?, hp, -⟩ := bind_eq_ok.1 h
      exact ⟨_, bind_eq_ok.2 ⟨p?, hp, rfl⟩⟩
  | restrictGroups c =>
      obtain ⟨p?, hp, -⟩ := bind_eq_ok.1 h
      exact ⟨_, bind_eq_ok.2 ⟨p?, hp, rfl⟩⟩
  | groupBy clause => exact ⟨_, apply_groupBy_eq_ok.2 ⟨(apply_groupBy_eq_ok.1 h).1, rfl⟩⟩
  | orderBy clause => exact ⟨_, apply_orderBy_eq_ok.2 ⟨(apply_orderBy_eq_ok.1 h).1, rfl⟩⟩
  | limit n => exact ⟨_, apply_limit_eq_ok.2 ⟨(apply_limit_eq_ok.1 h).1, rfl⟩⟩
  | offset n => exact ⟨_, apply_offset_eq_ok.2 ⟨(apply_offset_eq_ok.1 h).1, rfl⟩⟩
  | paginate page perPage =>
      obtain ⟨hpage, hperPage, -⟩ := apply_paginate_eq_ok.1 h
      exact ⟨_, apply_paginate_eq_ok.2 ⟨hpage, hperPage, rfl⟩⟩

/-- The calls have no aspect in common. -/
def Apart (c c' : Call) : Prop := ∀ a, c.setting? a = none ∨ c'.setting? a = none

end Call

/-- Two runs of calls agree in what counts: in all conditions, and in what was set last. -/
structure Agree (calls calls' : List Call) : Prop where
  restrictions : settingsOf .restriction calls = settingsOf .restriction calls'
  groupRestrictions : settingsOf .groupRestriction calls = settingsOf .groupRestriction calls'
  last : ∀ a, last? a calls = last? a calls'

/-- A statement is described by what counts. -/
theorem Agree.described_eq {calls calls' : List Call} (h : Agree calls calls')
    (table : Identifier) : described table calls = described table calls' := by
  simp only [described, h.restrictions, h.groupRestrictions, h.last]

/-- Two neighbours that are apart can change places, and no aspect sees it. -/
theorem Call.Apart.agree {c c' : Call} (h : c.Apart c') (before after : List Call) :
    Agree (before ++ c :: c' :: after) (before ++ c' :: c :: after) := by
  have hsettings (a : Aspect) : settingsOf a (before ++ c :: c' :: after) =
      settingsOf a (before ++ c' :: c :: after) := by
    rcases h a with hc | hc <;> simp [settingsOf, List.filterMap_cons, hc]
  refine ⟨hsettings .restriction, hsettings .groupRestriction, fun a => ?_⟩
  rw [last?, hsettings, ← last?]

end Select

namespace Draft

/-- Where calls are refused for their own sake, a run has no error just when its start has
none and every call is accepted. -/
theorem error?_foldl_eq_none {α κ : Type} {apply : α → κ → Except SqlError α}
    {Accepted : κ → Prop} (haccepted : ∀ a c, (∃ b, apply a c = .ok b) ↔ Accepted c)
    (calls : List κ) {d : Draft α} :
    (calls.foldl (fun d c => d.step (apply · c)) d).error? = none ↔
      d.error? = none ∧ ∀ c ∈ calls, Accepted c := by
  induction calls generalizing d with
  | nil => simp
  | cons c calls ih =>
      have hstep : (d.step (apply · c)).error? = none ↔ d.error? = none ∧ Accepted c := by
        constructor
        · intro h
          obtain ⟨hd, b, hb, -⟩ := exists_of_step h
          exact ⟨hd, (haccepted _ c).1 ⟨b, hb⟩⟩
        · rintro ⟨hd, hc⟩
          obtain ⟨b, hb⟩ := (haccepted d.state c).2 hc
          rw [step_eq_of_ok hd hb]
      rw [List.foldl_cons, ih, hstep, List.forall_mem_cons, and_assoc]

end Draft

namespace SelectDraft

/-- A SELECT has no error just when its table and each single call are accepted, so the order of
the calls has no part in it. -/
theorem error?_ofCalls_eq_none (table : String) (calls : List Select.Call) :
    (ofCalls table calls).error? = none ↔
      (ofTable table).error? = none ∧ ∀ c ∈ calls, c.Accepted := by
  have haccepted (q : Select) (c : Select.Call) : (∃ r, q.apply c = .ok r) ↔ c.Accepted :=
    ⟨fun ⟨_, h⟩ => Select.Call.accepted_of_apply h, fun h => h q⟩
  exact Draft.error?_foldl_eq_none haccepted calls

/-- **A SELECT is what its calls describe.** -/
theorem ofCalls_eq_described {table : String} {calls : List Select.Call}
    (h : (ofCalls table calls).error? = none) :
    ofCalls table calls = ⟨Select.described (.ofText table) calls, none⟩ := by
  have hinit : Select.described (.ofText table) [] = (ofTable table).state := by
    rw [ofTable, Draft.checked_state, Select.described_nil]
  have hstate : Select.described (.ofText table) ([] ++ calls) = (ofCalls table calls).state := by
    refine Draft.foldl_gathers
      (I := fun made q => Select.described (.ofText table) made = q) ?_ [] calls hinit h
    rintro made q c r rfl hc
    exact Select.described_concat hc
  rw [Draft.eq_of_error? h, ← hstate, List.nil_append]

/-- The order of the calls does not decide whether there is an error. -/
theorem error?_ofCalls_perm {table : String} {calls calls' : List Select.Call}
    (h : calls.Perm calls') :
    (ofCalls table calls).error? = none ↔ (ofCalls table calls').error? = none := by
  simp only [error?_ofCalls_eq_none, h.mem_iff]

/-- Calls that agree make the same of a table. -/
theorem ofCalls_eq_of_agree {table : String} {calls calls' : List Select.Call}
    (h : (ofCalls table calls).error? = none) (h' : (ofCalls table calls').error? = none)
    (hagree : Select.Agree calls calls') : ofCalls table calls = ofCalls table calls' := by
  rw [ofCalls_eq_described h, ofCalls_eq_described h', hagree.described_eq]

/-- Drafts that are finished to the same statements, or refused alike. -/
structure Same (d d' : Draft Select) : Prop where
  build : build d = build d'
  buildFor : ∀ {α : Type} (t : RecordType α), buildFor d t = buildFor d' t

/-- Equal drafts are built alike in every way. -/
theorem Same.of_eq {d d' : Draft Select} (h : d = d') : Same d d' := by
  subst h
  exact ⟨rfl, fun _ => rfl⟩

/-- **What counts of the calls on a SELECT.**  Without an error, the finished statement is
the one that the calls describe by all conditions of WHERE, all conditions of HAVING and what
they set last of every other aspect.  Calls that agree in this give the same statements, so
neighbours that have no aspect in common can change places.  Whether there is an error does
not depend on the order of the calls. -/
theorem build_by_aspects :
    (∀ (table : String) (calls : List Select.Call), (ofCalls table calls).error? = none →
      let q := Select.described (.ofText table) calls
      build (ofCalls table calls) = .ok (q.statement q.projection) ∧
        ∀ {α : Type} (t : RecordType α), buildFor (ofCalls table calls) t = q.statementFor t) ∧
    (∀ (table : String) (calls calls' : List Select.Call),
      (ofCalls table calls).error? = none → (ofCalls table calls').error? = none →
        Select.Agree calls calls' → Same (ofCalls table calls) (ofCalls table calls')) ∧
    (∀ (table : String) (before after : List Select.Call) (c c' : Select.Call),
      (ofCalls table (before ++ c :: c' :: after)).error? = none → c.Apart c' →
        Same (ofCalls table (before ++ c :: c' :: after))
          (ofCalls table (before ++ c' :: c :: after))) ∧
    ∀ (table : String) (calls calls' : List Select.Call), calls.Perm calls' →
      ((ofCalls table calls).error? = none ↔ (ofCalls table calls').error? = none) := by
  refine ⟨fun table calls h => ?_, fun table calls calls' h h' hagree => ?_,
    fun table before after c c' h hapart => ?_, fun table calls calls' => error?_ofCalls_perm⟩
  · rw [ofCalls_eq_described h]
    exact ⟨rfl, fun t => rfl⟩
  · exact .of_eq (ofCalls_eq_of_agree h h' hagree)
  · have hswap : (before ++ c :: c' :: after).Perm (before ++ c' :: c :: after) :=
      (List.Perm.swap c' c after).append_left before
    have h' := (error?_ofCalls_perm hswap).1 h
    exact .of_eq (ofCalls_eq_of_agree h h' (hapart.agree before after))

/-- A page whose LIMIT is replaced, and an OFFSET that changes places. -/
theorem build_by_aspects_page :
    Same (ofCalls "t" [.paginate 4 1, .restrict (.raw "a" []), .limit 5])
      (ofCalls "t" [.offset 3, .limit 5, .restrict (.raw "a" [])]) ∧
    Same (ofCalls "t" [.offset 3, .limit 5, .restrict (.raw "a" [])])
      (ofCalls "t" [.limit 5, .offset 3, .restrict (.raw "a" [])]) ∧
    (ofCalls "t" [.limit 5, .offset 3, .restrict (.raw "a" [])]).error? = none ∧
    ∃ s, build (ofCalls "t" [.offset 3, .limit 5, .restrict (.raw "a" [])]) = .ok s := by
  obtain ⟨hdescribed, hagree, hswap, hperm⟩ := build_by_aspects
  have hpage : (ofCalls "t" [.paginate 4 1, .restrict (.raw "a" []), .limit 5]).error? = none :=
    rfl
  have hoffset : (ofCalls "t" [.offset 3, .limit 5, .restrict (.raw "a" [])]).error? = none :=
    rfl
  refine ⟨?_, ?_, ?_, ?_⟩
  · refine hagree _ _ _ hpage hoffset ⟨rfl, rfl, fun a => ?_⟩
    cases a <;> rfl
  · refine hswap "t" [] [.restrict (.raw "a" [])] _ _ hoffset fun a => ?_
    cases a <;> first | exact .inl rfl | exact .inr rfl
  · exact (hperm "t" _ _ (List.Perm.swap _ _ _)).1 hoffset
  · exact ⟨_, (hdescribed _ _ hoffset).1⟩

end SelectDraft

end BoundSql
