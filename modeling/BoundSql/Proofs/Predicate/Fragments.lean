import BoundSql.Proofs.Predicate.Chunks

/-!
# Parentheses around raw fragments

Several conditions of a clause are joined by AND, and those that are raw fragments stand
in parentheses.  A group of one member is rendered as its member, so a fragment in such a
group stands bare among the conditions; members of a larger group are joined bare, raw
fragments included.  An OR in such a fragment binds across the operator beside it.
-/

namespace BoundSql

namespace Predicate

/-- A raw fragment, in any number of groups of one member. -/
inductive Wraps (sql : String) (values : List Value) : Predicate → Prop
  | raw : Wraps sql values (.raw sql values)
  | and {p : Predicate} (h : Wraps sql values p) : Wraps sql values (.and [p])
  | or {p : Predicate} (h : Wraps sql values p) : Wraps sql values (.or [p])

/-- A template in parentheses of its own. -/
def enclosed (t : Template) : Template := .text "(" :: t ++ [.text ")"]

variable {quote : Char} {sql : String} {values : List Value} {p : Predicate}

/-- A single member is all there is. -/
theorem allEmpty_singleton (p : Predicate) : allEmpty [p] = p.isEmpty :=
  Bool.and_true p.isEmpty

/-- A group whose only member has content is written as this member. -/
theorem group_chunksOf_singleton (separator : String) (h : p.isEmpty = false) :
    Chunk.group separator (chunksOf [p]) = p.chunks := by
  rw [chunksOf_eq_filter, List.filter_cons_of_pos (by simp [h])]
  rfl

/-- A group of several sequences is these sequences in parentheses, joined as they are. -/
theorem map_group (quote : Char) (separator : String) {members : List (List Chunk)}
    (h : 2 ≤ members.length) : (Chunk.group separator members).map (Chunk.piece quote) =
      enclosed (Template.join separator (members.map (List.map (Chunk.piece quote)))) := by
  rcases members with _ | ⟨first, _ | ⟨next, more⟩⟩
  · exact absurd h (by simp)
  · exact absurd h (by simp)
  · rw [Chunk.group_cons_cons, List.map_append, List.map_cons (f := Chunk.piece quote),
      Chunk.map_join]
    rfl

/-- A group in which several members have content is these members, joined as they are. -/
theorem map_group_chunksOf (quote : Char) (separator : String) {members : List Predicate}
    (h : 2 ≤ (members.filter (!·.isEmpty)).length) :
    (Chunk.group separator (chunksOf members)).map (Chunk.piece quote) =
      enclosed (Template.join separator
        ((members.filter (!·.isEmpty)).map (template quote))) := by
  rw [chunksOf_eq_filter, map_group quote separator (by simpa using h), List.map_map]
  rfl

/-- Groups of one member add nothing to a fragment. -/
theorem Wraps.chunks_eq (h : Wraps sql values p) (hne : p.isEmpty = false) :
    p.chunks = Chunk.ofRaw sql values := by
  induction h with
  | raw => rfl
  | and _ ih =>
      rw [isEmpty, allEmpty_singleton] at hne
      rw [chunks_and, group_chunksOf_singleton _ hne, ih hne]
  | or _ ih =>
      rw [isEmpty, allEmpty_singleton] at hne
      rw [chunks_or, group_chunksOf_singleton _ hne, ih hne]

/-- What wraps raw SQL in conjunctions and disjunctions of one is written as the raw SQL. -/
theorem Wraps.template_eq (h : Wraps sql values p) (hne : p.isEmpty = false) :
    p.template quote = Template.ofRaw sql values := by
  rw [template_eq_map, h.chunks_eq hne]
  exact map_ofPiece quote _

/-- A predicate in a list of several, as a template. -/
def isolated (quote : Char) (p : Predicate) : Template := p.isolatedLayout.template quote

/-- Raw SQL is isolated by parentheses. -/
theorem isolated_raw (quote : Char) (sql : String) (values : List Value) :
    isolated quote (.raw sql values) = enclosed (Template.ofRaw sql values) := by
  have hpieces := map_ofPiece quote (Template.ofRaw sql values)
  rw [isolated, isolatedLayout, Layout.template, Layout.full_chunks, Chunk.ofRaw, List.map_append,
    List.map_cons, hpieces]
  rfl

/-- A predicate with content is not blank when it is isolated. -/
theorem isBlank_isolated (h : p.isEmpty = false) : Chunk.isBlank p.isolatedLayout.full = false := by
  cases p with
  | raw sql values => rfl
  | _ => exact isBlank_chunks _ h

/-- Several conditions with content are all joined. -/
theorem conjoin_several {ps : List Predicate} (hlength : 2 ≤ ps.length)
    (h : ∀ p ∈ ps, p.isEmpty = false) :
    conjoin quote ps = Template.join " AND " (ps.map (isolated quote)) := by
  have hkept : ((ps.map isolatedLayout).map Layout.full).filter (!Chunk.isBlank ·) =
      (ps.map isolatedLayout).map Layout.full := by
    refine List.filter_eq_self.2 fun cs hcs => ?_
    obtain ⟨l, hl, rfl⟩ := List.mem_map.1 hcs
    obtain ⟨p, hp, rfl⟩ := List.mem_map.1 hl
    rw [isBlank_isolated (h p hp)]
    rfl
  have hjoined : conjunction ps = .joined false " AND " (ps.map isolatedLayout) := by
    unfold conjunction
    split
    · exact absurd hlength (by simp)
    · rfl
  rw [conjoin, hjoined, Layout.template, Layout.full_joined, hkept, if_neg Bool.false_ne_true,
    Chunk.map_join, List.map_map, List.map_map]
  rfl

/-- **Which fragments stand in parentheses.**  Without empty placeholders conditions and
predicates are written as their templates.  Of several conditions with content those that are
raw fragments stand in parentheses, and those that are fragments in groups of one member do
not.  Among several members of a group no fragment does. -/
theorem fragments_joined (quote : Char) (ps : List Predicate) :
    (∀ d : Dialect, d.quote = quote → d.placeholder.NeverEmpty →
      (conjunction ps).write d = (conjoin quote ps).emit d.placeholder ∧
        ∀ p : Predicate, p.toSql d = (p.template quote).emit d.placeholder) ∧
    (2 ≤ ps.length → (∀ p ∈ ps, p.isEmpty = false) → ∃ part : Predicate → Template,
      conjoin quote ps = Template.join " AND " (ps.map part) ∧
        ∀ sql values, part (.raw sql values) = enclosed (Template.ofRaw sql values) ∧
          ∀ p ∈ ps, Wraps sql values p →
            p = .raw sql values ∨ part p = Template.ofRaw sql values) ∧
      ∀ kept, ps.filter (!·.isEmpty) = kept → 2 ≤ kept.length → ∃ part : Predicate → Template,
        (and ps).template quote = enclosed (Template.join " AND " (kept.map part)) ∧
          (or ps).template quote = enclosed (Template.join " OR " (kept.map part)) ∧
          ∀ sql values, ∀ p ∈ kept, Wraps sql values p → part p = Template.ofRaw sql values := by
  refine ⟨?_, ?_, ?_⟩
  · rintro d rfl hd
    exact ⟨Layout.write_of_neverEmpty hd _, fun p => Layout.write_of_neverEmpty hd p.layout⟩
  · intro hlength hne
    refine ⟨isolated quote, conjoin_several hlength hne,
      fun sql values => ⟨isolated_raw quote sql values, ?_⟩⟩
    intro p hp hwraps
    have htemplate : p.template quote = Template.ofRaw sql values := hwraps.template_eq (hne p hp)
    cases hwraps with
    | raw => exact .inl rfl
    | and | or => exact .inr htemplate
  · rintro kept rfl hlength
    refine ⟨template quote, ?_, ?_, ?_⟩
    · rw [template_eq_map, chunks_and, map_group_chunksOf quote " AND " hlength]
    · rw [template_eq_map, chunks_or, map_group_chunksOf quote " OR " hlength]
    · intro sql values p hp hwraps
      exact hwraps.template_eq (by simpa using (List.mem_filter.1 hp).2)

/-- A fragment that is a condition, beside one in a group. -/
theorem fragments_joined_grouped : ∃ part : Predicate → Template,
    conjoin '\x22' [.raw "a OR b" [], .and [.raw "c OR d" []]] =
        Template.join " AND " [part (.raw "a OR b" []), part (.and [.raw "c OR d" []])] ∧
      part (.raw "a OR b" []) = [.text "(", .text "a OR b", .text ")"] ∧
      part (.and [.raw "c OR d" []]) = [.text "c OR d"] := by
  obtain ⟨part, hjoin, hpart⟩ := (fragments_joined '\x22'
    [.raw "a OR b" [], .and [.raw "c OR d" []]]).2.1 (by decide) (by simp; decide)
  refine ⟨part, hjoin, (hpart "a OR b" []).1, ?_⟩
  rcases (hpart "c OR d" []).2 (.and [.raw "c OR d" []]) (by simp) (.and .raw) with h | h
  · exact absurd h (by simp)
  · exact h

/-- A condition and a member of a group that are fragments with an OR, and are joined by
AND without parentheses. -/
theorem fragments_joined_bare :
    Wraps "a = 1 OR b = 2" [] (.and [.raw "a = 1 OR b = 2" []]) ∧
      ((conjoin '\x22' [.and [.raw "a = 1 OR b = 2" []],
        columnIs (.ofText "c") .eq (.int 3)]).emit .dollar).sql =
          "a = 1 OR b = 2 AND \"c\" = $1" ∧
      ((and [.raw "a = 1 OR b = 2" [], .raw "c = 3" []]).toSql .postgres).sql =
        "(a = 1 OR b = 2 AND c = 3)" :=
  ⟨.and .raw, by decide, by decide⟩

end Predicate

end BoundSql
