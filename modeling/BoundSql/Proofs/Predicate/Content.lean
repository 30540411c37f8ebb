import BoundSql.Proofs.Identifier.Reading
import BoundSql.Proofs.Predicate.Chunks

/-!
# Columns and values of rendered predicates

Dropping the members of a group that have no content loses neither a column nor a
value, so the columns and the values of a rendered predicate are those of the tree, from
left to right.  Without raw fragments the words around them come from a small
vocabulary, and after a column there is a word or nothing.

Under a dialect whose quote character is in none of these words and in no placeholder,
the names in the text of a predicate are therefore exactly its columns
(`Predicate.namesIn_toSql`).
-/

namespace BoundSql

namespace Chunk

/-- The words of the SQL of predicates. -/
def vocabulary : List String :=
  ["(", ")", "NOT (", " AND ", " OR ", ", ", " IS NULL", " IS NOT NULL", " IN (", " NOT IN (",
    " = ", " != ", " < ", " <= ", " > ", " >= ", " LIKE "]

end Chunk

namespace Predicate

mutual

/-- The columns from left to right. -/
def columns : Predicate → List Identifier
  | .and members => columnsOf members
  | .or members => columnsOf members
  | .not body => body.columns
  | .compare left _ right => Chunk.columns [.ofOperand left, .ofOperand right]
  | .nullTest column _ => [column]
  | .oneOf column _ _ => [column]
  | .raw _ _ => []

def columnsOf : List Predicate → List Identifier
  | [] => []
  | p :: rest => p.columns ++ columnsOf rest

end

mutual

/-- The values from left to right. -/
def values : Predicate → List Value
  | .and members => valuesOf members
  | .or members => valuesOf members
  | .not body => body.values
  | .compare left _ right => Chunk.values [.ofOperand left, .ofOperand right]
  | .nullTest _ _ => []
  | .oneOf _ values _ => values
  | .raw _ values => values

def valuesOf : List Predicate → List Value
  | [] => []
  | p :: rest => p.values ++ valuesOf rest

end

mutual

/-- Without content there are no columns. -/
theorem columns_eq_nil : ∀ p : Predicate, p.isEmpty = true → p.columns = []
  | .and members, h => columnsOf_eq_nil members h
  | .or members, h => columnsOf_eq_nil members h
  | .not body, h => columns_eq_nil body h
  | .compare .., h => absurd h (by simp [isEmpty])
  | .nullTest .., h => absurd h (by simp [isEmpty])
  | .oneOf .., h => absurd h (by simp [isEmpty])
  | .raw .., _ => rfl

/-- Members without content have no columns. -/
theorem columnsOf_eq_nil : ∀ ps : List Predicate, allEmpty ps = true → columnsOf ps = []
  | [], _ => rfl
  | p :: rest, h => by
      obtain ⟨hp, hrest⟩ := Bool.and_eq_true_iff.1 h
      rw [columnsOf, columns_eq_nil p hp, columnsOf_eq_nil rest hrest, List.append_nil]

end

mutual

/-- No column of the tree is lost. -/
theorem columns_layout : ∀ p : Predicate, p.layout.columns = p.columns
  | .and members => columns_memberLayouts members
  | .or members => columns_memberLayouts members
  | .not body => columns_layout body
  | .compare left op right => by cases left <;> cases right <;> rfl
  | .nullTest .. => rfl
  | .oneOf column values negated => by
      have hvalues : Chunk.columns (Chunk.join ", " (values.map fun v => [.bind v])) = [] := by
        rw [Chunk.columns, Chunk.filterMap_join fun _ => rfl]
        simp [Chunk.column?]
      exact congrArg (column :: ·) ((List.filterMap_append ..).trans (congrArg (· ++ []) hvalues))
  | .raw sql values => by
      refine List.filterMap_eq_nil_iff.2 fun c hc => ?_
      obtain ⟨piece, -, rfl⟩ := List.mem_map.1 hc
      cases piece <;> rfl

/-- The layouts of members have the columns of the members. -/
theorem columns_memberLayouts : ∀ ps : List Predicate,
    Chunk.columns (Layout.leavesOf (memberLayouts ps)) = columnsOf ps
  | [] => rfl
  | p :: rest => by
      rw [memberLayouts, columnsOf]
      split
      · rename_i hp
        rw [columns_eq_nil p hp, columns_memberLayouts rest, List.nil_append]
      · rw [Layout.leavesOf, Chunk.columns, List.filterMap_append]
        exact congr (congrArg _ (columns_layout p)) (columns_memberLayouts rest)

end

/-- The columns of a predicate are written, and in order. -/
theorem columns_chunks (p : Predicate) : Chunk.columns p.chunks = p.columns :=
  (p.layout.columns_full).trans (columns_layout p)

/-- A blank text has no markers. -/
theorem count_of_allBlank {sql : String} (h : Text.allBlank sql = true) : Marker.count sql = 0 := by
  have hsegments : ∀ cs : List Char, cs.all Text.isBlank = true →
      (Marker.segments none cs).length = 1 := by
    intro cs hcs
    induction cs with
    | nil => rfl
    | cons c cs ih =>
        rw [List.all_cons, Bool.and_eq_true] at hcs
        have hmark : c ≠ '?' := by
          rintro rfl
          exact absurd hcs.1 (by decide)
        have hafter : Quoting.after none c = none := by
          have hopens : Quoting.opens c = false := by
            rw [Bool.eq_false_iff]
            intro hopens
            simp only [Quoting.opens, Bool.or_eq_true, beq_iff_eq] at hopens
            obtain ((rfl | rfl) | rfl) := hopens <;> exact absurd hcs.1 (by decide)
          simp [Quoting.after, hopens]
        rw [Marker.segments_cons (fun h => hmark h.2), hafter,
          Marker.length_prepend (Marker.segments_ne_nil none cs), ih hcs.2]
  have hlength := Marker.length_segments sql
  rw [hsegments sql.toList h] at hlength
  omega

mutual

/-- Without content and without a fault there are no values. -/
theorem values_eq_nil : ∀ p : Predicate, p.isEmpty = true → p.fault? = none → p.values = []
  | .and members, h, hfault => valuesOf_eq_nil members h hfault
  | .or members, h, hfault => valuesOf_eq_nil members h hfault
  | .not body, h, hfault => values_eq_nil body h hfault
  | .compare .., h, _ => absurd h (by simp [isEmpty])
  | .nullTest .., h, _ => absurd h (by simp [isEmpty])
  | .oneOf .., h, _ => absurd h (by simp [isEmpty])
  | .raw sql values, h, hfault => by
      have hcount := count_of_rawFault? hfault
      rw [count_of_allBlank h] at hcount
      exact List.length_eq_zero_iff.1 hcount.symm

/-- Members without content and without a fault have no values. -/
theorem valuesOf_eq_nil : ∀ ps : List Predicate, allEmpty ps = true → firstFault? ps = none →
    valuesOf ps = []
  | [], _, _ => rfl
  | p :: rest, h, hfault => by
      obtain ⟨hp, hrest⟩ := Bool.and_eq_true_iff.1 h
      obtain ⟨hfault, hfaults⟩ := firstFault?_cons.1 hfault
      rw [valuesOf, values_eq_nil p hp hfault, valuesOf_eq_nil rest hrest hfaults, List.append_nil]

end

mutual

/-- No value of a checked tree is lost. -/
theorem values_layout : ∀ p : Predicate, p.fault? = none → p.layout.values = p.values
  | .and members, h => values_memberLayouts members h
  | .or members, h => values_memberLayouts members h
  | .not body, h => values_layout body h
  | .compare left op right, _ => by cases left <;> cases right <;> rfl
  | .nullTest .., _ => rfl
  | .oneOf column values negated, _ => by
      have hvalues : Chunk.values (Chunk.join ", " (values.map fun v => [.bind v])) = values := by
        rw [Chunk.values, Chunk.filterMap_join fun _ => rfl, List.flatMap_map]
        simp [Chunk.value?, List.flatMap_singleton']
      exact (List.filterMap_append ..).trans
        ((congrArg (· ++ []) hvalues).trans (List.append_nil values))
  | .raw sql values, h => by
      have hlength := Marker.length_segments sql
      rw [count_of_rawFault? h] at hlength
      exact (Chunk.params_map_piece Dialect.backtick _).symm.trans
        ((congrArg Template.params (map_ofPiece _ _)).trans (Marker.params_fill hlength))

/-- The layouts of members bind the values of the members. -/
theorem values_memberLayouts : ∀ ps : List Predicate, firstFault? ps = none →
    Chunk.values (Layout.leavesOf (memberLayouts ps)) = valuesOf ps
  | [], _ => rfl
  | p :: rest, h => by
      obtain ⟨hfault, hfaults⟩ := firstFault?_cons.1 h
      rw [memberLayouts, valuesOf]
      split
      · rename_i hp
        rw [values_eq_nil p hp hfault, values_memberLayouts rest hfaults, List.nil_append]
      · rw [Layout.leavesOf, Chunk.values, List.filterMap_append]
        exact congr (congrArg _ (values_layout p hfault)) (values_memberLayouts rest hfaults)

end

/-- **A checked predicate binds its values,** each of them once and in order. -/
theorem params_toSql {p : Predicate} (h : p.fault? = none) (d : Dialect) :
    (p.toSql d).params = p.values :=
  (p.layout.params_write d).trans (values_layout p h)

/-- The values of a predicate without a fault are bound, and in order. -/
theorem values_chunks {p : Predicate} (h : p.fault? = none) : Chunk.values p.chunks = p.values :=
  (Layout.values_resolve .full p.layout 0).trans (values_layout p h)

/-! ## Text -/

mutual

/-- Without raw fragments a predicate is checked. -/
theorem fault?_of_rawTexts : ∀ p : Predicate, p.rawTexts = [] → p.fault? = none
  | .and members, h => firstFault?_of_rawTextsOf members h
  | .or members, h => firstFault?_of_rawTextsOf members h
  | .not body, h => fault?_of_rawTexts body h
  | .compare .., _ => rfl
  | .nullTest .., _ => rfl
  | .oneOf .., _ => rfl
  | .raw .., h => absurd h (List.cons_ne_nil _ _)

/-- Members without raw SQL have no fault. -/
theorem firstFault?_of_rawTextsOf : ∀ ps : List Predicate, rawTextsOf ps = [] →
    firstFault? ps = none
  | [], _ => rfl
  | p :: rest, h => by
      obtain ⟨hp, hrest⟩ := List.append_eq_nil_iff.1 h
      exact firstFault?_cons.2 ⟨fault?_of_rawTexts p hp, firstFault?_of_rawTextsOf rest hrest⟩

end

mutual

/-- Without raw SQL a word stands between any two names and values. -/
theorem separated_chunks : ∀ p : Predicate, p.rawTexts = [] → Chunk.Separated p.chunks
  | .and members, h => by
      rw [chunks_and]
      exact Chunk.separated_group _ (separated_chunksOf members h)
  | .or members, h => by
      rw [chunks_or]
      exact Chunk.separated_group _ (separated_chunksOf members h)
  | .not body, h => by
      rw [chunks_not]
      exact Chunk.separated_negation (separated_chunks body h)
  | .compare left op right, _ =>
      Chunk.separated_ofOperand.append_word _ Chunk.separated_ofOperand
  | .nullTest column negated, _ => .column column (.word _ .nil)
  | .oneOf column values negated, _ => by
      have hvalues : Chunk.Separated (Chunk.join ", " (values.map fun v => [.bind v])) := by
        refine Chunk.separated_join ", " fun cs hcs => ?_
        obtain ⟨v, -, rfl⟩ := List.mem_map.1 hcs
        exact .bind v .nil
      exact .column column (.word _ (hvalues.append_word ")" .nil))
  | .raw .., h => absurd h (List.cons_ne_nil _ _)

/-- The same for the sequences of members. -/
theorem separated_chunksOf : ∀ ps : List Predicate, rawTextsOf ps = [] →
    ∀ cs ∈ chunksOf ps, Chunk.Separated cs
  | [], _, _, hcs => absurd hcs List.not_mem_nil
  | p :: rest, h, cs, hcs => by
      obtain ⟨hp, hrest⟩ := List.append_eq_nil_iff.1 h
      rw [chunksOf] at hcs
      split at hcs
      · exact separated_chunksOf rest hrest cs hcs
      · rcases List.mem_cons.1 hcs with rfl | hcs
        · exact separated_chunks p hp
        · exact separated_chunksOf rest hrest cs hcs

end

mutual

/-- Without raw fragments every part has a text of its own. -/
theorem settled_layout : ∀ p : Predicate, p.rawTexts = [] → p.layout.Settled
  | .and members, h => settled_memberLayouts members h
  | .or members, h => settled_memberLayouts members h
  | .not body, h => settled_layout body h
  | .compare left op right, _ => by cases left <;> cases op <;> exact .inr rfl
  | .nullTest column negated, _ => .inr rfl
  | .oneOf column values negated, _ => .inr rfl
  | .raw .., h => absurd h (List.cons_ne_nil _ _)

/-- The layouts of members without raw SQL are settled. -/
theorem settled_memberLayouts : ∀ ps : List Predicate, rawTextsOf ps = [] →
    Layout.SettledAll (memberLayouts ps)
  | [], _ => trivial
  | p :: rest, h => by
      obtain ⟨hp, hrest⟩ := List.append_eq_nil_iff.1 h
      rw [memberLayouts]
      split
      · exact settled_memberLayouts rest hrest
      · exact ⟨settled_layout p hp, settled_memberLayouts rest hrest⟩

end

/-- **Without raw fragments a predicate is written as its template under every dialect.** -/
theorem toSql_of_rawTexts {p : Predicate} (h : p.rawTexts = []) (d : Dialect) :
    p.toSql d = (p.template d.quote).emit d.placeholder :=
  Layout.write_of_settled (settled_layout p h) d

mutual

/-- Without raw fragments the words come from the vocabulary. -/
theorem mem_vocabulary : ∀ p : Predicate, p.rawTexts = [] →
    ∀ s ∈ p.layout.words, s ∈ Chunk.vocabulary
  | .and members, h => by
      rw [layout, Layout.words]
      simp only [List.forall_mem_cons]
      exact ⟨by decide, by decide, by decide, mem_vocabulary_of_mem members h⟩
  | .or members, h => by
      rw [layout, Layout.words]
      simp only [List.forall_mem_cons]
      exact ⟨by decide, by decide, by decide, mem_vocabulary_of_mem members h⟩
  | .not body, h => by
      rw [layout, Layout.words, List.cons_append, List.forall_mem_cons, List.forall_mem_append]
      exact ⟨by decide, mem_vocabulary body h, by decide⟩
  | .compare left op right, _ => by
      rw [words_compare]
      cases op <;> exact List.forall_mem_singleton.2 (by decide)
  | .nullTest column negated, _ => by
      cases negated <;> exact List.forall_mem_singleton.2 (by decide)
  | .oneOf column values negated, _ => by
      intro s hs
      have hc := Layout.mem_words_chunks.1 hs
      rw [List.mem_append, List.mem_cons, List.mem_cons, List.mem_singleton] at hc
      rcases hc with (hc | hc | hc) | hc
      · exact absurd hc (by simp)
      · rw [Chunk.word.inj hc]
        cases negated <;> decide
      · rw [Chunk.eq_of_mem_join_binds hc]
        decide
      · rw [Chunk.word.inj hc]
        decide
  | .raw .., h => absurd h (List.cons_ne_nil _ _)

/-- Members without raw SQL have words of the vocabulary alone. -/
theorem mem_vocabulary_of_mem : ∀ ps : List Predicate, rawTextsOf ps = [] →
    ∀ s ∈ Layout.wordsOf (memberLayouts ps), s ∈ Chunk.vocabulary
  | [], _, _, hs => absurd hs List.not_mem_nil
  | p :: rest, h, s, hs => by
      obtain ⟨hp, hrest⟩ := List.append_eq_nil_iff.1 h
      rw [memberLayouts] at hs
      split at hs
      · exact mem_vocabulary_of_mem rest hrest s hs
      · exact (List.mem_append.1 hs).elim (mem_vocabulary p hp s)
          (mem_vocabulary_of_mem rest hrest s)

end

/-- A predicate without raw SQL is written in words of the vocabulary alone. -/
theorem mem_vocabulary_of_mem_chunks {p : Predicate} (h : p.rawTexts = []) {s : String}
    (hs : .word s ∈ p.chunks) : s ∈ Chunk.vocabulary :=
  mem_vocabulary p h s (p.layout.mem_words 0 hs)

end Predicate

/-- The quote character is no dot and has no other use in the text of a predicate. -/
structure Dialect.Legible (d : Dialect) : Prop where
  not_dot : d.quote ≠ '.'
  not_in_word : ∀ s ∈ Chunk.vocabulary, d.quote ∉ s.toList
  not_in_placeholder : ∀ index, d.quote ∉ (d.placeholder.render index).toList

namespace Dialect

/-- In the text of a predicate the quote characters of the databases are nothing else. -/
theorem legible_presets : ∀ d ∈ [mysql, postgres, sqlite], d.Legible := by
  have hmysql : mysql.Legible :=
    ⟨by decide, by decide, fun _ => by simp [mysql, Placeholder.render, backtick]⟩
  have hsqlite : sqlite.Legible :=
    ⟨by decide, by decide, fun _ => by simp [sqlite, Placeholder.render]⟩
  have hpostgres : postgres.Legible := by
    refine ⟨by decide, by decide, fun index h => ?_⟩
    have hmem : '\x22' ∈ Nat.toDigits 10 (index + 1) := by
      simpa [postgres, Placeholder.render, Nat.toString_eq_repr, Nat.repr] using h
    exact absurd (Nat.isDigit_of_mem_toDigits (by decide) (by decide) hmem) (by decide)
  simp [hmysql, hpostgres, hsqlite]

end Dialect

/-- A word begins with no dot and no quote character. -/
theorem Dialect.Legible.head?_word {d : Dialect} (hd : d.Legible) {s : String}
    (hs : s ∈ Chunk.vocabulary) (rest : List Char) :
    (s.toList ++ rest).head? ≠ some d.quote ∧ (s.toList ++ rest).head? ≠ some '.' := by
  have hword : s.toList ≠ [] ∧ s.toList.head? ≠ some '.' := by
    revert s
    decide
  have hquote := hd.not_in_word s hs
  obtain ⟨c, more, hc⟩ := List.exists_cons_of_ne_nil hword.1
  rw [hc] at hquote hword ⊢
  refine ⟨fun h => hquote ?_, hword.2⟩
  rw [← Option.some.inj h]
  exact List.mem_cons_self

/-- The names in the text of a sequence are its columns. -/
theorem Chunk.namesIn_sqlFrom {d : Dialect} (hd : d.Legible) {cs : List Chunk}
    (hcs : Separated cs) (hwords : ∀ s, .word s ∈ cs → s ∈ vocabulary) (index : Nat) :
    Identifier.namesIn d.quote
        (Template.sqlFrom d.placeholder index (cs.map (piece d.quote))).toList =
      (columns cs).map fun name => name.parts.map String.toList := by
  have htail : ∀ {c : Chunk} {cs : List Chunk}, (∀ s, .word s ∈ c :: cs → s ∈ vocabulary) →
      ∀ s, .word s ∈ cs → s ∈ vocabulary := fun h s hs => h s (List.mem_cons_of_mem _ hs)
  induction hcs generalizing index with
  | nil => exact Identifier.namesIn_nil
  | @word cs s _ ih =>
      have hs := hwords s List.mem_cons_self
      rw [List.map_cons, piece, Template.sqlFrom, String.toList_append,
        Identifier.namesIn_append (hd.not_in_word s hs), ih (htail hwords)]
      rfl
  | @bind cs v _ ih =>
      rw [List.map_cons, piece, Template.sqlFrom, String.toList_append,
        Identifier.namesIn_append (hd.not_in_placeholder index), ih (htail hwords)]
      rfl
  | last name =>
      rw [List.map_cons, piece, Template.sqlFrom, String.toList_append,
        Identifier.namesIn_toSql_append name hd.not_dot (by simp [Template.sqlFrom])
          (by simp [Template.sqlFrom])]
      exact congrArg (_ :: ·) Identifier.namesIn_nil
  | @column cs name s h ih =>
      have hs := hwords s (by simp)
      have hrest : Template.sqlFrom d.placeholder index ((Chunk.word s :: cs).map (piece d.quote)) =
          s ++ Template.sqlFrom d.placeholder index (cs.map (piece d.quote)) := rfl
      have hnext := hd.head?_word hs
        (Template.sqlFrom d.placeholder index (cs.map (piece d.quote))).toList
      rw [← String.toList_append, ← hrest] at hnext
      rw [List.map_cons, piece, Template.sqlFrom, String.toList_append,
        Identifier.namesIn_toSql_append name hd.not_dot hnext.1 hnext.2, ih (htail hwords)]
      rfl

/-- **The names in the text of a predicate are its columns,** each of them in its place
and nothing else. -/
theorem Predicate.namesIn_toSql {p : Predicate} (h : p.rawTexts = []) {d : Dialect}
    (hd : d.Legible) : Identifier.namesIn d.quote (p.toSql d).sql.toList =
      p.columns.map fun name => name.parts.map String.toList := by
  rw [toSql_of_rawTexts h, Template.emit, template_eq_map,
    Chunk.namesIn_sqlFrom hd (separated_chunks p h) (fun _ => mem_vocabulary_of_mem_chunks h) 0,
    columns_chunks]

end BoundSql
