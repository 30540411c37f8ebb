import BoundSql.Proofs.Predicate.Fragments
import BoundSql.Proofs.Predicate.Normal

/-!
# Predicates that can be seen

Whether a predicate has content is decided from the tree, and what a group or a negation
writes is decided from what its members are written as.  The two agree: the SQL of a predicate
is the SQL of its normal form in full (`Predicate.template_eq_written`), in which nothing is
dropped any more.  Under a dialect whose quote character and placeholders are not white
space, no part of a normal form is written as white space, at any depth
(`Predicate.visible_written`), so no AND, OR or NOT stands beside nothing.
-/

namespace BoundSql

namespace Text

/-- Two texts are blank together if each is. -/
theorem allBlank_append (s t : String) : allBlank (s ++ t) = (allBlank s && allBlank t) := by
  rw [allBlank, String.toList_append, List.all_append]
  rfl

end Text

/-- The quote character and the placeholders are not white space. -/
structure Dialect.Visible (d : Dialect) : Prop where
  quote : Text.isBlank d.quote = false
  placeholder : ∀ index, Text.allBlank (d.placeholder.render index) = false

/-- What is not white space is not empty. -/
theorem Placeholder.neverEmpty_of_visible {p : Placeholder}
    (h : ∀ index, Text.allBlank (p.render index) = false) : p.NeverEmpty := by
  intro index hempty
  have hblank := h index
  rw [hempty] at hblank
  exact absurd hblank (by decide)

/-- A placeholder that is seen is not empty. -/
theorem Dialect.Visible.neverEmpty {d : Dialect} (hd : d.Visible) : d.placeholder.NeverEmpty :=
  Placeholder.neverEmpty_of_visible hd.placeholder

/-- The preset dialects are visible. -/
theorem Dialect.visible_presets :
    ∀ d ∈ [Dialect.mysql, Dialect.postgres, Dialect.sqlite], d.Visible := by
  have hquestion : ∀ index, Text.allBlank (Placeholder.question.render index) = false := by
    intro index
    rw [Placeholder.render]
    decide
  have hdollar : ∀ index, Text.allBlank (Placeholder.dollar.render index) = false := by
    intro index
    rw [Placeholder.render, Text.allBlank_append, Bool.and_eq_false_iff]
    exact .inl (by decide)
  intro d hd
  simp only [List.mem_cons, List.not_mem_nil, or_false] at hd
  rcases hd with rfl | rfl | rfl
  · exact ⟨by decide, hquestion⟩
  · exact ⟨by decide, hdollar⟩
  · exact ⟨by decide, hquestion⟩

/-- A text of white space. -/
def Piece.isInvisible : Piece → Bool
  | .text s => Text.allBlank s
  | .bind _ => false

namespace Template

/-- A template without any bound value, of which all texts are white space. -/
def isInvisible (t : Template) : Bool := t.all Piece.isInvisible

/-- The text of a template is blank just when there is nothing to be seen in it, from
whatever index its placeholders are numbered. -/
theorem allBlank_sqlFrom {p : Placeholder}
    (hp : ∀ index, Text.allBlank (p.render index) = false) (index : Nat) (t : Template) :
    Text.allBlank (sqlFrom p index t) = t.isInvisible := by
  induction t generalizing index with
  | nil => rfl
  | cons piece rest ih =>
      cases piece with
      | text s =>
          rw [sqlFrom, Text.allBlank_append, ih]
          rfl
      | bind v =>
          rw [sqlFrom, Text.allBlank_append, hp]
          rfl

/-- Nothing is seen of two templates if nothing is seen of either. -/
theorem isInvisible_append (s t : Template) :
    (s ++ t).isInvisible = (s.isInvisible && t.isInvisible) := List.all_append

/-- What is blank cannot be seen. -/
theorem isInvisible_of_isBlank {t : Template} (h : t.isBlank = true) : t.isInvisible = true := by
  refine List.all_eq_true.2 fun piece hpiece => ?_
  have hempty := List.all_eq_true.1 h piece hpiece
  cases piece with
  | text s =>
      obtain rfl := String.isEmpty_iff.1 hempty
      rfl
  | bind v => exact absurd hempty Bool.false_ne_true

/-- One piece that is seen is enough for a template to be seen. -/
theorem isInvisible_of_mem {t : Piece} {ts : Template} (ht : t ∈ ts)
    (h : t.isInvisible = false) : ts.isInvisible = false :=
  List.all_eq_false.2 ⟨t, ht, by rw [h]; exact Bool.false_ne_true⟩

/-- Where one of some templates is seen, all of them together are. -/
theorem isInvisible_join {separator : String} {ts : List Template} {t : Template} (ht : t ∈ ts)
    (h : t.isInvisible = false) : (join separator ts).isInvisible = false := by
  induction ts with
  | nil => exact absurd ht List.not_mem_nil
  | cons first rest ih =>
      cases rest with
      | nil =>
          obtain rfl := List.mem_singleton.1 ht
          exact h
      | cons next more =>
          rw [join, isInvisible_append, Bool.and_eq_false_iff]
          · rcases List.mem_cons.1 ht with rfl | ht
            · exact .inl h
            · exact .inr (Bool.and_eq_false_iff.2 (.inr (ih ht)))
          · exact List.cons_ne_nil _ _

/-- Raw SQL that is not blank is seen: either it is its only segment, or it has a marker. -/
theorem isInvisible_ofRaw {sql : String} (h : Text.allBlank sql = false) (values : List Value) :
    (ofRaw sql values).isInvisible = false := by
  rw [ofRaw]
  rcases hsegments : Marker.segments none sql.toList with _ | ⟨segment, _ | ⟨next, more⟩⟩
  · exact absurd hsegments (Marker.segments_ne_nil none sql.toList)
  · obtain rfl := Marker.eq_of_segments_singleton hsegments
    rw [Marker.fill, String.ofList_toList]
    simpa [isInvisible, Piece.isInvisible] using h
  · cases values with
    | nil => simp [Marker.fill, isInvisible, Piece.isInvisible, Text.allBlank, Text.isBlank]
    | cons v values => simp [Marker.fill, isInvisible, Piece.isInvisible]

end Template

namespace Predicate

mutual

/-- The predicate in SQL with all of its parts, each group in parentheses. -/
def written (quote : Char) : Predicate → Template
  | .and members => enclosed (Template.join " AND " (writtenAll quote members))
  | .or members => enclosed (Template.join " OR " (writtenAll quote members))
  | .not body => .text "NOT (" :: body.written quote ++ [.text ")"]
  | .compare left op right => (compare left op right).template quote
  | .nullTest column negated => (nullTest column negated).template quote
  | .oneOf column values negated => (oneOf column values negated).template quote
  | .raw sql values => (raw sql values).template quote

def writtenAll (quote : Char) : List Predicate → List Template
  | [] => []
  | p :: rest => p.written quote :: writtenAll quote rest

end

mutual

/-- The tree and all trees in it. -/
def subtrees : Predicate → List Predicate
  | .and members => .and members :: subtreesOf members
  | .or members => .or members :: subtreesOf members
  | .not body => .not body :: body.subtrees
  | .compare left op right => [.compare left op right]
  | .nullTest column negated => [.nullTest column negated]
  | .oneOf column values negated => [.oneOf column values negated]
  | .raw sql values => [.raw sql values]

def subtreesOf : List Predicate → List Predicate
  | [] => []
  | p :: rest => p.subtrees ++ subtreesOf rest

end

variable (quote : Char)

/-- A group writes the members that are left of it. -/
theorem group_eq_written {separator : String} {whole : List Predicate → Predicate}
    (hwhole : ∀ ns, (whole ns).written quote =
      enclosed (Template.join separator (writtenAll quote ns)))
    {members : List (List Chunk)} {ns : List Predicate} {n : Predicate}
    (hmembers : members.map (List.map (Chunk.piece quote)) = writtenAll quote ns)
    (hn : regroup whole ns = some n) :
    (Chunk.group separator members).map (Chunk.piece quote) = n.written quote := by
  rcases ns with _ | ⟨first, _ | ⟨next, more⟩⟩
  · exact absurd hn.symm (Option.some_ne_none n)
  · obtain rfl := Option.some.inj hn
    obtain ⟨cs, rest, rfl, hcs, hrest⟩ := List.map_eq_cons_iff.1 hmembers
    obtain rfl := List.map_eq_nil_iff.1 hrest
    exact hcs
  · obtain rfl := Option.some.inj hn
    have hlength := congrArg List.length hmembers
    rw [List.length_map, writtenAll, writtenAll, List.length_cons, List.length_cons] at hlength
    rw [hwhole, ← hmembers, map_group quote separator (by omega)]

mutual

/-- **The SQL of a predicate is its normal form in full.** -/
theorem template_eq_written : ∀ p n : Predicate, p.normal = some n →
    p.template quote = n.written quote
  | .and members, _, hn => by
      rw [template_eq_map, chunks_and]
      exact group_eq_written quote (fun _ => rfl) (chunksOf_eq_written members) hn
  | .or members, _, hn => by
      rw [template_eq_map, chunks_or]
      exact group_eq_written quote (fun _ => rfl) (chunksOf_eq_written members) hn
  | .not body, n, hn => by
      obtain ⟨inner, hinner, rfl⟩ := Option.map_eq_some_iff.1 hn
      have hbody : body.isEmpty = false := by
        rw [← normal_isNone, hinner]
        rfl
      have hwritten := template_eq_written body inner hinner
      rw [template_eq_map] at hwritten
      rw [template_eq_map, chunks_not, Chunk.negation, isBlank_chunks body hbody,
        if_neg Bool.false_ne_true, List.map_append, List.map_cons, hwritten]
      rfl
  | .compare .., _, hn => by
      obtain rfl := Option.some.inj hn
      rfl
  | .nullTest .., _, hn => by
      obtain rfl := Option.some.inj hn
      rfl
  | .oneOf .., _, hn => by
      obtain rfl := Option.some.inj hn
      rfl
  | .raw sql values, n, hn => by
      rw [normal] at hn
      split at hn
      · exact absurd hn.symm (Option.some_ne_none n)
      · obtain rfl := Option.some.inj hn
        rfl

/-- The sequences of members are their normal forms as written. -/
theorem chunksOf_eq_written : ∀ ps : List Predicate,
    (chunksOf ps).map (List.map (Chunk.piece quote)) = writtenAll quote (normals ps)
  | [] => rfl
  | p :: rest => by
      have hempty := normal_isNone p
      rw [chunksOf, normals]
      cases hn : p.normal with
      | none =>
          rw [hn] at hempty
          rw [if_pos (show p.isEmpty = true from hempty.symm), chunksOf_eq_written rest]
          rfl
      | some n =>
          rw [hn] at hempty
          rw [if_neg (show ¬p.isEmpty = true by rw [← hempty]; exact Bool.false_ne_true),
            List.map_cons, chunksOf_eq_written rest]
          exact congrArg (· :: _) (template_eq_written p n hn)

end

/-- A group with its parentheses is seen. -/
theorem visible_enclosed (t : Template) : (enclosed t).isInvisible = false := rfl

/-- What is seen of some members is seen of their group. -/
theorem visible_regroup {whole : List Predicate → Predicate}
    (hwhole : ∀ ns, ((whole ns).written quote).isInvisible = false)
    (hsubtrees : ∀ ns, (whole ns).subtrees = whole ns :: subtreesOf ns) {ns : List Predicate}
    (hns : ∀ s ∈ subtreesOf ns, (s.written quote).isInvisible = false) {n : Predicate}
    (hn : regroup whole ns = some n) :
    ∀ s ∈ n.subtrees, (s.written quote).isInvisible = false := by
  rcases ns with _ | ⟨first, _ | ⟨next, more⟩⟩
  · exact absurd hn.symm (Option.some_ne_none n)
  · obtain rfl := Option.some.inj hn
    exact fun s hs => hns s (List.mem_append_left _ hs)
  · obtain rfl := Option.some.inj hn
    rw [hsubtrees]
    exact List.forall_mem_cons.2 ⟨hwhole _, hns⟩

mutual

/-- **No part of a normal form is written as white space.** -/
theorem visible_written : ∀ p n : Predicate, p.normal = some n →
    ∀ s ∈ n.subtrees, (s.written quote).isInvisible = false
  | .and members, _, hn =>
      visible_regroup quote (fun _ => rfl) (fun _ => rfl) (visible_writtenAll members) hn
  | .or members, _, hn =>
      visible_regroup quote (fun _ => rfl) (fun _ => rfl) (visible_writtenAll members) hn
  | .not body, n, hn => by
      obtain ⟨inner, hinner, rfl⟩ := Option.map_eq_some_iff.1 hn
      exact List.forall_mem_cons.2 ⟨rfl, visible_written body inner hinner⟩
  | .compare left op right, _, hn => by
      obtain rfl := Option.some.inj hn
      intro s hs
      obtain rfl := List.mem_singleton.1 hs
      rw [written, template_eq_map]
      refine Template.isInvisible_of_mem (t := .text (" " ++ op.toSql ++ " ")) ?_ ?_
      · exact List.mem_cons_of_mem _ List.mem_cons_self
      · cases op <;> decide
  | .nullTest column negated, _, hn => by
      obtain rfl := Option.some.inj hn
      intro s hs
      obtain rfl := List.mem_singleton.1 hs
      rw [written, template_eq_map]
      refine Template.isInvisible_of_mem
        (t := .text (if negated then " IS NOT NULL" else " IS NULL")) ?_ ?_
      · exact List.mem_cons_of_mem _ List.mem_cons_self
      · cases negated <;> decide
  | .oneOf column values negated, _, hn => by
      obtain rfl := Option.some.inj hn
      intro s hs
      obtain rfl := List.mem_singleton.1 hs
      rw [written, template_eq_map]
      refine Template.isInvisible_of_mem
        (t := .text (if negated then " NOT IN (" else " IN (")) ?_ ?_
      · exact List.mem_cons_of_mem _ List.mem_cons_self
      · cases negated <;> decide
  | .raw sql values, n, hn => by
      rw [normal] at hn
      split at hn
      · exact absurd hn.symm (Option.some_ne_none n)
      · rename_i hblank
        obtain rfl := Option.some.inj hn
        intro s hs
        obtain rfl := List.mem_singleton.1 hs
        rw [written, template_raw]
        exact Template.isInvisible_ofRaw (by simpa using hblank) values

/-- Of each node in the normal forms of members something is seen. -/
theorem visible_writtenAll : ∀ ps : List Predicate,
    ∀ s ∈ subtreesOf (normals ps), (s.written quote).isInvisible = false
  | [], _, hs => absurd hs List.not_mem_nil
  | p :: rest, s, hs => by
      rw [normals] at hs
      cases hn : p.normal with
      | none =>
          rw [hn] at hs
          exact visible_writtenAll rest s hs
      | some n =>
          rw [hn] at hs
          rcases List.mem_append.1 hs with hs | hs
          · exact visible_written p n hn s hs
          · exact visible_writtenAll rest s hs

end

/-- The SQL of a predicate is that of a tree with all its parts, and none of these is
written as white space, wherever it stands. -/
structure Shown (d : Dialect) (p n : Predicate) : Prop where
  normal_eq : p.normal = some n
  template_eq : p.template d.quote = n.written d.quote
  visible : ∀ s ∈ n.subtrees, ∀ index,
    Text.allBlank (Template.sqlFrom d.placeholder index (s.written d.quote)) = false

/-- A predicate is one of its own subtrees. -/
theorem self_mem_subtrees (n : Predicate) : n ∈ n.subtrees := by
  cases n <;> exact List.mem_cons_self

/-- Something is left of a tree with content. -/
theorem exists_normal {p : Predicate} (h : p.isEmpty = false) : ∃ n, p.normal = some n := by
  refine Option.ne_none_iff_exists'.1 fun hn => ?_
  rw [← normal_isNone, hn] at h
  exact absurd h Bool.noConfusion

/-- **A predicate with content is shown.** -/
theorem exists_shown {d : Dialect} (hd : d.Visible) {p : Predicate} (h : p.isEmpty = false) :
    ∃ n, p.Shown d n := by
  obtain ⟨n, hn⟩ := exists_normal h
  refine ⟨n, hn, template_eq_written d.quote p n hn, fun s hs index => ?_⟩
  rw [Template.allBlank_sqlFrom hd.placeholder]
  exact visible_written d.quote p n hn s hs

/-- Of a predicate with content something is seen. -/
theorem visible_template {p : Predicate} (h : p.isEmpty = false) :
    (p.template quote).isInvisible = false := by
  obtain ⟨n, hn⟩ := exists_normal h
  rw [template_eq_written quote p n hn]
  exact visible_written quote p n hn n n.self_mem_subtrees

end Predicate

end BoundSql
