import BoundSql.Clause.Columns
import BoundSql.Clause.Condition
import BoundSql.Proofs.Except
import BoundSql.Proofs.Template.Layout
import BoundSql.Proofs.Template.Markers

/-!
# Clauses without stray markers

A quoted identifier is passed over by a scan for markers whatever its parts are,
for each of the three quote characters of SQL: a doubled quote leaves the quoted
section and enters it again at once.  So a template made of pieces is plain if their
words are passed over, and the words of a predicate are if its raw fragments leave
their quoted sections and have a value for every marker.  So are the words of the
clauses made from predicates.
-/

namespace BoundSql

namespace Identifier

/-- The inside of a quoted part, with the quote that ends it. -/
theorem passes_inside {quote : Char} (hquote : Quoting.opens quote = true) (cs : List Char)
    {rest : List Char} (hrest : Marker.passes none rest = true) :
    Marker.passes (some quote)
      (cs.flatMap (fun c => if c = quote then [quote, quote] else [c]) ++ quote :: rest) =
      true := by
  have hmark : quote ≠ '?' := by rintro rfl; exact absurd hquote (by decide)
  induction cs with
  | nil => simpa [Marker.passes, Quoting.after] using hrest
  | cons c cs ih =>
      rw [List.flatMap_cons]
      split
      · simpa [Marker.passes, Quoting.after, hquote, hmark] using ih
      · rename_i hc
        simpa [Marker.passes, Quoting.after, hc] using ih

/-- A part of an identifier is passed over, since quotes enclose all of it. -/
theorem passes_quotePart {quote : Char} (hquote : Quoting.opens quote = true) (part : String)
    {rest : List Char} (hrest : Marker.passes none rest = true) :
    Marker.passes none (quotePart quote part ++ rest) = true := by
  have hmark : quote ≠ '?' := by rintro rfl; exact absurd hquote (by decide)
  rw [quotePart, List.cons_append, List.cons_append, List.append_assoc, List.singleton_append,
    Marker.passes_cons]
  refine ⟨fun h => hmark h.2, ?_⟩
  rw [show Quoting.after none quote = some quote by simp [Quoting.after, hquote]]
  exact passes_inside hquote part.toList hrest

/-- **A scan for markers passes over every identifier.** -/
theorem passes_toSql {quote : Char} (hquote : Quoting.opens quote = true) (i : Identifier) :
    Marker.passes none (i.toSql quote).toList = true := by
  rw [toSql, String.toList_ofList]
  generalize i.parts = parts
  induction parts with
  | nil => rfl
  | cons part rest ih =>
      cases rest with
      | nil =>
          rw [quoteParts, ← List.append_nil (quotePart quote part)]
          exact passes_quotePart hquote part rfl
      | cons next more =>
          rw [quoteParts]
          · refine passes_quotePart hquote part (Marker.passes_cons.2 ⟨by decide, ?_⟩)
            rw [show Quoting.after none '.' = none by decide]
            exact ih
          · exact List.cons_ne_nil _ _

/-- An identifier in front of a template leaves it plain. -/
theorem plain_toSql {quote : Char} (hquote : Quoting.opens quote = true) (i : Identifier)
    {t : Template} : Template.Plain (.text (i.toSql quote) :: t) ↔ t.Plain := by
  simp [Template.plain_text, passes_toSql hquote i]

end Identifier

namespace Chunk

/-- **A template made of pieces is plain** if their words are passed over. -/
theorem plain_map_piece {quote : Char} (hquote : Quoting.opens quote = true) {cs : List Chunk}
    (h : ∀ s, .word s ∈ cs → Marker.passes none s.toList = true) :
    Template.Plain (cs.map (piece quote)) := by
  intro s hs
  obtain ⟨c, hc, hpiece⟩ := List.mem_map.1 hs
  cases c with
  | word t =>
      obtain rfl := Piece.text.inj hpiece
      exact h t hc
  | column name =>
      obtain rfl := Piece.text.inj hpiece
      exact Identifier.passes_toSql hquote name
  | bind v => exact absurd hpiece (by simp [piece])

end Chunk

namespace Predicate

mutual

/-- The raw fragments of a predicate, from left to right. -/
def rawTexts : Predicate → List String
  | .and members => rawTextsOf members
  | .or members => rawTextsOf members
  | .not body => body.rawTexts
  | .raw sql _ => [sql]
  | _ => []

def rawTextsOf : List Predicate → List String
  | [] => []
  | p :: rest => p.rawTexts ++ rawTextsOf rest

end

/-- A checked raw fragment has a value for every marker. -/
theorem count_of_rawFault? {sql : String} {values : List Value}
    (h : rawFault? sql values = none) : Marker.count sql = values.length := by
  rw [rawFault?] at h
  split at h
  · assumption
  · exact absurd h (by simp)

/-- A predicate is accepted just when it has no fault. -/
theorem validate_eq_ok {p : Predicate} : p.validate = .ok () ↔ p.fault? = none := by
  rw [validate]
  cases p.fault? <;> simp

/-- Members are without a fault if each of them is. -/
theorem firstFault?_cons {p : Predicate} {rest : List Predicate} :
    firstFault? (p :: rest) = none ↔ p.fault? = none ∧ firstFault? rest = none := by
  rw [firstFault?]
  cases p.fault? <;> simp

/-- The only word of a comparison is its operator. -/
theorem words_compare (left : Operand) (op : Comparison) (right : Operand) :
    (compare left op right).layout.words = [" " ++ op.toSql ++ " "] := by
  cases left <;> cases right <;> rfl

/-- No operator is a marker. -/
theorem passes_comparison (op : Comparison) :
    Marker.passes none (" " ++ op.toSql ++ " ").toList = true := by
  cases op <;> rfl

/-- The words of raw SQL are its texts between the markers. -/
theorem passes_ofRaw {sql : String} {values : List Value}
    (hcount : Marker.count sql = values.length) (hclosed : Quoting.Closed sql) {s : String}
    (hs : .word s ∈ Chunk.ofRaw sql values) : Marker.passes none s.toList = true := by
  obtain ⟨piece, hpiece, hword⟩ := List.mem_map.1 hs
  cases piece with
  | text t =>
      obtain rfl := Chunk.word.inj hword
      exact Template.plain_ofRaw hcount hclosed t hpiece
  | bind v => exact absurd hword (by simp [Chunk.ofPiece])

mutual

/-- **The words of a checked predicate are passed over** if its raw fragments leave their
quoted sections. -/
theorem passes_words : ∀ p : Predicate, p.fault? = none → (∀ s ∈ p.rawTexts, Quoting.Closed s) →
    ∀ s ∈ p.layout.words, Marker.passes none s.toList = true
  | .and members, hf, hc => by
      rw [layout, Layout.words]
      simp only [List.forall_mem_cons]
      exact ⟨rfl, rfl, rfl, passes_wordsOf members hf hc⟩
  | .or members, hf, hc => by
      rw [layout, Layout.words]
      simp only [List.forall_mem_cons]
      exact ⟨rfl, rfl, rfl, passes_wordsOf members hf hc⟩
  | .not body, hf, hc => by
      rw [layout, Layout.words, List.cons_append, List.forall_mem_cons, List.forall_mem_append]
      exact ⟨rfl, passes_words body hf hc, List.forall_mem_singleton.2 rfl⟩
  | .compare left op right, _, _ => by
      rw [words_compare]
      exact List.forall_mem_singleton.2 (passes_comparison op)
  | .nullTest column negated, _, _ => by
      cases negated <;> exact List.forall_mem_singleton.2 rfl
  | .oneOf column values negated, _, _ => by
      intro s hs
      have hc := Layout.mem_words_chunks.1 hs
      rw [List.mem_append, List.mem_cons, List.mem_cons, List.mem_singleton] at hc
      rcases hc with (hc | hc | hc) | hc
      · exact absurd hc (by simp)
      · rw [Chunk.word.inj hc]
        cases negated <;> rfl
      · rw [Chunk.eq_of_mem_join_binds hc]
        rfl
      · rw [Chunk.word.inj hc]
        rfl
  | .raw sql values, hf, hc => by
      intro s hs
      exact passes_ofRaw (count_of_rawFault? hf) (hc sql (by simp [rawTexts]))
        (Layout.mem_words_chunks.1 hs)

/-- The words of members leave no quote open and have no marker but those of raw SQL. -/
theorem passes_wordsOf : ∀ members : List Predicate, firstFault? members = none →
    (∀ s ∈ rawTextsOf members, Quoting.Closed s) →
      ∀ s ∈ Layout.wordsOf (memberLayouts members), Marker.passes none s.toList = true
  | [], _, _, _, hs => absurd hs List.not_mem_nil
  | p :: rest, hf, hc, s, hs => by
      obtain ⟨hp, hf⟩ := firstFault?_cons.1 hf
      obtain ⟨hcp, hc⟩ := List.forall_mem_append.1 hc
      rw [memberLayouts] at hs
      split at hs
      · exact passes_wordsOf rest hf hc s hs
      · rcases List.mem_append.1 hs with hs | hs
        · exact passes_words p hp hcp s hs
        · exact passes_wordsOf rest hf hc s hs

end

/-- The raw SQL of a member is raw SQL of the group. -/
theorem rawTexts_subset {p : Predicate} {ps : List Predicate} (hp : p ∈ ps) :
    ∀ s ∈ p.rawTexts, s ∈ rawTextsOf ps := by
  induction ps with
  | nil => exact absurd hp List.not_mem_nil
  | cons head rest ih =>
      intro s hs
      rw [rawTextsOf]
      rcases List.mem_cons.1 hp with rfl | hp
      · exact List.mem_append_left _ hs
      · exact List.mem_append_right _ (ih hp s hs)

/-- The words of a checked condition among others are passed over. -/
theorem passes_isolated {p : Predicate} (hf : p.fault? = none)
    (hc : ∀ s ∈ p.rawTexts, Quoting.Closed s) :
    ∀ s ∈ p.isolatedLayout.words, Marker.passes none s.toList = true := by
  cases p with
  | raw sql values =>
      intro s hs
      have hmem := Layout.mem_words_chunks.1 hs
      rw [List.mem_append, List.mem_cons, List.mem_singleton] at hmem
      rcases hmem with (hmem | hmem) | hmem
      · rw [Chunk.word.inj hmem]
        rfl
      · exact passes_ofRaw (count_of_rawFault? hf) (hc sql (by simp [rawTexts])) hmem
      · rw [Chunk.word.inj hmem]
        rfl
  | _ => exact passes_words _ hf hc

/-- The words of checked conditions joined by AND are passed over. -/
theorem passes_conjunction {ps : List Predicate} (hf : ∀ p ∈ ps, p.fault? = none)
    (hc : ∀ s ∈ rawTextsOf ps, Quoting.Closed s) :
    ∀ s ∈ (conjunction ps).words, Marker.passes none s.toList = true := by
  have hmember : ∀ p ∈ ps, ∀ s ∈ p.rawTexts, Quoting.Closed s :=
    fun p hp s hs => hc s (rawTexts_subset hp s hs)
  unfold conjunction
  split
  · rename_i only
    exact passes_words only (hf only List.mem_cons_self) (hmember only List.mem_cons_self)
  · rw [Layout.words]
    simp only [List.forall_mem_cons]
    refine ⟨rfl, rfl, rfl, fun s hs => ?_⟩
    obtain ⟨l, hl, hs⟩ := Layout.mem_wordsOf_iff.1 hs
    obtain ⟨p, hp, rfl⟩ := List.mem_map.1 hl
    exact passes_isolated (hf p hp) (hmember p hp) s hs

end Predicate

namespace ColumnClause

/-- The raw fragments of a clause. -/
def rawTexts : ColumnClause → List String
  | .columns _ => []
  | .raw sql _ => [sql]
  | .predicate p _ => p.rawTexts

/-- Every raw fragment of a clause has as many values as markers. -/
def MarkersFit : ColumnClause → Prop
  | .columns _ => True
  | .raw sql values => Marker.count sql = values.length
  | .predicate p _ => p.fault? = none

/-- The words of a checked clause are passed over. -/
theorem passes_words {c : ColumnClause} (hf : c.MarkersFit)
    (hc : ∀ s ∈ c.rawTexts, Quoting.Closed s) :
    ∀ s ∈ c.layout.words, Marker.passes none s.toList = true := by
  have hdirection : ∀ (direction? : Option Direction) (s : String),
      .word s ∈ directionChunks direction? → Marker.passes none s.toList = true := by
    intro direction? s hs
    cases direction? with
    | none => exact absurd hs List.not_mem_nil
    | some d =>
        obtain rfl := Chunk.word.inj (List.mem_singleton.1 hs)
        cases d <;> rfl
  cases c with
  | columns items =>
      intro s hs
      rcases Chunk.mem_join (Layout.mem_words_chunks.1 hs) with rfl | ⟨cs, hcs, hmem⟩
      · rfl
      · obtain ⟨item, -, rfl⟩ := List.mem_map.1 hcs
        rcases List.mem_cons.1 hmem with hmem | hmem
        · exact absurd hmem (by simp)
        · exact hdirection item.direction? s hmem
  | raw sql values =>
      intro s hs
      exact Predicate.passes_ofRaw hf (hc sql (by simp [rawTexts])) (Layout.mem_words_chunks.1 hs)
  | predicate p direction? =>
      rw [layout, Layout.words, List.forall_mem_append]
      exact ⟨Predicate.passes_words p hf hc, fun s hs =>
        hdirection direction? s (Layout.mem_words_chunks.1 hs)⟩

/-- A clause that was accepted has a value for every marker. -/
theorem markersFit_of_validate {clause : String} {c : ColumnClause}
    (h : c.validate clause = .ok ()) : c.MarkersFit := by
  cases c with
  | columns items => trivial
  | raw sql values =>
      have hf := Predicate.validate_eq_ok.1 (mapError_eq_ok.1 h)
      rw [Predicate.fault?] at hf
      exact Predicate.count_of_rawFault? hf
  | predicate p direction? => exact Predicate.validate_eq_ok.1 (mapError_eq_ok.1 h)

end ColumnClause

end BoundSql
