import BoundSql.Proofs.Predicate.Content
import BoundSql.Proofs.Predicate.Visible

/-!
# Predicates without content

Whether a predicate has content is asked before it is written: groups drop the members that
have none, and so do clauses.  A predicate with content is always seen, and one without
content is written as white space or as nothing, with one exception.  A negation looks at the
text of its body, not at its content, so a fragment of white space with negations around it
is written as `NOT ( )` (`Predicate.isInvisible_template`).  A checked predicate without
content has no values and binds none (`Predicate.blank_iff_isEmpty`).
-/

namespace BoundSql

/-- Blank raw SQL has no marker, so it is written as it is. -/
theorem Template.ofRaw_of_allBlank {sql : String} (h : Text.allBlank sql = true)
    (values : List Value) : ofRaw sql values = [.text sql] := by
  have hlength := Marker.length_segments sql
  rw [Predicate.count_of_allBlank h] at hlength
  obtain ⟨segment, hsegment⟩ := List.length_eq_one_iff.1 hlength
  obtain rfl := Marker.eq_of_segments_singleton hsegment
  rw [ofRaw, hsegment, Marker.fill, String.ofList_toList]

namespace Predicate

/-- A raw fragment of white space that is not empty, with any number of negations around
it. -/
def isSpace : Predicate → Bool
  | .raw sql _ => Text.allBlank sql && !sql.isEmpty
  | .not body => body.isSpace
  | _ => false

/-- White space with a negation around it. -/
def negatesSpace : Predicate → Bool
  | .not body => body.isSpace
  | _ => false

variable {quote : Char} {p : Predicate}

/-- White space has no marker to bind a value at. -/
theorem template_raw_of_allBlank {sql : String} (h : Text.allBlank sql = true)
    (values : List Value) : (raw sql values).template quote = [.text sql] :=
  (template_raw quote sql values).trans (Template.ofRaw_of_allBlank h values)

/-- The body of a negation is looked at as it is written. -/
theorem template_not (body : Predicate) : (not body).template quote =
    if (body.template quote).isBlank then [] else
      .text "NOT (" :: body.template quote ++ [.text ")"] := by
  rw [template_eq_map, chunks_not, Chunk.negation, template_eq_map, Chunk.isBlank_map_piece]
  split
  · rfl
  · rw [List.map_append]
    rfl

/-- A group without content is written as nothing. -/
theorem template_of_allEmpty {ps : List Predicate} (h : allEmpty ps = true) :
    (and ps).template quote = [] ∧ (or ps).template quote = [] := by
  rw [template_eq_map, template_eq_map, chunks_and, chunks_or, chunksOf_eq_nil ps h]
  exact ⟨rfl, rfl⟩

/-- Without content nothing is written, white space apart. -/
theorem isBlank_template_of_isEmpty : ∀ p : Predicate, p.isEmpty = true →
    (p.template quote).isBlank = !p.isSpace
  | .and members, h => by
      rw [(template_of_allEmpty h).1]
      rfl
  | .or members, h => by
      rw [(template_of_allEmpty h).2]
      rfl
  | .not body, h => by
      have hbody := isBlank_template_of_isEmpty body h
      rw [template_not, isSpace, ← hbody]
      cases hblank : (body.template quote).isBlank <;> rfl
  | .raw sql values, h => by
      have hblank : Text.allBlank sql = true := h
      rw [template_raw_of_allBlank hblank, isSpace, hblank]
      simp [Template.isBlank, Piece.isEmpty]
  | .compare .., h => absurd h (by simp [isEmpty])
  | .nullTest .., h => absurd h (by simp [isEmpty])
  | .oneOf .., h => absurd h (by simp [isEmpty])

/-- Of a predicate without content something is seen just where white space is negated. -/
theorem isInvisible_template_of_isEmpty (h : p.isEmpty = true) :
    (p.template quote).isInvisible = !p.negatesSpace := by
  cases p with
  | and members =>
      rw [(template_of_allEmpty h).1]
      rfl
  | or members =>
      rw [(template_of_allEmpty h).2]
      rfl
  | not body =>
      have hbody : (body.template quote).isBlank = !body.isSpace :=
        isBlank_template_of_isEmpty body h
      rw [template_not, negatesSpace, hbody]
      cases body.isSpace <;> rfl
  | raw sql values =>
      have hblank : Text.allBlank sql = true := h
      rw [template_raw_of_allBlank hblank]
      simp [Template.isInvisible, Piece.isInvisible, hblank, negatesSpace]
  | compare | nullTest | oneOf => exact absurd h (by simp [isEmpty])

/-- **What is seen has content, or is a negation around white space.** -/
theorem isInvisible_template (quote : Char) (p : Predicate) :
    (p.template quote).isInvisible = (p.isEmpty && !p.negatesSpace) := by
  cases h : p.isEmpty with
  | true => exact isInvisible_template_of_isEmpty h
  | false => exact visible_template quote h

/-- **Emptiness predicts the text.**  Where placeholders are not blank, the text of a
predicate is blank just when the predicate has no content and is no negation around white
space.  A checked predicate without content has no values, and none is bound. -/
theorem blank_iff_isEmpty (p : Predicate) (d : Dialect)
    (hd : ∀ index, Text.allBlank (d.placeholder.render index) = false) :
    (Text.allBlank (p.toSql d).sql = true ↔ p.isEmpty = true ∧ p.negatesSpace = false) ∧
      (p.isEmpty = true → p.validate = .ok () → p.values = [] ∧ (p.toSql d).params = []) := by
  refine ⟨?_, fun hempty hvalid => ?_⟩
  · have htemplate : p.toSql d = (p.template d.quote).emit d.placeholder :=
      p.layout.write_of_neverEmpty (Placeholder.neverEmpty_of_visible hd)
    rw [htemplate, Template.emit, Template.allBlank_sqlFrom hd, isInvisible_template,
      Bool.and_eq_true, Bool.not_eq_true']
  · have hfault := validate_eq_ok.1 hvalid
    have hvalues := values_eq_nil p hempty hfault
    exact ⟨hvalues, (params_toSql hfault d).trans hvalues⟩

/-- White space in groups, and groups without content in negations. -/
theorem blank_iff_isEmpty_nested :
    let p : Predicate := .or [.raw "\t" [], .not (.and [.not (.raw "\n" [])]), .not (.or [])]
    (∀ index, Text.allBlank (Dialect.postgres.placeholder.render index) = false) ∧
      Text.allBlank (p.toSql .postgres).sql = true ∧ (p.toSql .postgres).params = [] := by
  intro p
  have hd := (Dialect.visible_presets .postgres (by simp)).placeholder
  obtain ⟨hblank, hparams⟩ := blank_iff_isEmpty p .postgres hd
  exact ⟨hd, hblank.2 ⟨rfl, rfl⟩, (hparams rfl rfl).2⟩

/-- **A negation around white space is seen,** although it has no content. -/
theorem negated_space_seen :
    let p : Predicate := .not (.raw " " [])
    (∀ index, Text.allBlank (Dialect.mysql.placeholder.render index) = false) ∧
      p.validate = .ok () ∧ p.isEmpty = true ∧ (p.toSql .mysql).sql = "NOT ( )" ∧
        Text.allBlank (p.toSql .mysql).sql = false :=
  ⟨(Dialect.visible_presets .mysql (by simp)).placeholder, by decide⟩

end Predicate

end BoundSql
