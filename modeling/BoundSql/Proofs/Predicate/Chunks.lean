import BoundSql.Proofs.Predicate.Markers
import BoundSql.Proofs.Template.Layout

/-!
# What a predicate is written as

Where every placeholder has a text, a predicate is written as a sequence of words of SQL,
columns and bound values (`Predicate.chunks`), one equation for each form of predicate.  No
member with content is written as nothing, so a group in parentheses has as many members as
the tree has members with content.
-/

namespace BoundSql

namespace Chunk

/-- The negation of a sequence with content. -/
def negation (body : List Chunk) : List Chunk :=
  if isBlank body then [] else .word "NOT (" :: body ++ [.word ")"]

/-- Quoting identifiers neither adds content nor takes it away. -/
theorem isBlank_map_piece (quote : Char) (cs : List Chunk) :
    Template.isBlank (cs.map (piece quote)) = isBlank cs := by
  rw [Template.isBlank, List.all_map, isBlank]
  refine congrArg cs.all (funext fun c => ?_)
  cases c with
  | word s => rfl
  | column name => simp [piece, Piece.isEmpty, Identifier.toSql_ne]
  | bind v => rfl

/-- Quoting identifiers leaves the words between the members. -/
theorem map_join (quote : Char) (separator : String) (members : List (List Chunk)) :
    (join separator members).map (piece quote) =
      Template.join separator (members.map (List.map (piece quote))) := by
  induction members with
  | nil => rfl
  | cons cs rest ih =>
      cases rest with
      | nil => rfl
      | cons next more =>
          rw [join_cons (List.cons_ne_nil _ _), List.map_append, List.map_cons, ih]
          rfl

/-- A group of members with content has content. -/
theorem isBlank_group {separator : String} {members : List (List Chunk)} (hne : members ≠ [])
    (h : ∀ cs ∈ members, isBlank cs = false) : isBlank (group separator members) = false := by
  rcases members with _ | ⟨cs, _ | ⟨next, more⟩⟩
  · exact absurd rfl hne
  · exact h cs List.mem_cons_self
  · rfl

/-- What is negated is written with a word and parentheses, so it is not blank. -/
theorem isBlank_negation {body : List Chunk} (h : isBlank body = false) :
    isBlank (negation body) = false := by
  rw [negation, h]
  rfl

/-- Raw SQL with content is not blank, however many markers it has. -/
theorem isBlank_ofRaw {sql : String} (h : Text.allBlank sql = false) (values : List Value) :
    isBlank (ofRaw sql values) = false := by
  rw [ofRaw, Template.ofRaw]
  rcases hsegments : Marker.segments none sql.toList with _ | ⟨segment, _ | ⟨next, more⟩⟩
  · exact absurd hsegments (Marker.segments_ne_nil none sql.toList)
  · obtain rfl := Marker.eq_of_segments_singleton hsegments
    have hne : sql ≠ "" := by
      rintro rfl
      exact absurd h (by decide)
    rw [Marker.fill, String.ofList_toList]
    simpa [isBlank, ofPiece] using hne
  · cases values <;> simp [Marker.fill, isBlank, ofPiece]

/-- After a column there is a word or nothing. -/
inductive Separated : List Chunk → Prop
  | nil : Separated []
  | word {cs : List Chunk} (s : String) (h : Separated cs) : Separated (.word s :: cs)
  | bind {cs : List Chunk} (v : Value) (h : Separated cs) : Separated (.bind v :: cs)
  | last (name : Identifier) : Separated [.column name]
  | column {cs : List Chunk} (name : Identifier) {s : String} (h : Separated (.word s :: cs)) :
      Separated (.column name :: .word s :: cs)

/-- A word between them keeps two separated sequences separated. -/
theorem Separated.append_word {cs ds : List Chunk} (hc : Separated cs) (s : String)
    (hd : Separated ds) : Separated (cs ++ .word s :: ds) := by
  induction hc with
  | nil => exact .word s hd
  | word t _ ih => exact .word t ih
  | bind v _ ih => exact .bind v ih
  | last name => exact .column name (.word s hd)
  | column name _ ih => exact .column name ih

/-- Joined sequences are separated if each is, for a word stands between them. -/
theorem separated_join (separator : String) {members : List (List Chunk)}
    (h : ∀ cs ∈ members, Separated cs) : Separated (join separator members) := by
  induction members with
  | nil => exact .nil
  | cons cs rest ih =>
      have hcs := h cs (by simp)
      cases rest with
      | nil => exact hcs
      | cons next more =>
          rw [join_cons (List.cons_ne_nil _ _)]
          exact hcs.append_word separator (ih fun ds hds => h ds (List.mem_cons_of_mem cs hds))

/-- Grouped sequences are separated if each is. -/
theorem separated_group (separator : String) {members : List (List Chunk)}
    (h : ∀ cs ∈ members, Separated cs) : Separated (group separator members) := by
  rcases members with _ | ⟨cs, _ | ⟨next, more⟩⟩
  · exact .nil
  · exact h cs (by simp)
  · exact .word "(" ((separated_join separator h).append_word ")" .nil)

/-- Words around a separated sequence keep it separated. -/
theorem separated_negation {body : List Chunk} (h : Separated body) :
    Separated (negation body) := by
  rw [negation]
  split
  · exact .nil
  · exact .word "NOT (" (h.append_word ")" .nil)

/-- A single operand is separated from nothing. -/
theorem separated_ofOperand {o : Operand} : Separated [ofOperand o] := by
  cases o with
  | column name => exact .last name
  | value v => exact .bind v .nil

end Chunk

namespace Predicate

/-- What a predicate is written as, if every placeholder has a text. -/
def chunks (p : Predicate) : List Chunk := p.layout.full

/-- What the members that have content are written as. -/
def chunksOf : List Predicate → List (List Chunk)
  | [] => []
  | p :: rest => if p.isEmpty then chunksOf rest else p.chunks :: chunksOf rest

/-- Members without content have no sequence. -/
theorem chunksOf_eq_filter (ps : List Predicate) :
    chunksOf ps = (ps.filter (!·.isEmpty)).map chunks := by
  induction ps with
  | nil => rfl
  | cons p rest ih =>
      rw [chunksOf, ih]
      split <;> rename_i hp
      · rw [List.filter_cons_of_neg (by simp [hp])]
      · rw [List.filter_cons_of_pos (by simp [hp]), List.map_cons]

/-- In full the members are written as their sequences. -/
theorem map_full_memberLayouts (ps : List Predicate) :
    (memberLayouts ps).map Layout.full = chunksOf ps := by
  induction ps with
  | nil => rfl
  | cons p rest ih =>
      rw [memberLayouts, chunksOf]
      split
      · exact ih
      · rw [List.map_cons, ih]
        rfl

/-! ## Content -/

/-- Where a member has content, there is a sequence. -/
theorem chunksOf_ne_nil {ps : List Predicate} (h : allEmpty ps = false) : chunksOf ps ≠ [] := by
  induction ps with
  | nil => simp [allEmpty] at h
  | cons p rest ih =>
      rw [chunksOf]
      split
      · rename_i hp
        exact ih (by simpa [allEmpty, hp] using h)
      · exact List.cons_ne_nil _ _

/-- A group is written with all of its members, if none of them is blank. -/
theorem full_group (separator : String) {members : List Predicate}
    (h : ∀ cs ∈ chunksOf members, Chunk.isBlank cs = false) :
    (Layout.joined true separator (memberLayouts members)).full =
      Chunk.group separator (chunksOf members) := by
  rw [Layout.full_joined, map_full_memberLayouts,
    List.filter_eq_self.2 fun cs hcs => by rw [h cs hcs]; rfl]
  rfl

/-- A negation is written as the negation of its body. -/
theorem chunks_not (body : Predicate) : (not body).chunks = Chunk.negation body.chunks :=
  Layout.full_framed "NOT (" body.layout (some ")")

mutual

/-- **What has content is not written as nothing.** -/
theorem isBlank_chunks : ∀ p : Predicate, p.isEmpty = false → Chunk.isBlank p.chunks = false
  | .and members, h => by
      have hmembers := isBlank_chunksOf members
      rw [chunks, layout, full_group " AND " hmembers]
      exact Chunk.isBlank_group (chunksOf_ne_nil h) hmembers
  | .or members, h => by
      have hmembers := isBlank_chunksOf members
      rw [chunks, layout, full_group " OR " hmembers]
      exact Chunk.isBlank_group (chunksOf_ne_nil h) hmembers
  | .not body, h => by
      rw [chunks_not]
      exact Chunk.isBlank_negation (isBlank_chunks body h)
  | .compare left op right, _ => by
      cases left <;> cases op <;> rfl
  | .nullTest column negated, _ => rfl
  | .oneOf column values negated, _ => rfl
  | .raw sql values, h => Chunk.isBlank_ofRaw h values

/-- No sequence of a member is blank. -/
theorem isBlank_chunksOf : ∀ ps : List Predicate, ∀ cs ∈ chunksOf ps, Chunk.isBlank cs = false
  | [], _, hcs => absurd hcs List.not_mem_nil
  | p :: rest, cs, hcs => by
      rw [chunksOf] at hcs
      split at hcs
      · exact isBlank_chunksOf rest cs hcs
      · rename_i hp
        rcases List.mem_cons.1 hcs with rfl | hcs
        · exact isBlank_chunks p (by simpa using hp)
        · exact isBlank_chunksOf rest cs hcs

end

/-- A conjunction groups the sequences of its members. -/
theorem chunks_and (members : List Predicate) :
    (and members).chunks = Chunk.group " AND " (chunksOf members) :=
  full_group " AND " (isBlank_chunksOf members)

/-- A disjunction groups the sequences of its members. -/
theorem chunks_or (members : List Predicate) :
    (or members).chunks = Chunk.group " OR " (chunksOf members) :=
  full_group " OR " (isBlank_chunksOf members)

/-! ## Pieces -/

/-- Finished pieces are quoted as they are. -/
theorem map_ofPiece (quote : Char) (t : Template) :
    (t.map Chunk.ofPiece).map (Chunk.piece quote) = t := by
  rw [List.map_map]
  refine (List.map_congr_left fun piece _ => ?_).trans (List.map_id t)
  cases piece <;> rfl

/-- A template is the quoted chunks. -/
theorem template_eq_map (quote : Char) (p : Predicate) :
    p.template quote = p.chunks.map (Chunk.piece quote) := rfl

/-- Raw SQL is its own template, whatever the quote character. -/
theorem template_raw (quote : Char) (sql : String) (values : List Value) :
    (raw sql values).template quote = Template.ofRaw sql values := map_ofPiece quote _

end Predicate

end BoundSql
