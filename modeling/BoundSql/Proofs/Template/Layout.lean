import BoundSql.Template.Layout

/-!
# What is written of a layout

What is left out of a layout are words: every bound value stays, in its place
(`Layout.values_resolve`), and so does every identifier under a sight that does not overlook
one (`Layout.columns_resolve`).  A sight is asked about the optional parts alone, so two
sights that agree on them resolve a layout to the same sequence
(`Layout.resolve_eq_full`).  Under a dialect without empty placeholders every part is seen
that is not blank, and the layout is written as its template (`Layout.write_of_neverEmpty`).
So it is under every dialect if each of its parts is blank or brings a text of its own
(`Layout.write_of_settled`).
-/

namespace BoundSql

namespace Chunk

/-- The identifier of a piece. -/
def column? : Chunk → Option Identifier
  | .column name => some name
  | _ => none

/-- The text of a word. -/
def word? : Chunk → Option String
  | .word s => some s
  | _ => none

/-- The identifiers in order. -/
def columns (cs : List Chunk) : List Identifier := cs.filterMap column?

/-- Sequences as a group, in parentheses if there are several. -/
def group (separator : String) : List (List Chunk) → List Chunk
  | [] => []
  | [only] => only
  | several => .word "(" :: join separator several ++ [.word ")"]

/-- Two sequences are blank together if each is. -/
theorem isBlank_append (cs ds : List Chunk) : isBlank (cs ++ ds) = (isBlank cs && isBlank ds) :=
  List.all_append

/-- In front of others a sequence is followed by the separator. -/
theorem join_cons {separator : String} {cs : List Chunk} {rest : List (List Chunk)}
    (h : rest ≠ []) :
    join separator (cs :: rest) = cs ++ .word separator :: join separator rest := by
  cases rest with
  | nil => exact absurd rfl h
  | cons next more => rfl

/-- From two sequences on a group has parentheses. -/
theorem group_cons_cons (separator : String) (cs next : List Chunk) (more : List (List Chunk)) :
    group separator (cs :: next :: more) =
      .word "(" :: join separator (cs :: next :: more) ++ [.word ")"] := rfl

/-- Whatever words do not have, a blank sequence has not. -/
theorem filterMap_of_isBlank {β : Type} {f : Chunk → Option β} (hf : ∀ s, f (.word s) = none)
    {cs : List Chunk} (h : isBlank cs = true) : cs.filterMap f = [] := by
  refine List.filterMap_eq_nil_iff.2 fun c hc => ?_
  have hword := List.all_eq_true.1 h c hc
  cases c with
  | word s => exact hf s
  | _ => simp at hword

/-- Bound values are the values that they bind. -/
theorem values_map_bind (vs : List Value) : values (vs.map .bind) = vs := by
  rw [values, List.filterMap_map]
  exact List.filterMap_some

/-- What words do not have is what the members have. -/
theorem filterMap_join {β : Type} {f : Chunk → Option β} (hf : ∀ s, f (.word s) = none)
    (separator : String) (members : List (List Chunk)) :
    (join separator members).filterMap f = members.flatMap (List.filterMap f) := by
  induction members with
  | nil => rfl
  | cons cs rest ih =>
      cases rest with
      | nil => simp [join]
      | cons next more =>
          rw [join_cons (List.cons_ne_nil _ _), List.filterMap_append,
            List.filterMap_cons_none (hf separator), ih, List.flatMap_cons (x := cs)]

/-- A word of joined sequences is the separator or a word of one of them. -/
theorem mem_join {separator : String} {members : List (List Chunk)} {s : String}
    (h : .word s ∈ join separator members) : s = separator ∨ ∃ cs ∈ members, .word s ∈ cs := by
  induction members with
  | nil => exact absurd h List.not_mem_nil
  | cons cs rest ih =>
      cases rest with
      | nil => exact .inr ⟨cs, by simp, h⟩
      | cons next more =>
          rw [join_cons (List.cons_ne_nil _ _), List.mem_append, List.mem_cons] at h
          rcases h with h | h | h
          · exact .inr ⟨cs, by simp, h⟩
          · exact .inl (Chunk.word.inj h)
          · exact (ih h).imp_right fun ⟨ds, hds, hs⟩ => ⟨ds, List.mem_cons_of_mem cs hds, hs⟩

/-- Bound values have no words between them but the separator. -/
theorem eq_of_mem_join_binds {separator : String} {values : List Value} {s : String}
    (h : .word s ∈ join separator (values.map fun v => [.bind v])) : s = separator := by
  refine (mem_join h).resolve_right ?_
  rintro ⟨cs, hcs, hs⟩
  obtain ⟨v, -, rfl⟩ := List.mem_map.1 hcs
  simp at hs

end Chunk

/-! ## What stays -/

namespace Placed

variable {β : Type} {f : Chunk → Option β}

/-- A part keeps whatever is none of its words. -/
def Keeps (f : Chunk → Option β) (p : Placed) : Prop :=
  p.kept.filterMap f = p.chunks.filterMap f

/-- A part that is not seen is left out but for its values. -/
theorem keeps_value (p : Placed) : p.Keeps Chunk.value? := by
  rw [Keeps, kept]
  split
  · rfl
  · exact Chunk.values_map_bind _

/-- A frame adds words and nothing else. -/
theorem filterMap_framed (hf : ∀ s, f (.word s) = none) {p : Placed} (hp : p.Keeps f)
    (before : String) (after? : Option String) :
    (p.framed before after?).filterMap f = p.chunks.filterMap f := by
  rw [framed]
  split
  · cases after? <;> simp [hf]
  · exact hp

/-- Separators are words, so they add nothing to what the parts keep. -/
theorem filterMap_separate (hf : ∀ s, f (.word s) = none) {ps : List Placed}
    (hps : ∀ p ∈ ps, p.Keeps f) (separator : String) (started : Bool) :
    (separate separator started ps).filterMap f = ps.flatMap fun p => p.chunks.filterMap f := by
  induction ps generalizing started with
  | nil => rfl
  | cons p rest ih =>
      obtain ⟨hp, hrest⟩ := List.forall_mem_cons.1 hps
      rw [separate, List.filterMap_append, ih hrest, List.flatMap_cons]
      refine congrArg (· ++ _) ?_
      split
      · rw [List.filterMap_cons_none (hf separator)]
        exact hp
      · exact hp

/-- Parentheses and separators are words, so they add nothing to what the parts keep. -/
theorem filterMap_gather (hf : ∀ s, f (.word s) = none) {ps : List Placed}
    (hps : ∀ p ∈ ps, p.Keeps f) (enclosed : Bool) (separator : String) :
    (gather enclosed separator ps).filterMap f = ps.flatMap fun p => p.chunks.filterMap f := by
  rw [gather]
  split
  · rw [List.filterMap_append, List.filterMap_cons_none (hf "("),
      List.filterMap_cons_none (hf ")"), List.filterMap_nil, List.append_nil,
      filterMap_separate hf hps]
  · exact filterMap_separate hf hps separator false

end Placed

namespace Layout

/-- The identifiers in order. -/
def columns (l : Layout) : List Identifier := Chunk.columns l.leaves

section Keeping

variable {β : Type} {f : Chunk → Option β} {seen : Sight}

mutual

/-- **What is none of the words stays,** if the parts that are not seen keep it. -/
theorem filterMap_resolve (hf : ∀ s, f (.word s) = none)
    (hkeeps : ∀ index cs, (Placed.mk cs (seen index cs)).Keeps f) :
    ∀ (l : Layout) (index : Nat), (l.resolve seen index).filterMap f = l.leaves.filterMap f
  | .chunks _, _ => rfl
  | .append first second, index => by
      rw [resolve, leaves, List.filterMap_append, List.filterMap_append,
        filterMap_resolve hf hkeeps first, filterMap_resolve hf hkeeps second]
  | .framed before body after?, index => by
      rw [resolve, leaves, Placed.filterMap_framed hf (hkeeps index _),
        filterMap_resolve hf hkeeps body]
  | .joined enclosed separator members, index => by
      have hparts := parts_keeps hf hkeeps members index
      rw [resolve, leaves, Placed.filterMap_gather hf hparts.1, hparts.2]

/-- The same for the members of a layout, each behind the values of those in front. -/
theorem parts_keeps (hf : ∀ s, f (.word s) = none)
    (hkeeps : ∀ index cs, (Placed.mk cs (seen index cs)).Keeps f) :
    ∀ (ls : List Layout) (index : Nat), (∀ p ∈ parts seen index ls, p.Keeps f) ∧
      ((parts seen index ls).flatMap fun p => p.chunks.filterMap f) = (leavesOf ls).filterMap f
  | [], _ => ⟨fun _ hp => absurd hp List.not_mem_nil, rfl⟩
  | l :: rest, index => by
      have hrest := parts_keeps hf hkeeps rest (index + l.values.length)
      rw [parts, List.forall_mem_cons, List.flatMap_cons, leavesOf, List.filterMap_append]
      refine ⟨⟨hkeeps index _, hrest.1⟩, ?_⟩
      rw [hrest.2]
      exact congrArg (· ++ _) (filterMap_resolve hf hkeeps l index)

end

end Keeping

/-- **No value is lost,** whatever is seen. -/
theorem values_resolve (seen : Sight) (l : Layout) (index : Nat) :
    Chunk.values (l.resolve seen index) = l.values :=
  filterMap_resolve (fun _ => rfl) (fun _ _ => Placed.keeps_value _) l index

/-- **No identifier is lost** under a sight that overlooks none. -/
theorem columns_resolve {seen : Sight}
    (hseen : ∀ index cs, seen index cs = false → Chunk.columns cs = []) (l : Layout)
    (index : Nat) : Chunk.columns (l.resolve seen index) = l.columns := by
  refine filterMap_resolve (fun _ => rfl) (fun index cs => ?_) l index
  rw [Placed.Keeps, Placed.kept]
  split
  · rfl
  · rename_i hunseen
    have hcolumns := hseen index cs (Bool.eq_false_iff.2 hunseen)
    rw [List.filterMap_map]
    exact (List.filterMap_eq_nil_iff.2 fun _ _ => rfl).trans hcolumns.symm

end Layout

/-! ## Layouts whose placeholders all have a text -/

namespace Placed

/-- A sequence of which something is seen if it is not blank. -/
def ofChunks (cs : List Chunk) : Placed := ⟨cs, !Chunk.isBlank cs⟩

/-- Nothing is left of a blank part. -/
theorem kept_ofChunks_of_isBlank {cs : List Chunk} (h : Chunk.isBlank cs = true) :
    (ofChunks cs).kept = [] := by
  rw [kept, ofChunks, h, Chunk.values, Chunk.filterMap_of_isBlank (fun _ => rfl) h]
  rfl

/-- A frame stands around a part that is not blank, and goes with one that is. -/
theorem framed_ofChunks (before : String) (after? : Option String) (cs : List Chunk) :
    (ofChunks cs).framed before after? =
      if Chunk.isBlank cs then [] else .word before :: cs ++ after?.toList.map .word := by
  cases h : Chunk.isBlank cs with
  | true =>
      rw [framed, kept_ofChunks_of_isBlank h, ofChunks, h]
      rfl
  | false =>
      rw [framed, ofChunks, h]
      rfl

/-- The parts that are not blank are joined, behind a separator if something stands in front. -/
theorem separate_ofChunks (separator : String) (started : Bool) (members : List (List Chunk)) :
    let kept := members.filter (!Chunk.isBlank ·)
    separate separator started (members.map ofChunks) =
      if started && !kept.isEmpty then .word separator :: Chunk.join separator kept
      else Chunk.join separator kept := by
  intro kept
  induction members generalizing started with
  | nil => cases started <;> rfl
  | cons cs rest ih =>
      rw [List.map_cons, separate, ih]
      cases h : Chunk.isBlank cs with
      | true =>
          have hkept : kept = rest.filter (!Chunk.isBlank ·) := List.filter_cons_of_neg (by simp [h])
          rw [hkept, kept_ofChunks_of_isBlank h, ofChunks, h]
          simp
      | false =>
          have hkept : kept = cs :: rest.filter (!Chunk.isBlank ·) :=
            List.filter_cons_of_pos (by simp [h])
          rw [hkept, ofChunks, h, Placed.kept]
          cases hrest : rest.filter (!Chunk.isBlank ·) with
          | nil => cases started <;> simp [Chunk.join]
          | cons next more => cases started <;> simp [Chunk.join]

/-- The parts that are not blank are joined, in parentheses if that is asked for and there are
several. -/
theorem gather_ofChunks (enclosed : Bool) (separator : String) (members : List (List Chunk)) :
    let kept := members.filter (!Chunk.isBlank ·)
    gather enclosed separator (members.map ofChunks) =
      if enclosed then Chunk.group separator kept else Chunk.join separator kept := by
  intro kept
  have hcount : ((members.map ofChunks).filter seen).length = kept.length := by
    rw [List.filter_map, List.length_map]
    rfl
  have hseparate : separate separator false (members.map ofChunks) = Chunk.join separator kept := by
    rw [separate_ofChunks]
    rfl
  rw [gather, hcount, hseparate]
  rcases kept with _ | ⟨first, _ | ⟨next, more⟩⟩ <;> cases enclosed <;> rfl

end Placed

namespace Layout

/-- What is written in full has all identifiers. -/
theorem columns_full (l : Layout) : Chunk.columns l.full = l.columns := by
  refine columns_resolve (fun _ cs h => ?_) l 0
  exact Chunk.filterMap_of_isBlank (fun _ => rfl) (by simpa [Sight.full] using h)

/-- A sequence is written in full as it is. -/
theorem full_chunks (cs : List Chunk) : (chunks cs).full = cs := rfl

mutual

/-- Where every placeholder has a text, it does not matter what a layout stands behind. -/
theorem resolve_full : ∀ (l : Layout) (index : Nat), l.resolve .full index = l.full
  | .chunks _, _ => rfl
  | .append first second, index => by
      rw [full, resolve, resolve, resolve_full first, resolve_full first, resolve_full second,
        resolve_full second]
  | .framed before body after?, index => by
      rw [full, resolve, resolve, resolve_full body, resolve_full body]
      rfl
  | .joined enclosed separator members, index => by
      rw [full, resolve, resolve, parts_full members, parts_full members]

/-- The members are written in full wherever they stand. -/
theorem parts_full : ∀ (ls : List Layout) (index : Nat),
    parts .full index ls = ls.map fun l => Placed.ofChunks l.full
  | [], _ => rfl
  | l :: rest, index => by
      rw [parts, resolve_full l, parts_full rest]
      rfl

end

/-- Two layouts are written in full one after the other. -/
theorem full_append (first second : Layout) :
    (append first second).full = first.full ++ second.full := by
  rw [full, resolve, resolve_full, resolve_full]

/-- In full a frame is written around a body that is not blank. -/
theorem full_framed (before : String) (body : Layout) (after? : Option String) :
    (framed before body after?).full =
      if Chunk.isBlank body.full then []
      else .word before :: body.full ++ after?.toList.map .word := by
  rw [full, resolve, resolve_full]
  exact Placed.framed_ofChunks before after? body.full

/-- In full the members that are not blank are joined. -/
theorem full_joined (enclosed : Bool) (separator : String) (members : List Layout) :
    let kept := (members.map full).filter (!Chunk.isBlank ·)
    (joined enclosed separator members).full =
      if enclosed then Chunk.group separator kept else Chunk.join separator kept := by
  intro kept
  rw [full, resolve, parts_full, ← Placed.gather_ofChunks, List.map_map]
  rfl

/-! ## Agreement -/

mutual

/-- The parts that are left out if nothing of them is seen. -/
def optional : Layout → List Layout
  | .chunks _ => []
  | .append first second => first.optional ++ second.optional
  | .framed _ body _ => body :: body.optional
  | .joined _ _ members => optionalOf members

def optionalOf : List Layout → List Layout
  | [] => []
  | l :: rest => l :: l.optional ++ optionalOf rest

end

/-- A sight sees just those optional parts of a layout that are not blank. -/
def Agrees (seen : Sight) (ls : List Layout) : Prop :=
  ∀ l ∈ ls, ∀ index, seen index l.full = !Chunk.isBlank l.full

mutual

/-- **A layout is written in full** under a sight that sees what is not blank. -/
theorem resolve_eq_full {seen : Sight} : ∀ (l : Layout), Agrees seen l.optional →
    ∀ index, l.resolve seen index = l.full
  | .chunks _, _, _ => rfl
  | .append first second, h, index => by
      obtain ⟨hfirst, hsecond⟩ := List.forall_mem_append.1 h
      rw [resolve, full_append, resolve_eq_full first hfirst, resolve_eq_full second hsecond]
  | .framed before body after?, h, index => by
      obtain ⟨hseen, hbody⟩ := List.forall_mem_cons.1 h
      rw [full, resolve, resolve, resolve_eq_full body hbody, resolve_full, hseen index]
      rfl
  | .joined enclosed separator members, h, index => by
      rw [full, resolve, resolve, parts_eq_full members h, parts_full]

/-- The same for the members, which are optional themselves. -/
theorem parts_eq_full {seen : Sight} : ∀ (ls : List Layout), Agrees seen (optionalOf ls) →
    ∀ index, parts seen index ls = ls.map fun l => Placed.ofChunks l.full
  | [], _, _ => rfl
  | l :: rest, h, index => by
      obtain ⟨hseen, h⟩ := List.forall_mem_cons.1 h
      obtain ⟨hl, hrest⟩ := List.forall_mem_append.1 h
      rw [parts, resolve_eq_full l hl, parts_eq_full rest hrest, hseen index]
      rfl

end

end Layout

/-! ## Dialects -/

/-- No placeholder is empty. -/
def Placeholder.NeverEmpty (p : Placeholder) : Prop := ∀ index, p.render index ≠ ""

/-- The styles that are no custom ones have no empty placeholder. -/
theorem Placeholder.neverEmpty_presets :
    ∀ p ∈ [Placeholder.question, Placeholder.dollar, Placeholder.atP], p.NeverEmpty := by
  intro p hp index
  simp only [List.mem_cons, List.not_mem_nil, or_false] at hp
  rcases hp with rfl | rfl | rfl <;> simp [render]

/-- A quoted identifier has its quotes. -/
theorem Identifier.toSql_ne (quote : Char) (name : Identifier) : name.toSql quote ≠ "" := by
  obtain ⟨parts, hparts⟩ := name
  obtain ⟨part, more, rfl⟩ := List.exists_cons_of_ne_nil hparts
  cases more <;> simp [toSql, quoteParts, quotePart]

namespace Chunk

variable {d : Dialect}

/-- Quoting identifiers leaves the bound values as they are. -/
theorem params_map_piece (quote : Char) (cs : List Chunk) :
    Template.params (cs.map (piece quote)) = values cs := by
  induction cs with
  | nil => rfl
  | cons c cs ih =>
      cases c with
      | word s => exact ih
      | column name => exact ih
      | bind v => exact congrArg (v :: ·) ih

/-- The text of two sequences is the text of the first, then that of the second with its
placeholders numbered on. -/
theorem sqlFrom_append (d : Dialect) (index : Nat) (cs ds : List Chunk) :
    sqlFrom d index (cs ++ ds) =
      sqlFrom d index cs ++ sqlFrom d (index + (values cs).length) ds := by
  rw [sqlFrom, List.map_append, Template.sqlFrom_append, params_map_piece]
  rfl

/-- What is blank has no text. -/
theorem sight_of_isBlank {cs : List Chunk} (h : isBlank cs = true) (index : Nat) :
    d.sight index cs = false := by
  have hsql : sqlFrom d index cs = "" := by
    induction cs with
    | nil => rfl
    | cons c cs ih =>
        obtain ⟨hc, hcs⟩ := Bool.and_eq_true_iff.1 h
        cases c with
        | word s =>
            obtain rfl := String.isEmpty_iff.1 hc
            exact (String.empty_append (s := _)).trans (ih hcs)
        | column name => exact absurd hc Bool.false_ne_true
        | bind v => exact absurd hc Bool.false_ne_true
  rw [Dialect.sight, hsql]
  rfl

/-- One piece with a text is enough for a sequence to be seen. -/
theorem sight_of_mem {c : Chunk} (hc : ∀ index, sqlFrom d index [c] ≠ "") {cs : List Chunk}
    (hmem : c ∈ cs) (index : Nat) : d.sight index cs = true := by
  obtain ⟨before, after, rfl⟩ := List.append_of_mem hmem
  rw [Dialect.sight, sqlFrom_append, ← List.singleton_append, sqlFrom_append]
  simp [hc]

/-- A piece with a text of its own, whatever the placeholders are. -/
def hasText : Chunk → Bool
  | .word s => !s.isEmpty
  | .column _ => true
  | .bind _ => false

/-- A sequence with a text of its own is seen by every dialect, at every index. -/
theorem sight_of_hasText {cs : List Chunk} (h : cs.any hasText = true) (index : Nat) :
    d.sight index cs = true := by
  obtain ⟨c, hmem, hc⟩ := List.any_eq_true.1 h
  refine sight_of_mem (fun index => ?_) hmem index
  cases c with
  | word s => simpa [sqlFrom, piece, Template.sqlFrom, hasText] using hc
  | column name => simp [sqlFrom, piece, Template.sqlFrom, Identifier.toSql_ne]
  | bind v => exact absurd hc Bool.false_ne_true

/-- Without empty placeholders just what is blank is not seen. -/
theorem sight_of_neverEmpty (h : d.placeholder.NeverEmpty) (index : Nat) (cs : List Chunk) :
    d.sight index cs = !isBlank cs := by
  cases hblank : isBlank cs with
  | true => exact sight_of_isBlank hblank index
  | false =>
      obtain ⟨c, hmem, hc⟩ := List.all_eq_false.1 hblank
      refine sight_of_mem (fun index => ?_) hmem index
      cases c with
      | word s => simpa [sqlFrom, piece, Template.sqlFrom] using hc
      | column name => simp [sqlFrom, piece, Template.sqlFrom, Identifier.toSql_ne]
      | bind v => simp [sqlFrom, piece, Template.sqlFrom, h index]

/-- What is not seen has no identifier. -/
theorem columns_of_sight {index : Nat} {cs : List Chunk} (h : d.sight index cs = false) :
    columns cs = [] := by
  refine List.filterMap_eq_nil_iff.2 fun c hc => ?_
  cases c with
  | column name =>
      have htext : cs.any hasText = true := List.any_eq_true.2 ⟨_, hc, rfl⟩
      rw [sight_of_hasText htext index] at h
      exact absurd h.symm Bool.false_ne_true
  | word s => rfl
  | bind v => rfl

/-- A sequence that is blank or has a text of its own: every dialect sees the same of it. -/
def Settled (cs : List Chunk) : Prop := isBlank cs = true ∨ cs.any hasText = true

/-- A settled sequence is seen just when it is not blank. -/
theorem sight_of_settled {cs : List Chunk} (h : Settled cs) (index : Nat) :
    d.sight index cs = !isBlank cs := by
  rcases h with hblank | htext
  · rw [sight_of_isBlank hblank, hblank]
    rfl
  · obtain ⟨c, hmem, hc⟩ := List.any_eq_true.1 htext
    have hblank : isBlank cs = false := by
      refine List.all_eq_false.2 ⟨c, hmem, ?_⟩
      cases c <;> simp_all [hasText]
    rw [sight_of_hasText htext, hblank]
    rfl

/-- Two settled sequences are settled together. -/
theorem Settled.append {cs ds : List Chunk} (hc : Settled cs) (hd : Settled ds) :
    Settled (cs ++ ds) := by
  rw [Settled, isBlank_append, List.any_append]
  rcases hc with hc | hc <;> rcases hd with hd | hd <;> simp [hc, hd]

/-- What is left of settled members are members with a text. -/
theorem Settled.any_of_not_isBlank {cs : List Chunk} (h : Settled cs) (hcs : isBlank cs = false) :
    cs.any hasText = true :=
  h.resolve_left (by rw [hcs]; exact Bool.false_ne_true)

/-- Joined members are settled, for a single text is enough to be seen. -/
theorem settled_join (separator : String) {members : List (List Chunk)}
    (h : ∀ cs ∈ members, cs.any hasText = true) : Settled (join separator members) := by
  rcases members with _ | ⟨cs, _ | ⟨next, more⟩⟩
  · exact .inl rfl
  · exact .inr (h cs List.mem_cons_self)
  · refine .inr ?_
    rw [join_cons (List.cons_ne_nil _ _), List.any_append, h cs List.mem_cons_self]
    rfl

/-- Grouped members are settled, for a single text is enough to be seen. -/
theorem settled_group (separator : String) {members : List (List Chunk)}
    (h : ∀ cs ∈ members, cs.any hasText = true) : Settled (group separator members) := by
  rcases members with _ | ⟨cs, _ | ⟨next, more⟩⟩
  · exact .inl rfl
  · exact .inr (h cs List.mem_cons_self)
  · exact .inr rfl

end Chunk

namespace Layout

/-- **Under a dialect without empty placeholders a layout is written in full.** -/
theorem resolve_of_neverEmpty {d : Dialect} (h : d.placeholder.NeverEmpty) (l : Layout)
    (index : Nat) : l.resolve d.sight index = l.full :=
  resolve_eq_full l (fun m _ index => Chunk.sight_of_neverEmpty h index m.full) index

/-- **Under a dialect without empty placeholders a layout is written as its template.** -/
theorem write_of_neverEmpty {d : Dialect} (h : d.placeholder.NeverEmpty) (l : Layout) :
    l.write d = (l.template d.quote).emit d.placeholder := by
  rw [write, resolve_of_neverEmpty h]
  rfl

mutual

/-- Every part is blank or has a text of its own. -/
def Settled : Layout → Prop
  | .chunks cs => Chunk.Settled cs
  | .append first second => first.Settled ∧ second.Settled
  | .framed _ body _ => body.Settled
  | .joined _ _ members => SettledAll members

def SettledAll : List Layout → Prop
  | [] => True
  | l :: rest => l.Settled ∧ SettledAll rest

end

mutual

/-- A settled layout is settled as it is written in full. -/
theorem settled_full : ∀ l : Layout, l.Settled → Chunk.Settled l.full
  | .chunks _, h => h
  | .append first second, h => by
      rw [full_append]
      exact (settled_full first h.1).append (settled_full second h.2)
  | .framed before body after?, h => by
      rw [full_framed]
      split
      · exact .inl rfl
      · rename_i hblank
        have htext := (settled_full body h).any_of_not_isBlank (Bool.eq_false_iff.2 hblank)
        exact .inr (by simp [htext])
  | .joined enclosed separator members, h => by
      have hkept := settled_fulls members h
      rw [full_joined]
      split
      · exact Chunk.settled_group separator hkept
      · exact Chunk.settled_join separator hkept

/-- Of settled members those that are not blank have a text of their own. -/
theorem settled_fulls : ∀ ls : List Layout, SettledAll ls →
    ∀ cs ∈ (ls.map full).filter (!Chunk.isBlank ·), cs.any Chunk.hasText = true
  | [], _, _, hcs => absurd hcs List.not_mem_nil
  | l :: rest, h, cs, hcs => by
      rw [List.map_cons, List.filter_cons] at hcs
      split at hcs
      · rename_i hblank
        rcases List.mem_cons.1 hcs with rfl | hcs
        · exact (settled_full l h.1).any_of_not_isBlank (by simpa using hblank)
        · exact settled_fulls rest h.2 cs hcs
      · exact settled_fulls rest h.2 cs hcs

end

mutual

/-- The optional parts of a settled layout are settled, so that every dialect sees the same of
them. -/
theorem settled_optional : ∀ l : Layout, l.Settled → ∀ m ∈ l.optional, Chunk.Settled m.full
  | .chunks _, _, _, hm => absurd hm List.not_mem_nil
  | .append first second, h, m, hm =>
      (List.mem_append.1 hm).elim (settled_optional first h.1 m) (settled_optional second h.2 m)
  | .framed _ body _, h, m, hm => by
      rcases List.mem_cons.1 hm with rfl | hm
      · exact settled_full _ h
      · exact settled_optional body h m hm
  | .joined _ _ members, h, m, hm => settled_optionalOf members h m hm

/-- The same for the members of a layout. -/
theorem settled_optionalOf : ∀ ls : List Layout, SettledAll ls →
    ∀ m ∈ optionalOf ls, Chunk.Settled m.full
  | [], _, _, hm => absurd hm List.not_mem_nil
  | l :: rest, h, m, hm => by
      rcases List.mem_cons.1 hm with rfl | hm
      · exact settled_full _ h.1
      · exact (List.mem_append.1 hm).elim (settled_optional l h.1 m)
          (settled_optionalOf rest h.2 m)

end

/-- **A settled layout is written as its template under every dialect.** -/
theorem write_of_settled {l : Layout} (h : l.Settled) (d : Dialect) :
    l.write d = (l.template d.quote).emit d.placeholder := by
  rw [write, resolve_eq_full l fun m hm index =>
    Chunk.sight_of_settled (settled_optional l h m hm) index]
  rfl

/-- **A statement binds the values of its layout.** -/
theorem params_write (l : Layout) (d : Dialect) : (l.write d).params = l.values :=
  (Chunk.params_map_piece d.quote _).trans (values_resolve d.sight l 0)

/-- The template of two layouts is the one of the first and then the one of the second. -/
theorem template_append (quote : Char) (first second : Layout) :
    (append first second).template quote = first.template quote ++ second.template quote := by
  rw [template, full_append, List.map_append]
  rfl

/-- A template has the values of its layout, although not all its words. -/
theorem params_template (quote : Char) (l : Layout) : (l.template quote).params = l.values :=
  (Chunk.params_map_piece quote _).trans (values_resolve .full l 0)

/-! ## Words -/

mutual

/-- The words that may be written. -/
def words : Layout → List String
  | .chunks cs => cs.filterMap Chunk.word?
  | .append first second => first.words ++ second.words
  | .framed before body after? => before :: body.words ++ after?.toList
  | .joined _ separator members => "(" :: ")" :: separator :: wordsOf members

def wordsOf : List Layout → List String
  | [] => []
  | l :: rest => l.words ++ wordsOf rest

end

/-- The words of a sequence are those that stand in it. -/
theorem mem_words_chunks {cs : List Chunk} {s : String} :
    s ∈ (chunks cs).words ↔ .word s ∈ cs := by
  rw [words, List.mem_filterMap]
  constructor
  · rintro ⟨c, hc, hs⟩
    cases c with
    | word t => exact Option.some.inj hs ▸ hc
    | column name => exact absurd hs (by simp [Chunk.word?])
    | bind v => exact absurd hs (by simp [Chunk.word?])
  · exact fun h => ⟨_, h, rfl⟩

/-- The words of members are those of one of them. -/
theorem mem_wordsOf_iff {ls : List Layout} {s : String} :
    s ∈ wordsOf ls ↔ ∃ l ∈ ls, s ∈ l.words := by
  induction ls with
  | nil => simp [wordsOf]
  | cons l rest ih => simp [wordsOf, ih]

end Layout

namespace Placed

variable {s : String}

/-- What is kept of a part has no word that the part has not. -/
theorem mem_of_mem_kept {p : Placed} (h : .word s ∈ p.kept) : .word s ∈ p.chunks := by
  rw [kept] at h
  split at h
  · exact h
  · obtain ⟨v, -, hv⟩ := List.mem_map.1 h
    exact absurd hv (by simp)

/-- A word of a framed part is one of the frame or of the part. -/
theorem mem_of_mem_framed {before : String} {after? : Option String} {p : Placed}
    (h : .word s ∈ p.framed before after?) :
    s = before ∨ .word s ∈ p.chunks ∨ s ∈ after?.toList := by
  rw [framed] at h
  split at h
  · rw [List.cons_append, List.mem_cons, List.mem_append] at h
    rcases h with h | h | h
    · exact .inl (Chunk.word.inj h)
    · exact .inr (.inl h)
    · obtain ⟨t, ht, hst⟩ := List.mem_map.1 h
      exact .inr (.inr (Chunk.word.inj hst ▸ ht))
  · exact .inr (.inl (mem_of_mem_kept h))

/-- A word of separated parts is the separator or one of the parts. -/
theorem mem_of_mem_separate {separator : String} {started : Bool} {ps : List Placed}
    (h : .word s ∈ separate separator started ps) :
    s = separator ∨ ∃ p ∈ ps, .word s ∈ p.chunks := by
  induction ps generalizing started with
  | nil => exact absurd h List.not_mem_nil
  | cons p rest ih =>
      have hp : .word s ∈ p.kept → s = separator ∨ ∃ q ∈ p :: rest, .word s ∈ q.chunks :=
        fun h => .inr ⟨p, List.mem_cons_self, mem_of_mem_kept h⟩
      rw [separate, List.mem_append] at h
      rcases h with h | h
      · split at h
        · rcases List.mem_cons.1 h with h | h
          · exact .inl (Chunk.word.inj h)
          · exact hp h
        · exact hp h
      · exact (ih h).imp_right fun ⟨q, hq, hs⟩ => ⟨q, List.mem_cons_of_mem p hq, hs⟩

/-- A word of gathered parts is a parenthesis, the separator or one of the parts. -/
theorem mem_of_mem_gather {enclosed : Bool} {separator : String} {ps : List Placed}
    (h : .word s ∈ gather enclosed separator ps) :
    s = "(" ∨ s = ")" ∨ s = separator ∨ ∃ p ∈ ps, .word s ∈ p.chunks := by
  rw [gather] at h
  split at h
  · rw [List.cons_append, List.mem_cons, List.mem_append, List.mem_singleton] at h
    rcases h with h | h | h
    · exact .inl (Chunk.word.inj h)
    · exact .inr (.inr (mem_of_mem_separate h))
    · exact .inr (.inl (Chunk.word.inj h))
  · exact .inr (.inr (mem_of_mem_separate h))

end Placed

namespace Layout

variable {seen : Sight} {s : String}

mutual

/-- **Nothing else is written than the words of the layout.** -/
theorem mem_words : ∀ (l : Layout) (index : Nat), .word s ∈ l.resolve seen index → s ∈ l.words
  | .chunks _, _, h => mem_words_chunks.2 h
  | .append first second, _, h =>
      List.mem_append.2 ((List.mem_append.1 h).imp (mem_words first _) (mem_words second _))
  | .framed before body after?, index, h => by
      rw [words, List.cons_append, List.mem_cons, List.mem_append]
      exact (Placed.mem_of_mem_framed h).imp_right (Or.imp_left (mem_words body index))
  | .joined enclosed separator members, index, h => by
      rw [words, List.mem_cons, List.mem_cons, List.mem_cons]
      refine (Placed.mem_of_mem_gather h).imp_right (Or.imp_right (Or.imp_right ?_))
      exact fun ⟨p, hp, hs⟩ => mem_wordsOf members index p hp hs

/-- The same for the parts of the members. -/
theorem mem_wordsOf : ∀ (ls : List Layout) (index : Nat), ∀ p ∈ parts seen index ls,
    .word s ∈ p.chunks → s ∈ wordsOf ls
  | [], _, _, hp, _ => absurd hp List.not_mem_nil
  | l :: rest, index, p, hp, hs => by
      rw [wordsOf, List.mem_append]
      rcases List.mem_cons.1 hp with rfl | hp
      · exact .inl (mem_words l index hs)
      · exact .inr (mem_wordsOf rest _ p hp hs)

end

end Layout

end BoundSql
