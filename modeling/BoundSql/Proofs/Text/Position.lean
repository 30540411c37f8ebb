import BoundSql.Text.Blank

/-!
# Byte positions in a text

A byte position is good to cut a text at if it is within no character and not beyond the
end.  These are the positions that a part of the text stands at (`At`), and a slice is taken
of exactly the parts that do (`slice?_eq_some_iff`): at all others there is none to take.
-/

namespace BoundSql.Text

/-- The sizes of two texts add up. -/
theorem utf8Size_append (a b : List Char) : utf8Size (a ++ b) = utf8Size a + utf8Size b := by
  induction a with
  | nil => exact (Nat.zero_add _).symm
  | cons c a ih => rw [List.cons_append, utf8Size, utf8Size, ih, Nat.add_assoc]

/-- The size of a text is that of its characters. -/
theorem utf8ByteSize_ofList (cs : List Char) : (String.ofList cs).utf8ByteSize = utf8Size cs := by
  induction cs with
  | nil => rfl
  | cons c cs ih =>
      rw [← List.singleton_append, String.ofList_append, String.utf8ByteSize_append, ih,
        ← String.singleton_eq_ofList, String.utf8ByteSize_singleton]
      rfl

/-- The size of the characters is that of the text. -/
theorem utf8Size_toList (text : String) : utf8Size text.toList = text.utf8ByteSize := by
  rw [← utf8ByteSize_ofList, String.ofList_toList]

/-- What stands in a text from a byte position to the end. -/
def At (text : String) (pos : Nat) (rest : List Char) : Prop :=
  ∃ before, text.toList = before ++ rest ∧ pos = utf8Size before

/-- The characters between two byte positions.  There are none to take where one of the
positions is within a character or beyond the end, or the second lies before the first. -/
def slice? (text : String) (start stop : Nat) : Option (List Char) := do
  let p ← text.pos? ⟨start⟩
  let q ← text.pos? ⟨stop⟩
  let part ← text.slice? p q
  return part.copy.toList

variable {text : String} {pos start stop : Nat} {part rest : List Char}

/-- At the beginning stands the whole text. -/
theorem at_zero (text : String) : At text 0 text.toList := ⟨[], rfl, rfl⟩

/-- Behind a part stands the rest. -/
theorem At.skip (h : At text pos (part ++ rest)) : At text (pos + utf8Size part) rest := by
  obtain ⟨before, htext, rfl⟩ := h
  exact ⟨before ++ part, by rw [htext, List.append_assoc], (utf8Size_append before part).symm⟩

/-- What stands at a position reaches to the end. -/
theorem At.add_utf8Size (h : At text pos rest) : pos + utf8Size rest = text.utf8ByteSize := by
  obtain ⟨before, htext, rfl⟩ := h
  rw [← utf8Size_append, ← htext, utf8Size_toList]

/-- A text can be cut at a byte position just where something stands at it. -/
theorem exists_at_iff : (∃ rest, At text pos rest) ↔ (⟨pos⟩ : String.Pos.Raw).IsValid text := by
  rw [String.Pos.Raw.isValid_iff_exists_append]
  constructor
  · rintro ⟨rest, before, htext, rfl⟩
    refine ⟨String.ofList before, String.ofList rest, String.toList_inj.1 ?_,
      String.Pos.Raw.ext (utf8ByteSize_ofList before).symm⟩
    rw [String.toList_append, String.toList_ofList, String.toList_ofList, htext]
  · rintro ⟨before, rest, rfl, hpos⟩
    exact ⟨rest.toList, before.toList, String.toList_append,
      (congrArg String.Pos.Raw.byteIdx hpos).trans (utf8Size_toList before).symm⟩

/-- The characters of a slice between two good positions. -/
theorem copy_slice {p q : text.Pos} {before : List Char} (hpq : p ≤ q)
    (htext : text.toList = before ++ (part ++ rest)) (hp : p.offset.byteIdx = utf8Size before)
    (hq : q.offset.byteIdx = utf8Size before + utf8Size part) :
    (text.slice p q hpq).copy = String.ofList part := by
  have hbytes : text.toByteArray = (String.ofList before).toByteArray ++
      ((String.ofList part).toByteArray ++ (String.ofList rest).toByteArray) := by
    rw [← String.toByteArray_append, ← String.toByteArray_append, ← String.ofList_append,
      ← String.ofList_append, ← htext, String.ofList_toList]
  have hbefore : utf8Size before = (String.ofList before).toByteArray.size :=
    (utf8ByteSize_ofList before).symm
  have hpart : utf8Size part = (String.ofList part).toByteArray.size :=
    (utf8ByteSize_ofList part).symm
  rw [← String.toByteArray_inj, String.toByteArray_copy_slice, hp, hq, hbytes,
    ← Nat.add_zero (utf8Size before), Nat.add_assoc, Nat.zero_add,
    ByteArray.extract_append_size_add' hbefore, ByteArray.extract_append_eq_left hpart]

/-- A valid position is the one with its offset. -/
theorem pos?_eq_some_iff {p : text.Pos} : text.pos? ⟨pos⟩ = some p ↔ p.offset.byteIdx = pos := by
  have hvalid : (⟨pos⟩ : String.Pos.Raw).isValidForSlice text.toSlice = true ↔
      (⟨pos⟩ : String.Pos.Raw).IsValid text := by simp
  rw [String.pos?, String.Slice.pos?]
  split
  · rename_i h
    constructor
    · rintro hp
      obtain rfl := Option.some.inj hp
      rfl
    · intro hp
      exact congrArg some (String.Pos.ext (String.Pos.Raw.ext hp.symm))
  · rename_i h
    constructor
    · intro hp
      exact absurd hp (by simp)
    · rintro rfl
      exact absurd (hvalid.2 p.isValid) h

/-- The byte position of a cut is the size of what stands before it. -/
theorem byteIdx_of_splits {p : text.Pos} {before after : String} (h : p.Splits before after) :
    p.offset.byteIdx = utf8Size before.toList :=
  (congrArg String.Pos.Raw.byteIdx h.offset_eq_rawEndPos).trans (utf8Size_toList before).symm

/-- **A slice is taken of what stands between two positions,** and of nothing else. -/
theorem slice?_eq_some_iff : slice? text start stop = some part ↔
    ∃ rest, At text start (part ++ rest) ∧ stop = start + utf8Size part := by
  simp only [slice?, bind, Option.bind_eq_some_iff, pos?_eq_some_iff, pure, Option.some.injEq]
  constructor
  · rintro ⟨p, rfl, q, rfl, slice, hslice, rfl⟩
    rw [String.slice?] at hslice
    split at hslice
    · rename_i hpq
      obtain rfl := Option.some.inj hslice
      obtain ⟨mid, hto, hfrom⟩ := (p.splits.le_iff_exists_eq_append q.splits).1 hpq
      have hp := byteIdx_of_splits p.splits
      have hq := byteIdx_of_splits q.splits
      have htext := congrArg String.toList p.splits.eq_append
      rw [hto, String.toList_append, utf8Size_append, ← hp] at hq
      rw [hfrom, String.toList_append, String.toList_append] at htext
      have hcopy := copy_slice hpq htext hp (hp ▸ hq)
      rw [hcopy, String.toList_ofList]
      exact ⟨_, ⟨_, htext, hp⟩, hq⟩
    · exact absurd hslice (by simp)
  · rintro ⟨rest, h, rfl⟩
    have hstart := exists_at_iff.1 ⟨_, h⟩
    have hstop := exists_at_iff.1 ⟨_, h.skip⟩
    obtain ⟨before, htext, rfl⟩ := h
    have hle : text.pos ⟨utf8Size before⟩ hstart ≤
        text.pos ⟨utf8Size before + utf8Size part⟩ hstop := Nat.le_add_right _ _
    refine ⟨text.pos _ hstart, rfl, text.pos _ hstop, rfl, text.slice _ _ hle, dif_pos hle, ?_⟩
    rw [copy_slice hle htext rfl rfl, String.toList_ofList]

example : slice? "é=" 0 1 = none ∧ slice? "é=" 2 3 = some ['='] := by decide

end BoundSql.Text
