import BoundSql.Template.Layout
import BoundSql.Template.Named

/-!
# Masked values

Masking puts null in the place of every value and leaves everything else as it is.
What is made of masked data is the masked result of the data, so data that look alike
when masked have results that look alike; and a statement keeps its text when it is
masked.  Here this is proved for templates, layouts, the maps of values, and the two kinds
of markers.  Which parts of a layout are left out is decided by their texts, so masking
does not move the decision (`Layout.mask_write`).
-/

namespace BoundSql

/-- Null in the place of a value. -/
def Value.mask (_ : Value) : Value := .null

/-- A statement with its parameters masked. -/
def Statement.mask (s : Statement) : Statement := ⟨s.sql, s.params.map Value.mask⟩

def Piece.mask : Piece → Piece
  | .text s => .text s
  | .bind v => .bind v.mask

namespace Template

def mask (t : Template) : Template := t.map Piece.mask

@[simp]
theorem mask_nil : mask [] = [] := rfl

@[simp]
theorem mask_text (s : String) (t : Template) : mask (.text s :: t) = .text s :: t.mask := rfl

/-- Two templates are masked one after the other. -/
@[simp]
theorem mask_append (s t : Template) : mask (s ++ t) = s.mask ++ t.mask := List.map_append

/-- Joined templates are masked one by one, for separators have no values. -/
theorem mask_join (separator : String) (members : List Template) :
    (join separator members).mask = join separator (members.map mask) := by
  induction members with
  | nil => rfl
  | cons t rest ih =>
      cases rest with
      | nil => rfl
      | cons next more =>
          have hjoin : join separator (t :: next :: more) =
              t ++ .text separator :: join separator (next :: more) := rfl
          rw [hjoin, mask_append, mask_text, ih]
          rfl

/-- The parameters of a masked template are the masked parameters. -/
theorem params_mask (t : Template) : t.mask.params = t.params.map Value.mask := by
  induction t with
  | nil => rfl
  | cons piece rest ih =>
      cases piece with
      | text s => exact ih
      | bind v => exact congrArg (v.mask :: ·) ih

/-- **Masking leaves the text as it is.** -/
theorem sqlFrom_mask (p : Placeholder) (index : Nat) (t : Template) :
    sqlFrom p index t.mask = sqlFrom p index t := by
  induction t generalizing index with
  | nil => rfl
  | cons piece rest ih =>
      cases piece with
      | text s => exact congrArg (s ++ ·) (ih index)
      | bind v => exact congrArg (p.render index ++ ·) (ih (index + 1))

/-- Masking before a template is written gives what masking the statement gives. -/
theorem mask_emit (t : Template) (p : Placeholder) : (t.emit p).mask = t.mask.emit p := by
  rw [emit, emit, Statement.mask, sqlFrom_mask, params_mask]

end Template

/-- Segments are filled with masked values as with any others. -/
theorem Marker.mask_fill (segments : List (List Char)) (values : List Value) :
    (fill segments values).mask = fill segments (values.map Value.mask) := by
  induction segments generalizing values with
  | nil => rfl
  | cons segment rest ih =>
      cases rest with
      | nil => rfl
      | cons next more =>
          cases values with
          | nil => exact congrArg (.text (String.ofList segment) :: .text "?" :: ·) (ih [])
          | cons v values =>
              exact congrArg (.text (String.ofList segment) :: .bind v.mask :: ·) (ih values)

/-- The markers of raw SQL do not depend on the values at them. -/
theorem Template.mask_ofRaw (sql : String) (values : List Value) :
    (ofRaw sql values).mask = ofRaw sql (values.map Value.mask) :=
  Marker.mask_fill _ values

/-! ## Layouts -/

namespace Chunk

def mask : Chunk → Chunk
  | .word s => .word s
  | .column name => .column name
  | .bind v => .bind v.mask

variable (cs : List Chunk)

/-- Quoting identifiers and masking values do not meet. -/
theorem mask_map_piece (quote : Char) :
    Template.mask (cs.map (piece quote)) = (cs.map mask).map (piece quote) := by
  rw [Template.mask, List.map_map, List.map_map]
  refine List.map_congr_left fun c _ => ?_
  cases c <;> rfl

/-- Chunks of raw SQL are masked as its values are. -/
theorem mask_ofRaw (sql : String) (values : List Value) :
    (Template.ofRaw sql (values.map Value.mask)).map ofPiece =
      ((Template.ofRaw sql values).map ofPiece).map mask := by
  rw [← Template.mask_ofRaw, Template.mask, List.map_map, List.map_map]
  refine List.map_congr_left fun piece _ => ?_
  cases piece <;> rfl

/-- The values of masked chunks are the masked values. -/
theorem values_mask : values (cs.map mask) = (values cs).map Value.mask := by
  rw [values, values, List.filterMap_map, List.map_filterMap]
  refine congrArg (List.filterMap · cs) (funext fun c => ?_)
  cases c <;> rfl

/-- **Whether something is seen does not depend on the values.** -/
theorem sight_mask (d : Dialect) (index : Nat) :
    d.sight index (cs.map mask) = d.sight index cs := by
  rw [Dialect.sight, Dialect.sight, sqlFrom, sqlFrom, ← mask_map_piece, Template.sqlFrom_mask]

/-- Joined sequences are masked one by one, for separators have no values. -/
theorem mask_join (separator : String) (members : List (List Chunk)) :
    (join separator members).map mask = join separator (members.map (List.map mask)) := by
  induction members with
  | nil => rfl
  | cons cs rest ih =>
      cases rest with
      | nil => rfl
      | cons next more =>
          rw [join, List.map_append, List.map_cons, ih]
          · rfl
          · exact List.cons_ne_nil _ _

end Chunk

namespace Placed

/-- A part with its values masked, in its place. -/
def mask (p : Placed) : Placed := ⟨p.chunks.map Chunk.mask, p.seen⟩

/-- What is kept of a part is masked with it. -/
theorem kept_mask (p : Placed) : p.mask.kept = p.kept.map Chunk.mask := by
  rw [kept, kept, mask]
  split
  · rfl
  · rw [Chunk.values_mask, List.map_map, List.map_map]
    rfl

/-- A frame is written whatever the values in it are. -/
theorem framed_mask (p : Placed) (before : String) (after? : Option String) :
    p.mask.framed before after? = (p.framed before after?).map Chunk.mask := by
  rw [framed, framed, kept_mask, mask]
  split
  · rw [List.map_append, List.map_cons, List.map_map]
    rfl
  · rfl

/-- Separators are written whatever the values between them are. -/
theorem separate_mask (separator : String) (started : Bool) (ps : List Placed) :
    separate separator started (ps.map mask) =
      (separate separator started ps).map Chunk.mask := by
  induction ps generalizing started with
  | nil => rfl
  | cons p rest ih =>
      rw [List.map_cons, separate, separate, ih, kept_mask, mask, List.map_append]
      split <;> rfl

/-- Parentheses are written whatever the values within are. -/
theorem gather_mask (enclosed : Bool) (separator : String) (ps : List Placed) :
    gather enclosed separator (ps.map mask) =
      (gather enclosed separator ps).map Chunk.mask := by
  have hcount : ((ps.map mask).filter seen).length = (ps.filter seen).length := by
    rw [List.filter_map, List.length_map]
    rfl
  rw [gather, gather, hcount, separate_mask]
  split
  · rw [List.map_append, List.map_cons]
    rfl
  · rfl

end Placed

namespace Layout

mutual

/-- A layout with its values masked. -/
def mask : Layout → Layout
  | .chunks cs => .chunks (cs.map Chunk.mask)
  | .append first second => .append first.mask second.mask
  | .framed before body after? => .framed before body.mask after?
  | .joined enclosed separator members => .joined enclosed separator (maskAll members)

def maskAll : List Layout → List Layout
  | [] => []
  | l :: rest => l.mask :: maskAll rest

end

mutual

/-- The leaves of a masked layout are its leaves, masked. -/
theorem leaves_mask : ∀ l : Layout, l.mask.leaves = l.leaves.map Chunk.mask
  | .chunks _ => rfl
  | .append first second => by
      rw [mask, leaves, leaves, leaves_mask first, leaves_mask second, List.map_append]
  | .framed _ body _ => leaves_mask body
  | .joined _ _ members => leavesOf_maskAll members

/-- The same for the members of a layout. -/
theorem leavesOf_maskAll : ∀ ls : List Layout, leavesOf (maskAll ls) = (leavesOf ls).map Chunk.mask
  | [] => rfl
  | l :: rest => by
      rw [maskAll, leavesOf, leavesOf, leaves_mask l, leavesOf_maskAll rest, List.map_append]

end

/-- Masking leaves as many values as there were, so the index of every part stays. -/
theorem length_values_mask (l : Layout) : l.mask.values.length = l.values.length := by
  rw [values, leaves_mask, Chunk.values_mask, List.length_map]
  rfl

variable {d : Dialect}

mutual

/-- What is written of a masked layout is what is written of the layout, masked. -/
theorem resolve_mask : ∀ (l : Layout) (index : Nat),
    l.mask.resolve d.sight index = (l.resolve d.sight index).map Chunk.mask
  | .chunks _, _ => rfl
  | .append first second, index => by
      rw [mask, resolve, resolve, resolve_mask first, resolve_mask second, length_values_mask,
        List.map_append]
  | .framed before body after?, index => by
      rw [mask, resolve, resolve, resolve_mask body, Chunk.sight_mask]
      exact Placed.framed_mask ⟨_, _⟩ before after?
  | .joined enclosed separator members, index => by
      rw [mask, resolve, resolve, parts_maskAll members, Placed.gather_mask]

/-- The same for the parts of the members, each with what is seen of it. -/
theorem parts_maskAll : ∀ (ls : List Layout) (index : Nat),
    parts d.sight index (maskAll ls) = (parts d.sight index ls).map Placed.mask
  | [], _ => rfl
  | l :: rest, index => by
      rw [maskAll, parts, parts, resolve_mask l, Chunk.sight_mask, length_values_mask,
        parts_maskAll rest]
      rfl

end

/-- **A masked layout is written as the masked statement of the layout.** -/
theorem mask_write (l : Layout) (d : Dialect) : (l.write d).mask = l.mask.write d := by
  rw [write, write, Chunk.write, Chunk.write, Template.mask_emit, Chunk.mask_map_piece,
    resolve_mask]

end Layout

namespace KeyMap

/-- A map is what its entries are. -/
theorem eq_of_entries {α : Type} {m m' : KeyMap α} (h : m.entries = m'.entries) : m = m' := by
  cases m
  cases m'
  obtain rfl : _ = _ := h
  rfl

/-- A key with its value masked. -/
def maskEntry (entry : String × Value) : String × Value := (entry.1, entry.2.mask)

/-- A map with its values masked. -/
def mask (m : ValueMap) : ValueMap :=
  ⟨m.entries.map maskEntry, List.pairwise_map.2 m.sorted⟩

theorem entries_mask (m : ValueMap) : (mask m).entries = m.entries.map maskEntry := rfl

/-- Masking leaves the keys of a map. -/
theorem keys_mask (m : ValueMap) : (mask m).keys = m.keys := by
  rw [keys, mask, List.map_map]
  rfl

/-- Masking leaves the size of a map. -/
theorem size_mask (m : ValueMap) : (mask m).size = m.size := List.length_map ..

/-- A key of a masked map has its value masked. -/
theorem get?_mask (m : ValueMap) (key : String) :
    (mask m).get? key = (m.get? key).map Value.mask := by
  rw [get?, get?, entries_mask]
  induction m.entries with
  | nil => rfl
  | cons entry rest ih =>
      rw [List.map_cons, maskEntry, List.lookup_cons, List.lookup_cons]
      split
      · rfl
      · exact ih

/-- Erasing a key does not depend on its value. -/
theorem mask_erase (m : ValueMap) (key : String) : mask (m.erase key) = (mask m).erase key :=
  eq_of_entries (List.filter_map (f := maskEntry) (p := (·.1 != key)) (l := m.entries)).symm

/-- Where an entry is placed does not depend on its value. -/
theorem map_place (key : String) (v : Value) (entries : List (String × Value)) :
    (place key v entries).map maskEntry = place key v.mask (entries.map maskEntry) := by
  induction entries with
  | nil => rfl
  | cons entry rest ih =>
      simp only [place, List.map_cons, maskEntry]
      split
      · rfl
      · split
        · rw [← ih]
          rfl
        · rfl

/-- Entering masked pairs one by one gives a masked map. -/
theorem mask_ofList (entries : List (String × Value)) :
    mask (ofList entries) = ofList (entries.map maskEntry) := by
  have hfold : ∀ m : ValueMap, mask (entries.foldl (fun m entry => m.insert entry.1 entry.2) m) =
      (entries.map maskEntry).foldl (fun m entry => m.insert entry.1 entry.2) (mask m) := by
    induction entries with
    | nil => exact fun m => rfl
    | cons entry rest ih =>
        intro m
        rw [List.foldl_cons, List.map_cons, List.foldl_cons, ih]
        congr 1
        exact eq_of_entries (map_place entry.1 entry.2 m.entries)
  exact hfold empty

end KeyMap

/-- A marker is bound or refused by the names of the values alone. -/
theorem Named.bindPart_mask (lookup : ValueMap) (part : Part) :
    bindPart lookup.mask part = (bindPart lookup part).map Piece.mask := by
  cases part with
  | char c => rfl
  | marker name =>
      rw [bindPart, bindPart, KeyMap.get?_mask]
      cases lookup.get? name <;> rfl

/-- **Named markers bind masked values as they bind the values.** -/
theorem Template.ofNamed_mask (sql : String) (lookup : ValueMap) :
    ofNamed sql lookup.mask = (ofNamed sql lookup).map Template.mask := by
  rw [ofNamed, ofNamed]
  induction Named.parts sql with
  | nil => rfl
  | cons part parts ih =>
      rw [List.mapM_cons, List.mapM_cons, Named.bindPart_mask, ih]
      cases Named.bindPart lookup part with
      | error e => rfl
      | ok piece => cases parts.mapM (Named.bindPart lookup) <;> rfl

end BoundSql
