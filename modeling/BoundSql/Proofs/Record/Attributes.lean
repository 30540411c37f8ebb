import Mathlib.Data.List.Forall2
import Mathlib.Data.List.Nodup
import BoundSql.Proofs.Except
import BoundSql.Proofs.KeyMap
import BoundSql.Record.Declaration

/-!
# What the attributes of a field say

All items of all attributes of an accepted field count together, in the order in which they
are written: the field is left out under every tag if one of them is `skip`, and has the
columns of the others (`FieldMapping.eq_of_ofAttributes`).  As no tag occurs twice, an item
decides what the field is under its tag, and where no item does the field has its own name
(`DeclaredField.column?_eq_some`, `DeclaredField.column?_eq_none`).
-/

namespace BoundSql

open Attribute

/-- The tag and the column that an item maps. -/
def Attribute.Item.column? : Item → Option (String × String)
  | .skip => none
  | .column tag given => some (tag, given)

namespace DeclaredField

/-- The items of all attributes. -/
def items (d : DeclaredField) : List Item :=
  d.attributes.flatMap fun text => (Attribute.ofText text).toOption.getD []

/-- The field is left out under a tag, by itself or with all others. -/
def excluded (d : DeclaredField) (tag : String) : Bool :=
  d.items.contains .skip || d.items.contains (.column tag FieldMapping.excluded)

/-- The field is a column under a tag: the one that an item gives, or else its own name. -/
structure HasColumn (tag : String) (d : DeclaredField) (column : String) : Prop where
  included : d.excluded tag = false
  column : .column tag column ∈ d.items ∨
    column = d.name ∧ ∀ other, .column tag other ∉ d.items

end DeclaredField

namespace FieldMapping

/-- The items of an attribute add their columns in order, and one of them is enough to skip the
field. -/
theorem foldl_addItem (items : List Item) (f : FieldMapping) :
    items.foldl addItem f =
      ⟨f.name, f.skipped || items.contains .skip, f.columns ++ items.filterMap Item.column?⟩ := by
  induction items generalizing f with
  | nil => simp
  | cons item items ih =>
      rw [List.foldl_cons, ih]
      cases item with
      | skip => simp [addItem, List.filterMap_cons, Item.column?]
      | column tag given => simp [addItem, Item.column?]

/-- An attribute is accepted if it can be read and leaves the field valid. -/
theorem addAttribute_eq_ok {f g : FieldMapping} {text : String} :
    f.addAttribute text = .ok g ↔
      ∃ items, Attribute.ofText text = .ok items ∧ items.foldl addItem f = g ∧
        g.validate = .ok () := by
  rw [addAttribute, bind_eq_ok]
  refine exists_congr fun items => and_congr_right fun _ => ?_
  simp only [bind_unit_eq_ok, pure_eq_ok]
  constructor
  · rintro ⟨hvalid, rfl⟩
    exact ⟨rfl, hvalid⟩
  · rintro ⟨rfl, hvalid⟩
    exact ⟨hvalid, rfl⟩

/-- Further attributes add their items to those that were there. -/
theorem foldlM_addAttribute {texts : List String} {f g : FieldMapping} (hf : f.validate = .ok ())
    (h : texts.foldlM addAttribute f = .ok g) :
    (texts.flatMap fun text => (Attribute.ofText text).toOption.getD []).foldl addItem f = g ∧
      g.validate = .ok () := by
  induction texts generalizing f with
  | nil =>
      obtain rfl := pure_eq_ok.1 h
      exact ⟨rfl, hf⟩
  | cons text texts ih =>
      rw [List.foldlM_cons] at h
      obtain ⟨next, hnext, h⟩ := bind_eq_ok.1 h
      obtain ⟨items, hitems, rfl, hvalid⟩ := addAttribute_eq_ok.1 hnext
      rw [List.flatMap_cons, hitems, List.foldl_append]
      exact ih hvalid h

/-- No tag is repeated if none occurs twice or was seen before. -/
theorem firstRepeated?_eq_none {seen tags : List String} :
    firstRepeated? seen tags = none ↔ (∀ tag ∈ tags, tag ∉ seen) ∧ tags.Nodup := by
  induction tags generalizing seen with
  | nil => simp [firstRepeated?]
  | cons tag rest ih =>
      rw [firstRepeated?, List.forall_mem_cons, List.nodup_cons]
      split
      · rename_i hseen
        simp [hseen]
      · rename_i hseen
        rw [ih]
        constructor
        · rintro ⟨hrest, hnodup⟩
          refine ⟨⟨hseen, fun other hother hmem => ?_⟩, fun hmem => ?_, hnodup⟩
          · exact hrest other hother (List.mem_append_left _ hmem)
          · exact hrest tag hmem (List.mem_append_right _ (List.mem_singleton_self tag))
        · rintro ⟨⟨-, hrest⟩, htag, hnodup⟩
          refine ⟨fun other hother hmem => ?_, hnodup⟩
          rcases List.mem_append.1 hmem with hmem | hmem
          · exact hrest other hother hmem
          · exact htag (List.mem_singleton.1 hmem ▸ hother)

/-- No tag occurs twice, and a field that is left out has no columns. -/
theorem validate_eq_ok {f : FieldMapping} :
    f.validate = .ok () ↔ (f.columns.map Prod.fst).Nodup ∧ (f.skipped = true → f.columns = []) := by
  have hnone : firstRepeated? [] (f.columns.map Prod.fst) = none ↔
      (f.columns.map Prod.fst).Nodup := by
    rw [firstRepeated?_eq_none]
    exact and_iff_right fun _ _ => List.not_mem_nil
  rw [validate, ← hnone]
  split
  · rename_i tag htag
    simp [htag]
  · rename_i hnone
    simp only [hnone, true_and]
    split
    · rename_i hskipped hcolumns
      simp [hskipped, hcolumns]
    · rename_i hother
      refine ⟨fun _ hskipped => ?_, fun _ => rfl⟩
      rcases hcolumns : f.columns with _ | ⟨⟨tag, column⟩, rest⟩
      · rfl
      · exact (hother tag column rest hskipped hcolumns).elim

/-- **All items of all attributes count together.** -/
theorem eq_of_ofAttributes {d : DeclaredField} {f : FieldMapping}
    (h : ofAttributes d.name d.attributes = .ok f) :
    f = ⟨d.name, d.items.contains .skip, d.items.filterMap Item.column?⟩ ∧
      f.validate = .ok () := by
  obtain ⟨hf, hvalid⟩ := foldlM_addAttribute rfl h
  refine ⟨?_, hvalid⟩
  rw [← hf, foldl_addItem, ofName, Bool.false_or, List.nil_append]
  rfl

end FieldMapping

namespace DeclaredField

variable {d : DeclaredField} {f : FieldMapping}

/-- A field has the columns that its attributes name. -/
theorem mem_columns (h : FieldMapping.ofAttributes d.name d.attributes = .ok f)
    {tag column : String} : (tag, column) ∈ f.columns ↔ .column tag column ∈ d.items := by
  rw [(FieldMapping.eq_of_ofAttributes h).1, List.mem_filterMap]
  constructor
  · rintro ⟨item, hitem, hcolumn⟩
    cases item with
    | skip => exact absurd hcolumn (by simp [Item.column?])
    | column =>
        obtain ⟨rfl, rfl⟩ := Prod.mk.inj (Option.some.inj hcolumn)
        exact hitem
  · exact fun hitem => ⟨_, hitem, rfl⟩

/-- What a field has for a tag is the one item of the tag. -/
theorem lookup_columns (h : FieldMapping.ofAttributes d.name d.attributes = .ok f)
    {tag column : String} :
    f.columns.lookup tag = some column ↔ .column tag column ∈ d.items := by
  rw [← mem_columns h]
  refine ⟨KeyMap.mem_of_lookup, fun hmem => KeyMap.lookup_eq_some_of_unique hmem ?_⟩
  intro other hother
  obtain ⟨hnodup, -⟩ := FieldMapping.validate_eq_ok.1 (FieldMapping.eq_of_ofAttributes h).2
  exact congrArg Prod.snd (List.inj_on_of_nodup_map hnodup hother hmem rfl)

/-- The one item of a tag. -/
theorem column_unique (h : FieldMapping.ofAttributes d.name d.attributes = .ok f)
    {tag column other : String} (hcolumn : .column tag column ∈ d.items)
    (hother : .column tag other ∈ d.items) : column = other :=
  Option.some.inj (((lookup_columns h).2 hcolumn).symm.trans ((lookup_columns h).2 hother))

/-- **A field has no column where it is left out.** -/
theorem column?_eq_none (h : FieldMapping.ofAttributes d.name d.attributes = .ok f)
    {tag : String} : f.column? tag = none ↔ d.excluded tag = true := by
  have hskipped : f.skipped = d.items.contains .skip :=
    congrArg FieldMapping.skipped (FieldMapping.eq_of_ofAttributes h).1
  have hexcluded : f.columns.lookup tag = some FieldMapping.excluded ↔
      d.items.contains (.column tag FieldMapping.excluded) = true := by
    rw [lookup_columns h, List.contains_iff_mem]
  rw [FieldMapping.column?, excluded, hskipped, Bool.or_eq_true, ← hexcluded]
  split
  · rename_i hskip
    exact iff_of_true rfl (.inl hskip)
  · rename_i hskip
    rw [or_iff_right hskip]
    split
    · rename_i column hcolumn
      rw [hcolumn, Option.some.injEq]
      split <;> simp_all
    · rename_i hnone
      rw [hnone]
      simp

/-- A column under a tag is the one that the attributes name, or the name of the field. -/
theorem hasColumn_of_column? (h : FieldMapping.ofAttributes d.name d.attributes = .ok f)
    {tag column : String} (hcolumn : f.column? tag = some column) : d.HasColumn tag column := by
  have hname : f.name = d.name :=
    congrArg FieldMapping.name (FieldMapping.eq_of_ofAttributes h).1
  constructor
  · rw [← Bool.not_eq_true, ← column?_eq_none h, hcolumn]
    exact Option.some_ne_none column
  · rw [FieldMapping.column?] at hcolumn
    split at hcolumn
    · exact absurd hcolumn (by simp)
    · split at hcolumn
      · rename_i given hgiven
        split at hcolumn
        · exact absurd hcolumn (by simp)
        · obtain rfl := Option.some.inj hcolumn
          exact .inl ((lookup_columns h).1 hgiven)
      · rename_i hnone
        obtain rfl := Option.some.inj hcolumn
        refine .inr ⟨hname, fun other hother => ?_⟩
        rw [(lookup_columns h).2 hother] at hnone
        exact absurd hnone (by simp)

/-- **A field has the column of its item for the tag, or else its own name.** -/
theorem column?_eq_some (h : FieldMapping.ofAttributes d.name d.attributes = .ok f)
    {tag column : String} : f.column? tag = some column ↔ d.HasColumn tag column := by
  refine ⟨hasColumn_of_column? h, fun hcolumn => ?_⟩
  cases hfound : f.column? tag with
  | none =>
      have hexcluded := (column?_eq_none h).1 hfound
      rw [hcolumn.included] at hexcluded
      exact absurd hexcluded Bool.false_ne_true
  | some found =>
      rcases hcolumn.column, (hasColumn_of_column? h hfound).column with
        ⟨hitem | ⟨hname, hnone⟩, hitem' | ⟨hname', hnone'⟩⟩
      · rw [column_unique h hitem hitem']
      · exact absurd hitem (hnone' column)
      · exact absurd hitem' (hnone found)
      · rw [hname, hname']

/-- The tags that a field names are those of its items. -/
theorem mem_tags (h : FieldMapping.ofAttributes d.name d.attributes = .ok f) {tag : String} :
    tag ∈ f.columns.map Prod.fst ↔ ∃ column, .column tag column ∈ d.items := by
  rw [List.mem_map]
  constructor
  · rintro ⟨⟨tag, column⟩, hmem, rfl⟩
    exact ⟨column, (mem_columns h).1 hmem⟩
  · rintro ⟨column, hmem⟩
    exact ⟨(tag, column), (mem_columns h).2 hmem, rfl⟩

end DeclaredField

/-! ## Tags of a declaration -/

/-- The tags of a structure are the standard one and those of its fields. -/
theorem FieldMapping.mem_knownTags {fields : List FieldMapping} {tag : String} :
    tag ∈ knownTags fields ↔
      tag = Settings.standardTag ∨ ∃ f ∈ fields, tag ∈ f.columns.map Prod.fst := by
  have hfold : ∀ named known : List String,
      tag ∈ named.foldl (fun tags tag => if tag ∈ tags then tags else tags ++ [tag]) known ↔
        tag ∈ known ∨ tag ∈ named := by
    intro named
    induction named with
    | nil => simp
    | cons other rest ih =>
        intro known
        rw [List.foldl_cons, ih, List.mem_cons]
        split
        · rename_i hknown
          constructor
          · exact fun h => h.imp_right .inr
          · rintro (h | rfl | h)
            · exact .inl h
            · exact .inl hknown
            · exact .inr h
        · rw [List.mem_append, List.mem_singleton, or_assoc]
  rw [knownTags, hfold, List.mem_singleton, List.mem_flatMap]

/-- The mappings of a declaration are those of its fields one by one. -/
theorem Declaration.mappings_named_eq_ok {derivation : Derivation} {ds : List DeclaredField}
    {mappings : List FieldMapping} :
    (Declaration.named ds).mappings derivation = .ok mappings ↔
      List.Forall₂ (fun d f => FieldMapping.ofAttributes d.name d.attributes = .ok f) ds
        mappings := by
  rw [Declaration.mappings, mapError_eq_ok]
  induction ds generalizing mappings with
  | nil =>
      rw [List.forall₂_nil_left_iff]
      exact pure_eq_ok.trans eq_comm
  | cons d ds ih =>
      rw [List.mapM_cons, List.forall₂_cons_left_iff]
      simp only [bind_eq_ok, pure_eq_ok, ih]
      constructor
      · rintro ⟨f, hf, rest, hrest, rfl⟩
        exact ⟨f, rest, hf, hrest, rfl⟩
      · rintro ⟨f, rest, hf, hrest, rfl⟩
        exact ⟨f, hf, rest, hrest, rfl⟩

end BoundSql
