import BoundSql.Proofs.Record.Attributes
import BoundSql.Record.Basic

/-!
# Records and the rows they are read from

A record and its type have the same columns under every tag, in the order in which the fields
are declared (`RecordType.columns_ofFields`).  A row is read by names, so wherever the columns
of a record stand in it and whatever other columns it has, reading gives back every field that
has a column under the standard tag, if it is decoded as what it was encoded from
(`Fields.fromRow_eq_kept_iff`); a field without one is left as its default.
-/

namespace BoundSql

/-! ## Columns -/

namespace FieldMapping

variable {fields : List FieldMapping} {tag : String}

/-- The columns under a tag are those of the fields, in order. -/
theorem map_mapped (fields : List FieldMapping) (tag : String) :
    (mapped fields tag).map Prod.fst = fields.filterMap (·.column? tag) := by
  rw [mapped, List.map_filterMap]
  refine List.filterMap_congr fun f _ => ?_
  cases f.column? tag <;> rfl

/-- A structure has columns under a tag if the tag is known and some field has one. -/
theorem columns?_eq_some {columns : List String} : columns? fields tag = some columns ↔
    tag ∈ knownTags fields ∧ columns ≠ [] ∧ fields.filterMap (·.column? tag) = columns := by
  rw [← map_mapped, columns?]
  split
  · rename_i hknown
    rw [and_iff_right hknown]
    split
    · rename_i hnone
      rw [hnone]
      simp [eq_comm]
    · rename_i hsome
      rw [Option.some.injEq]
      refine ⟨fun h => ⟨?_, h⟩, And.right⟩
      rintro rfl
      exact hsome (List.map_eq_nil_iff.1 h)
  · rename_i hunknown
    simp [hunknown]

/-- A structure has no columns under a tag if the tag is not known or no field has one. -/
theorem columns?_eq_none : columns? fields tag = none ↔
    tag ∉ knownTags fields ∨ ∀ f ∈ fields, f.column? tag = none := by
  rw [← List.filterMap_eq_nil_iff, ← map_mapped, List.map_eq_nil_iff, columns?]
  by_cases hknown : tag ∈ knownTags fields
  · rw [if_pos hknown, or_iff_right (not_not_intro hknown)]
    split <;> simp_all
  · rw [if_neg hknown]
    exact iff_of_true rfl (.inl hknown)

end FieldMapping

namespace Fields

/-- The pairs under a tag have the columns of the fields, in order. -/
theorem map_mapped (tag : String) : ∀ (fs : List Field) (r : Fields fs),
    (mapped tag fs r).map Prod.fst = (fs.map Field.mapping).filterMap (·.column? tag)
  | [], () => rfl
  | f :: fs, (datum, rest) => by
      rw [mapped, List.map_cons, List.filterMap_cons]
      split
      · rename_i column hcolumn
        rw [hcolumn, List.map_cons, map_mapped tag fs rest]
      · rename_i hnone
        rw [hnone, map_mapped tag fs rest]

/-- A record has pairs under a tag if the tag is known and some field has a column. -/
theorem fields_eq_some {fs : List Field} {r : Fields fs} {tag : String}
    {pairs : List (String × Value)} : fields fs r tag = some pairs ↔
      tag ∈ FieldMapping.knownTags (fs.map Field.mapping) ∧ pairs ≠ [] ∧
        mapped tag fs r = pairs := by
  rw [fields]
  split
  · rename_i hknown
    rw [and_iff_right hknown]
    split
    · rename_i hnone
      rw [hnone]
      simp [eq_comm]
    · rename_i hsome
      rw [Option.some.injEq]
      refine ⟨fun h => ⟨fun hnil => hsome (h.trans hnil), h⟩, And.right⟩
  · rename_i hunknown
    simp [hunknown]

end Fields

/-- **A record has the columns of its type,** in the order of the fields. -/
theorem RecordType.columns_ofFields (name : String) (fs : List Field) (r : Fields fs)
    (tag : String) :
    (RecordType.ofFields name fs).columns tag =
      ((Record.ofFields fs r).fields tag).map (·.map Prod.fst) := by
  refine Option.ext fun columns => ?_
  show FieldMapping.columns? _ tag = some columns ↔ _
  rw [FieldMapping.columns?_eq_some, ← Fields.map_mapped tag fs r, Option.map_eq_some_iff]
  constructor
  · rintro ⟨hknown, hne, rfl⟩
    exact ⟨_, Fields.fields_eq_some.2 ⟨hknown, fun h => hne (by rw [h]; rfl), rfl⟩, rfl⟩
  · rintro ⟨pairs, hpairs, rfl⟩
    obtain ⟨hknown, hne, rfl⟩ := Fields.fields_eq_some.1 hpairs
    exact ⟨hknown, fun h => hne (List.map_eq_nil_iff.1 h), rfl⟩

/-! ## Rows -/

/-- A column is looked up among the columns that have a value. -/
theorem Row.get?_eq_lookup (row : Row) (column : String) :
    row.get? column = (row.columns.zip row.values).lookup column := by
  obtain ⟨columns, values⟩ := row
  show (columns.findIdx? (· == column) >>= fun i => values[i]?) = _
  induction columns generalizing values with
  | nil => rfl
  | cons name columns ih =>
      cases values with
      | nil =>
          rw [List.zip_nil_right]
          cases (name :: columns).findIdx? (· == column) <;> rfl
      | cons value values =>
          rw [List.zip_cons_cons, KeyMap.lookup_cons, ← ih values, List.findIdx?_cons]
          by_cases h : column = name
          · rw [if_pos h, if_pos (beq_iff_eq.2 h.symm)]
            rfl
          · rw [if_neg h, if_neg (fun heq => h (beq_iff_eq.1 heq).symm)]
            cases columns.findIdx? (· == column) <;> rfl

/-- What a row has for a column if no other of its columns has the name. -/
theorem Row.get?_of_perm {row : Row} {pairs others : List (String × Value)}
    (hrow : (row.columns.zip row.values).Perm (pairs ++ others))
    (hpairs : (pairs.map Prod.fst).Nodup) (hothers : ∀ other ∈ others, other.1 ∉ pairs.map Prod.fst)
    {pair : String × Value} (hpair : pair ∈ pairs) : row.get? pair.1 = some pair.2 := by
  rw [get?_eq_lookup]
  refine KeyMap.lookup_eq_some_of_unique (hrow.mem_iff.2 (List.mem_append_left _ hpair)) ?_
  intro value hvalue
  rcases List.mem_append.1 (hrow.mem_iff.1 hvalue) with hvalue | hvalue
  · exact congrArg Prod.snd (List.inj_on_of_nodup_map hpairs hvalue hpair rfl)
  · exact absurd (List.mem_map_of_mem hpair) (hothers (pair.1, value) hvalue)

/-- A datum is read back from the value it becomes. -/
def Codec.Reads {α : Type} (c : Codec α) (a : α) : Prop := c.decode (c.encode a) = .ok a

namespace Fields

/-- What a row keeps of a record: the fields that have a column under the standard tag; the
others are left as their defaults. -/
def kept : (fs : List Field) → Fields fs → Fields fs
  | [], () => ()
  | f :: fs, (datum, rest) =>
    (if (f.mapping.column? Settings.standardTag).isSome then datum else f.absent, kept fs rest)

/-- Every field that has a column is read back. -/
def ReadBack : (fs : List Field) → Fields fs → Prop
  | [], () => True
  | f :: fs, (datum, rest) =>
    ((f.mapping.column? Settings.standardTag).isSome → f.codec.Reads datum) ∧ ReadBack fs rest

/-- A record is read back if the codecs of the fields that are read give their data back. -/
theorem readBack_of_codecs : ∀ {fs : List Field},
    (∀ f ∈ fs, (f.mapping.column? Settings.standardTag).isSome → ∀ x, f.codec.Reads x) →
      ∀ r : Fields fs, ReadBack fs r
  | [], _, () => trivial
  | f :: fs, hcodec, (datum, rest) => by
      obtain ⟨hfirst, hothers⟩ := List.forall_mem_cons.1 hcodec
      exact ⟨fun hcolumn => hfirst hcolumn datum, readBack_of_codecs hothers rest⟩

/-- **A record is read back just when its fields are,** from a row that has its columns. -/
theorem fromRow_eq_kept_iff {row : Row} : ∀ {fs : List Field} {r : Fields fs},
    (∀ pair ∈ mapped Settings.standardTag fs r, row.get? pair.1 = some pair.2) →
      (fromRow fs row = .ok (kept fs r) ↔ ReadBack fs r)
  | [], (), _ => iff_of_true rfl trivial
  | f :: fs, (datum, rest), hget => by
      rw [mapped] at hget
      rw [fromRow, kept, ReadBack]
      cases hcolumn : f.mapping.column? Settings.standardTag with
      | none =>
          rw [hcolumn] at hget
          have hcodec : ((none : Option String).isSome = true → f.codec.Reads datum) :=
            fun h => absurd h Bool.false_ne_true
          rw [and_iff_right hcodec, ← fromRow_eq_kept_iff hget]
          exact map_pair_eq_ok.trans (and_iff_right rfl)
      | some column =>
          rw [hcolumn] at hget
          obtain ⟨hpair, hrest⟩ := List.forall_mem_cons.1 hget
          have hdecode : row.decode f.codec column =
              (f.codec.decode (f.codec.encode datum)).mapError fun fault =>
                .decode column fault.message := by
            rw [Row.decode, hpair]
          simp only [Option.isSome_some, true_implies, if_true, hdecode]
          rw [← fromRow_eq_kept_iff hrest, Codec.Reads]
          cases f.codec.decode (f.codec.encode datum) with
          | error e => simp [Except.mapError]
          | ok read =>
              rw [Except.ok.injEq]
              exact map_pair_eq_ok

/-- **A record is read back** from a row that has its columns. -/
theorem fromRow_eq_kept {row : Row} {fs : List Field} {r : Fields fs}
    (hcodec : ∀ f ∈ fs, (f.mapping.column? Settings.standardTag).isSome →
      ∀ x, f.codec.decode (f.codec.encode x) = .ok x)
    (hget : ∀ pair ∈ mapped Settings.standardTag fs r, row.get? pair.1 = some pair.2) :
    fromRow fs row = .ok (kept fs r) :=
  (fromRow_eq_kept_iff hget).2 (readBack_of_codecs hcodec r)

end Fields

/-! ## Declarations -/

namespace Declaration

/-- The fields have the mappings that are declared, one by one. -/
def Declares (ds : List DeclaredField) (fields : List FieldMapping) : Prop :=
  List.Forall₂ (fun d f => FieldMapping.ofAttributes d.name d.attributes = .ok f) ds fields

variable {ds : List DeclaredField} {fields : List FieldMapping}

/-- What holds of all fields as they are declared holds of their mappings. -/
theorem Declares.forall_iff (h : Declares ds fields) {P : DeclaredField → Prop}
    {Q : FieldMapping → Prop}
    (hiff : ∀ d f, FieldMapping.ofAttributes d.name d.attributes = .ok f → (P d ↔ Q f)) :
    (∀ d ∈ ds, P d) ↔ ∀ f ∈ fields, Q f := by
  induction h with
  | nil => simp
  | cons hf _ ih => rw [List.forall_mem_cons, List.forall_mem_cons, hiff _ _ hf, ih]

/-- The columns are those of the fields that are not left out, in order. -/
theorem Declares.hasColumns (h : Declares ds fields) (tag : String) :
    List.Forall₂ (DeclaredField.HasColumn tag) (ds.filter fun d => !d.excluded tag)
      (fields.filterMap (·.column? tag)) := by
  induction h with
  | nil => exact .nil
  | @cons d f _ _ hf _ ih =>
      rw [List.filterMap_cons]
      cases hcolumn : f.column? tag with
      | none =>
          rw [List.filter_cons_of_neg (by simp [(DeclaredField.column?_eq_none hf).1 hcolumn])]
          exact ih
      | some column =>
          have hfield := (DeclaredField.column?_eq_some hf).1 hcolumn
          rw [List.filter_cons_of_pos (by simp [hfield.included])]
          exact .cons hfield ih

/-- A structure has no columns under a tag if no attribute names it or every field is left out. -/
theorem Declares.columns?_eq_none (h : Declares ds fields) {tag : String} :
    FieldMapping.columns? fields tag = none ↔
      (tag ≠ Settings.standardTag ∧ ∀ d ∈ ds, ∀ column, .column tag column ∉ d.items) ∨
        ∀ d ∈ ds, d.excluded tag = true := by
  have hunknown : (∀ d ∈ ds, ∀ column, .column tag column ∉ d.items) ↔
      ∀ f ∈ fields, tag ∉ f.columns.map Prod.fst :=
    h.forall_iff fun d f hf => by rw [DeclaredField.mem_tags hf, not_exists]
  have hexcluded : (∀ d ∈ ds, d.excluded tag = true) ↔ ∀ f ∈ fields, f.column? tag = none :=
    h.forall_iff fun d f hf => (DeclaredField.column?_eq_none hf).symm
  rw [FieldMapping.columns?_eq_none, FieldMapping.mem_knownTags, hunknown, hexcluded, not_or]
  simp only [not_exists, not_and]

/-- The table of columns has those of the record type for every tag. -/
theorem Declares.lookup_recordColumns (h : Declares ds fields) :
    ∃ table, (named ds).recordColumns = .ok table ∧ ∀ tag,
      FieldMapping.columns? fields tag = (table.lookup tag).map (·.map Prod.fst) := by
  refine ⟨_, bind_eq_ok.2 ⟨fields, mappings_named_eq_ok.2 h, rfl⟩, fun tag => ?_⟩
  set table := (FieldMapping.knownTags fields).filterMap _ with htable
  have hmem : ∀ {tag columns}, (tag, columns) ∈ table ↔
      tag ∈ FieldMapping.knownTags fields ∧ FieldMapping.mapped fields tag ≠ [] ∧
        (FieldMapping.mapped fields tag).map (fun entry => (entry.1, entry.2.name)) = columns := by
    intro tag columns
    rw [htable, List.mem_filterMap]
    constructor
    · rintro ⟨known, hknown, hentry⟩
      split at hentry
      · exact absurd hentry (by simp)
      · rename_i hsome
        obtain ⟨rfl, rfl⟩ := Prod.mk.inj (Option.some.inj hentry)
        exact ⟨hknown, hsome, rfl⟩
    · rintro ⟨hknown, hne, rfl⟩
      refine ⟨tag, hknown, ?_⟩
      split
      · exact absurd ‹_› hne
      · rfl
  refine Option.ext fun columns => ?_
  rw [FieldMapping.columns?_eq_some, Option.map_eq_some_iff, ← FieldMapping.map_mapped]
  constructor
  · rintro ⟨hknown, hne, rfl⟩
    refine ⟨_, KeyMap.lookup_eq_some_of_unique (hmem.2 ⟨hknown, ?_, rfl⟩) ?_, ?_⟩
    · rintro hnil
      exact hne (by rw [hnil]; rfl)
    · rintro other hother
      exact (hmem.1 hother).2.2.symm
    · rw [List.map_map]
      rfl
  · rintro ⟨entries, hlookup, rfl⟩
    obtain ⟨hknown, hne, rfl⟩ := hmem.1 (KeyMap.mem_of_lookup hlookup)
    rw [List.map_map]
    exact ⟨hknown, fun hnil => hne (List.map_eq_nil_iff.1 hnil), rfl⟩

end Declaration

/-- **Reading a row is the inverse of listing a record.**  For every structure whose
attributes are accepted: under every tag the type has the columns of the derived table and of
every record, one for each field that is not left out, in the order in which the fields are
declared, and none if the tag is neither the standard one nor named by a field, or if every
field is left out.  If
there are columns under the standard tag, all different, and every field that has one is
decoded as what it was encoded from, then a record is read back from every row that has its
columns and values, in any order and among other columns of different names: the fields with
a column are those of the record, the others are left as their defaults. -/
theorem RecordType.reads_back {derivation : Derivation} {ds : List DeclaredField}
    {fs : List Field} (h : (Declaration.named ds).mappings derivation = .ok (fs.map Field.mapping))
    (name : String) :
    let t := RecordType.ofFields name fs
    (∃ table, (Declaration.named ds).recordColumns = .ok table ∧
        ∀ tag, t.columns tag = (table.lookup tag).map (·.map Prod.fst)) ∧
      (∀ tag r, t.columns tag = ((Record.ofFields fs r).fields tag).map (·.map Prod.fst)) ∧
      (∀ tag columns, t.columns tag = some columns →
        List.Forall₂ (DeclaredField.HasColumn tag) (ds.filter fun d => !d.excluded tag) columns) ∧
      (∀ tag, t.columns tag = none ↔
        (tag ≠ Settings.standardTag ∧ ∀ d ∈ ds, ∀ column, .column tag column ∉ d.items) ∨
          ∀ d ∈ ds, d.excluded tag = true) ∧
      ∀ columns, t.columns Settings.standardTag = some columns → columns.Nodup →
        (∀ f ∈ fs, (f.mapping.column? Settings.standardTag).isSome →
          ∀ x, f.codec.decode (f.codec.encode x) = .ok x) →
        ∀ r, ∃ pairs, (Record.ofFields fs r).fields Settings.standardTag = some pairs ∧
          ∀ (row : Row) others, (row.columns.zip row.values).Perm (pairs ++ others) →
            (∀ other ∈ others, other.1 ∉ pairs.map Prod.fst) →
              t.fromRow row = .ok (Fields.kept fs r) := by
  intro t
  have hdeclares : Declaration.Declares ds (fs.map Field.mapping) :=
    Declaration.mappings_named_eq_ok.1 h
  refine ⟨hdeclares.lookup_recordColumns, fun tag r => RecordType.columns_ofFields name fs r tag,
    fun tag columns hcolumns => ?_, fun tag => hdeclares.columns?_eq_none,
    fun columns hcolumns hnodup hcodec r => ?_⟩
  · obtain ⟨-, -, rfl⟩ := FieldMapping.columns?_eq_some.1 hcolumns
    exact hdeclares.hasColumns tag
  · rw [RecordType.columns_ofFields name fs r, Option.map_eq_some_iff] at hcolumns
    obtain ⟨pairs, hpairs, rfl⟩ := hcolumns
    obtain ⟨-, -, hmapped⟩ := Fields.fields_eq_some.1 hpairs
    refine ⟨pairs, hpairs, fun row others hrow hothers => ?_⟩
    refine Fields.fromRow_eq_kept hcodec fun pair hpair => ?_
    rw [hmapped] at hpair
    exact Row.get?_of_perm hrow hnodup hothers hpair

/-- A structure with a renamed field, one that is left out under every tag, and one that is
left out under the standard tag alone, read from a row with another column between. -/
theorem RecordType.reads_back_user :
    let ds : List DeclaredField := [⟨"id", ["db = \"user_id\""]⟩, ⟨"name", []⟩,
      ⟨"secret", ["skip"]⟩, ⟨"note", ["db = \"-\"", "api = \"text\""]⟩]
    let fs : List Field := [⟨⟨"id", false, [("db", "user_id")]⟩, String, Codec.text, ""⟩,
      ⟨⟨"name", false, []⟩, String, Codec.text, ""⟩,
      ⟨⟨"secret", true, []⟩, Bool, Codec.bool, false⟩,
      ⟨⟨"note", false, [("db", "-"), ("api", "text")]⟩, String, Codec.text, "none"⟩]
    let t := RecordType.ofFields "User" fs
    (Declaration.named ds).mappings .record = .ok (fs.map Field.mapping) ∧
      t.columns "api" = some ["id", "name", "text"] ∧ t.columns "json" = none ∧
      t.fromRow ⟨["name", "age", "user_id"], [.text "Ann", .int 7, .text "u1"]⟩ =
        .ok ("u1", "Ann", false, "none", ()) := by
  intro ds fs t
  have hmappings : (Declaration.named ds).mappings .record = .ok (fs.map Field.mapping) :=
    Declaration.mappings_named_eq_ok.2 <|
      .cons (by decide +kernel) <| .cons rfl <| .cons (by decide +kernel) <|
        .cons (by decide +kernel) .nil
  obtain ⟨-, -, -, -, hread⟩ := RecordType.reads_back hmappings "User"
  have hcodec : ∀ f ∈ fs, (f.mapping.column? Settings.standardTag).isSome →
      ∀ x, f.codec.decode (f.codec.encode x) = .ok x := by
    simp only [fs, List.forall_mem_cons]
    exact ⟨fun _ _ => rfl, fun _ _ => rfl, fun _ _ => rfl, fun _ _ => rfl,
      fun _ h => absurd h List.not_mem_nil⟩
  obtain ⟨pairs, hpairs, hrow⟩ := hread ["user_id", "name"] rfl (by decide) hcodec
    ("u1", "Ann", true, "hidden", ())
  obtain rfl := Option.some.inj hpairs
  refine ⟨hmappings, rfl, rfl, hrow _ [("age", .int 7)] ?_ ?_⟩
  · exact (List.Perm.cons _ (.swap _ _ _)).trans (.swap _ _ _)
  · have hage : "age" ∉ ["user_id", "name"] := by decide
    exact List.forall_mem_singleton.2 hage

end BoundSql
