import BoundSql.Proofs.Record.Deriving

/-!
# JSON as a value and back

A JSON document becomes a value of the kind that fits it best: a scalar becomes a plain
value, an array or an object stays JSON.  Reading JSON takes a value of that kind, or a text
in which JSON is written.  The two do not meet: of what is written, arrays and objects are
read back and nothing else is (`Codec.reads_json_iff`).  Null, truth values and numbers are
of a kind that is not read, and a string is taken as the text of another document, which is
never the string, because reading takes at least the two quotes away
(`Json.length_of_ofText?`).

A record is read back from a row just when each of its fields with a column is
(`Fields.fromRow_eq_kept_iff`), so a JSON field is read back as long as it has containers
alone.
-/

namespace BoundSql

/-! ## Strings in a text -/

namespace StringUnit

/-- Units stand for at most as many characters. -/
theorem length_chars? {units : List StringUnit} {cs : List Char} (h : chars? units = some cs) :
    cs.length ≤ units.length := by
  fun_induction chars? units generalizing cs
  case case1 =>
      obtain rfl := Option.some.inj h
      exact Nat.le_refl 0
  case case2 ih | case7 ih =>
      obtain ⟨more, hmore, rfl⟩ := Option.map_eq_some_iff.1 h
      exact Nat.succ_le_succ (ih hmore)
  case case4 ih =>
      obtain ⟨more, hmore, rfl⟩ := Option.map_eq_some_iff.1 h
      exact Nat.succ_le_succ (Nat.le_succ_of_le (ih hmore))
  case case3 | case5 | case6 => simp at h

end StringUnit

namespace JsonText

/-- A unit in front of what is read has a character of its own at least. -/
theorem length_of_unit {u : StringUnit} {cs more rest : List Char} {units : List StringUnit}
    (hmore : more.length < cs.length)
    (ih : ∀ {units rest}, readString? more = some (units, rest) →
      units.length + 1 + rest.length ≤ more.length)
    (h : ((readString? more).bind fun read => some (u :: read.1, read.2)) = some (units, rest)) :
    units.length + 1 + rest.length ≤ cs.length := by
  obtain ⟨read, hread, h⟩ := Option.bind_eq_some_iff.1 h
  obtain ⟨rfl, rfl⟩ := Prod.mk.inj (Option.some.inj h)
  have hlength := ih hread
  rw [List.length_cons]
  omega

/-- A string has at most as many units as there are characters up to its closing quote. -/
theorem length_readString? {cs rest : List Char} {units : List StringUnit}
    (h : readString? cs = some (units, rest)) : units.length + 1 + rest.length ≤ cs.length := by
  fun_induction readString? cs generalizing units rest
  case case1 | case5 => simp at h
  case case2 ih =>
      obtain ⟨unit, -, h⟩ := Option.bind_eq_some_iff.1 h
      exact length_of_unit (by simp only [List.length_cons]; omega) ih h
  case case3 ih =>
      obtain ⟨c, -, h⟩ := Option.bind_eq_some_iff.1 h
      exact length_of_unit (by simp only [List.length_cons]; omega) ih h
  case case4 =>
      obtain ⟨rfl, rfl⟩ := Prod.mk.inj (Option.some.inj h)
      simp [Nat.add_comm]
  case case6 ih => exact length_of_unit (Nat.lt_succ_self _) ih h

/-- No word of letters is a text in quotes. -/
theorem readWord?_ne_string {cs rest : List Char} {units : List StringUnit} :
    readWord? cs ≠ some (.string units, rest) := by
  intro h
  rw [readWord?] at h
  split at h
  · simp at h
  · split at h
    · simp at h
    · split at h <;> simp at h

/-- What is read as a string starts with a quote behind white space. -/
theorem readString?_of_readValue? {fuel : Nat} {cs rest : List Char} {units : List StringUnit}
    (h : readValue? (fuel + 1) cs = some (.string units, rest)) :
    ∃ more, skipSpace cs = '\x22' :: more ∧ readString? more = some (units, rest) := by
  rw [readValue?] at h
  split at h
  · exact absurd h.symm (Option.some_ne_none _)
  · rename_i c more hcs
    split at h
    · rename_i hquote
      obtain ⟨⟨read, behind⟩, hread, heq⟩ := Option.map_eq_some_iff.1 h
      obtain ⟨hunits, rfl⟩ := Prod.mk.inj heq
      obtain rfl := JsonText.string.inj hunits
      exact ⟨more, hquote ▸ hcs, hread⟩
    · -- nothing else is read as a string
      split at h
      · split at h <;> simp at h
      · split at h
        · split at h <;> simp at h
        · split at h
          · simp at h
          · exact absurd h readWord?_ne_string

/-- Only a string has the value of a string. -/
theorem value?_eq_string {room : Nat} {tree : JsonText} {t : String}
    (h : tree.value? room = some (.string t)) :
    ∃ units, tree = .string units ∧ StringUnit.text? units = some t := by
  cases tree with
  | string units =>
      obtain ⟨read, hread, heq⟩ := Option.map_eq_some_iff.1 h
      exact ⟨units, rfl, hread.trans (congrArg some (Json.string.inj heq))⟩
  | null | bool b => simp [value?] at h
  | number n => simp [value?] at h
  | array items => simp [value?] at h
  | object members => simp [value?, Json.ofMembers] at h

end JsonText

namespace Json

/-- **A string that is read from a text is shorter than the text,** by its quotes at least. -/
theorem length_of_ofText? {s t : String} (h : ofText? s = some (.string t)) :
    t.length + 2 ≤ s.length := by
  obtain ⟨tree, htree, hvalue⟩ := Option.bind_eq_some_iff.1 h
  obtain ⟨units, rfl, htext⟩ := JsonText.value?_eq_string hvalue
  obtain ⟨⟨read, rest⟩, hread, hrest⟩ := Option.bind_eq_some_iff.1 htree
  have hunits : read = .string units := by
    simp only at hrest
    split at hrest
    · exact Option.some.inj hrest
    · exact absurd hrest.symm (Option.some_ne_none _)
  subst hunits
  obtain ⟨more, hspace, hstring⟩ := JsonText.readString?_of_readValue? hread
  obtain ⟨cs, hcs, rfl⟩ := Option.map_eq_some_iff.1 htext
  have hskipped : (JsonText.skipSpace s.toList).length ≤ s.toList.length :=
    (List.dropWhile_sublist _).length_le
  have hchars := StringUnit.length_chars? hcs
  have hlength := JsonText.length_readString? hstring
  rw [hspace, List.length_cons, String.length_toList] at hskipped
  rw [String.length_ofList]
  omega

/-- The document is an array or an object. -/
def isContainer : Json → Bool
  | .array _ | .object _ => true
  | _ => false

end Json

namespace Codec

/-- Null, truth values and numbers are of a kind that is not read as JSON. -/
theorem decode_scalar {j : Json} (hcontainer : j.isContainer = false)
    (hstring : ∀ s, j ≠ .string s) :
    json.decode (json.encode j) = .error (.mismatch "json" (json.encode j).kind) := by
  cases j with
  | null | bool b => rfl
  | number n =>
      cases n with
      | integer n lower upper =>
          have hencode : json.encode (.number (.integer n lower upper)) =
              if n < 0x8000000000000000 then .int (Int64.ofInt n)
              else .uint (UInt64.ofNat n.toNat) := rfl
          rw [hencode]
          split <;> rfl
      | double d finite => rfl
  | string s => exact absurd rfl (hstring s)
  | array items | object members => simp [Json.isContainer] at hcontainer

/-- A string is not read back. -/
theorem not_reads_string (s : String) : ¬json.Reads (.string s) := by
  intro h
  have hread : spelled "json" (Json.ofText? s) = .ok (.string s) := h
  cases hspelled : Json.ofText? s with
  | none => simp [hspelled, spelled] at hread
  | some j =>
      rw [hspelled] at hread
      obtain rfl := Except.ok.inj hread
      have hlength := Json.length_of_ofText? hspelled
      omega

/-- **Of JSON documents, arrays and objects are read back, and no others.** -/
theorem reads_json_iff {j : Json} : json.Reads j ↔ j.isContainer = true := by
  cases hj : j.isContainer with
  | false =>
      refine iff_of_false (fun h => ?_) Bool.false_ne_true
      by_cases hstring : ∃ s, j = .string s
      · obtain ⟨s, rfl⟩ := hstring
        exact not_reads_string s h
      · rw [Reads, decode_scalar hj fun s hs => hstring ⟨s, hs⟩] at h
        exact absurd h (by simp)
  | true =>
      refine iff_of_true ?_ rfl
      cases j with
      | array items | object members => rfl
      | null | bool b | number n | string s => exact absurd hj Bool.false_ne_true

end Codec

/-! ## Records -/

/-- A field of JSON. -/
def Field.json (mapping : FieldMapping) (absent : Json) : Field := ⟨mapping, Json, .json, absent⟩

/-- **JSON is read back where it is an array or an object.**  Of the other documents, null,
truth values and numbers are refused for their kind, and a string is taken as the text in
which another document is written; if that is a string, it is shorter.  So from a row with
its columns a record is read back just when its JSON fields with a column hold arrays and
objects and its other fields are read back. -/
theorem Codec.json_reads_containers (j : Json) :
    (json.decode (json.encode j) = .ok j ↔ j.isContainer = true) ∧
      (j.isContainer = false → (∀ s, j ≠ .string s) →
        json.decode (json.encode j) = .error (.mismatch "json" (json.encode j).kind)) ∧
      (∀ s, j = .string s →
        json.decode (json.encode j) = spelled "json" (Json.ofText? s) ∧
          ∀ t, Json.ofText? s = some (.string t) → t.length + 2 ≤ s.length) ∧
      (∀ mapping absent fs (r : Fields fs),
        Fields.ReadBack (.json mapping absent :: fs) (j, r) ↔
          ((mapping.column? Settings.standardTag).isSome → j.isContainer = true) ∧
            Fields.ReadBack fs r) ∧
      ∀ (fs : List Field) (r : Fields fs) (row : Row),
        (∀ pair ∈ Fields.mapped Settings.standardTag fs r, row.get? pair.1 = some pair.2) →
          (Fields.fromRow fs row = .ok (Fields.kept fs r) ↔ Fields.ReadBack fs r) := by
  refine ⟨reads_json_iff, decode_scalar, ?_, fun mapping absent fs r => ?_,
    fun fs r row => Fields.fromRow_eq_kept_iff⟩
  · rintro s rfl
    exact ⟨rfl, fun t => Json.length_of_ofText?⟩
  · exact and_congr_left fun _ => imp_congr_right fun _ => reads_json_iff

/-- An array of scalars in a record, with its columns in another order. -/
theorem Codec.json_reads_containers_array :
    let j : Json := .array [.null, .string "5"]
    let fs : List Field := [.json ⟨"j", false, []⟩ .null, ⟨⟨"s", false, []⟩, String, .text, ""⟩]
    j.isContainer = true ∧
      Fields.mapped Settings.standardTag fs (j, "x", ()) = [("j", .json j), ("s", .text "x")] ∧
      Fields.fromRow fs ⟨["s", "j"], [.text "x", .json j]⟩ = .ok (j, "x", ()) := by
  intro j fs
  obtain ⟨-, -, -, hfield, hrecord⟩ := json_reads_containers j
  have hback : Fields.ReadBack fs (j, "x", ()) :=
    (hfield ..).2 ⟨fun _ => rfl, fun _ => rfl, trivial⟩
  have hget : ∀ pair ∈ Fields.mapped Settings.standardTag fs (j, "x", ()),
      (⟨["s", "j"], [.text "x", .json j]⟩ : Row).get? pair.1 = some pair.2 :=
    List.forall_mem_cons.2 ⟨rfl, List.forall_mem_singleton.2 rfl⟩
  exact ⟨rfl, rfl, (hrecord fs (j, "x", ()) _ hget).2 hback⟩

/-- **Scalars are not read back.**  A number is refused, in a record as well, and a string
that spells a number is read as the number. -/
theorem Codec.json_loses_scalars :
    let five : Json := .number (.integer 5 (by decide) (by decide))
    let mapping : FieldMapping := ⟨"j", false, []⟩
    json.decode (json.encode five) = .error (.mismatch "json" "int") ∧
      json.decode (json.encode (.string "5")) = .ok five ∧
      Fields.mapped "db" [.json mapping .null] (five, ()) = [("j", .int 5)] ∧
      Fields.fromRow [.json mapping .null] ⟨["j"], [.int 5]⟩ =
        .error (.decode "j" "expected json, got int") :=
  ⟨rfl, rfl, rfl, rfl⟩

end BoundSql
