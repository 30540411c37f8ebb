import BoundSql.Template.Marker

/-!
# What a scan for markers passes over

A scan for markers goes through a statement with one bit of memory, the quoted
section that it is in.  A text is *passed over* if the scan meets no marker in it
and has left every quoted section at its end; such a text can stand anywhere in a
statement without a marker being lost or gained (`segments_append`).

A template whose texts are all passed over is *plain*.  Writing its values as
`?` and filling these markers again gives back the template under every style
of placeholders (`Template.emit_ofRaw`), so the markers of the written text are
exactly its values, in order (`Template.count_sql`).
-/

namespace BoundSql

namespace Quoting

/-- The section in which a text ends that goes on inside `section?`. -/
def afterAll (section? : Option Char) (cs : List Char) : Option Char := cs.foldl after section?

/-- A text that leaves every quoted section it enters. -/
def Closed (s : String) : Prop := afterAll none s.toList = none

instance (s : String) : Decidable (Closed s) := inferInstanceAs (Decidable (_ = _))

end Quoting

namespace Marker

/-- A scan that is inside `section?` meets no marker in a text, and is outside
quoted sections at its end. -/
def passes : Option Char → List Char → Bool
  | section?, [] => section?.isNone
  | section?, c :: rest =>
    !(section?.isNone && c == '?') && passes (Quoting.after section? c) rest

/-- Texts with a text in front of the first. -/
def prepend (cs : List Char) : List (List Char) → List (List Char)
  | [] => [cs]
  | segment :: more => (cs ++ segment) :: more

/-- Even a text without markers has a segment. -/
theorem segments_ne_nil (section? : Option Char) (cs : List Char) :
    segments section? cs ≠ [] := by
  cases cs with
  | nil => simp [segments]
  | cons c rest =>
      rw [segments]
      split
      · simp
      · split <;> simp

/-- Nothing in front changes nothing. -/
theorem prepend_nil {segments : List (List Char)} (h : segments ≠ []) :
    prepend [] segments = segments := by
  cases segments with
  | nil => exact absurd rfl h
  | cons segment more => rfl

/-- A marker outside the quotes ends a segment. -/
theorem segments_marker (rest : List Char) :
    segments none ('?' :: rest) = [] :: segments none rest := by
  simp [segments]

/-- What stands in front belongs to the first segment and adds none. -/
theorem length_prepend {cs : List Char} {segments : List (List Char)} (h : segments ≠ []) :
    (prepend cs segments).length = segments.length := by
  cases segments with
  | nil => exact absurd rfl h
  | cons segment more => rfl

/-- A character that is no marker belongs to the first segment. -/
theorem segments_cons {section? : Option Char} {c : Char} (h : ¬(section? = none ∧ c = '?'))
    (rest : List Char) :
    segments section? (c :: rest) = prepend [c] (segments (Quoting.after section? c) rest) := by
  rw [segments, if_neg h]
  split
  · rename_i hnil
    rw [hnil, prepend]
  · rename_i segment more hcons
    rw [hcons, prepend, List.singleton_append]

/-- A text passes if no marker stands first and the rest passes within the quotes that are open
then. -/
theorem passes_cons {section? : Option Char} {c : Char} {rest : List Char} :
    passes section? (c :: rest) = true ↔
      ¬(section? = none ∧ c = '?') ∧ passes (Quoting.after section? c) rest = true := by
  cases section? <;> simp [passes]

/-- **What is passed over lengthens the first segment of what follows.** -/
theorem segments_append {section? : Option Char} {cs : List Char}
    (h : passes section? cs = true) (rest : List Char) :
    segments section? (cs ++ rest) = prepend cs (segments none rest) := by
  induction cs generalizing section? with
  | nil =>
      obtain rfl : section? = none := by simpa [passes] using h
      rw [List.nil_append, prepend_nil (segments_ne_nil none rest)]
  | cons c cs ih =>
      obtain ⟨hc, hcs⟩ := passes_cons.1 h
      rw [List.cons_append, segments_cons hc, ih hcs]
      cases segments none rest <;> rfl

/-- The segments of a text that ends outside quoted sections are passed over, the
first one by a scan inside `section?`. -/
theorem passes_of_segments {section? : Option Char} {cs : List Char}
    (h : Quoting.afterAll section? cs = none) {first : List Char} {others : List (List Char)}
    (hs : segments section? cs = first :: others) :
    passes section? first = true ∧ ∀ segment ∈ others, passes none segment = true := by
  induction cs generalizing section? first others with
  | nil =>
      obtain rfl : section? = none := h
      obtain ⟨rfl, rfl⟩ := List.cons.inj hs
      exact ⟨rfl, fun _ hmem => absurd hmem List.not_mem_nil⟩
  | cons c cs ih =>
      by_cases hc : section? = none ∧ c = '?'
      · obtain ⟨rfl, rfl⟩ := hc
        rw [segments_marker] at hs
        obtain ⟨rfl, rfl⟩ := List.cons.inj hs
        obtain ⟨next, more, hnext⟩ := List.exists_cons_of_ne_nil (segments_ne_nil none cs)
        obtain ⟨hfirst, hmore⟩ := ih (show Quoting.afterAll none cs = none from h) hnext
        refine ⟨rfl, fun segment hmem => ?_⟩
        rw [hnext] at hmem
        rcases List.mem_cons.1 hmem with rfl | hmem
        · exact hfirst
        · exact hmore segment hmem
      · rw [segments_cons hc] at hs
        obtain ⟨next, more, hnext⟩ :=
          List.exists_cons_of_ne_nil (segments_ne_nil (Quoting.after section? c) cs)
        rw [hnext, prepend] at hs
        obtain ⟨rfl, rfl⟩ := List.cons.inj hs
        obtain ⟨hfirst, hmore⟩ :=
          ih (show Quoting.afterAll (Quoting.after section? c) cs = none from h) hnext
        exact ⟨passes_cons.2 ⟨hc, hfirst⟩, hmore⟩

/-- A single segment is the whole text. -/
theorem eq_of_segments_singleton {section? : Option Char} {cs segment : List Char}
    (h : segments section? cs = [segment]) : segment = cs := by
  induction cs generalizing section? segment with
  | nil => simpa [segments] using h.symm
  | cons c cs ih =>
      by_cases hc : section? = none ∧ c = '?'
      · obtain ⟨rfl, rfl⟩ := hc
        rw [segments_marker] at h
        exact absurd (List.cons.inj h).2 (segments_ne_nil none cs)
      · rw [segments_cons hc] at h
        obtain ⟨next, more, hnext⟩ :=
          List.exists_cons_of_ne_nil (segments_ne_nil (Quoting.after section? c) cs)
        rw [hnext, prepend] at h
        obtain ⟨rfl, rfl⟩ := List.cons.inj h
        rw [ih hnext, List.singleton_append]

/-- There is one segment more than there are markers. -/
theorem length_segments (sql : String) :
    (segments none sql.toList).length = count sql + 1 := by
  have := List.length_pos_iff.2 (segments_ne_nil none sql.toList)
  rw [count]
  omega

/-- A text without markers that leaves its quoted sections is passed over. -/
theorem passes_of_count {sql : String} (hcount : count sql = 0) (hclosed : Quoting.Closed sql) :
    passes none sql.toList = true := by
  have hlength := length_segments sql
  rw [hcount] at hlength
  obtain ⟨first, hfirst⟩ := List.length_eq_one_iff.1 hlength
  have hpasses := (passes_of_segments hclosed hfirst).1
  rwa [eq_of_segments_singleton hfirst] at hpasses

/-! ## Filling -/

/-- Every text of a filled statement is one of its segments, unless the values run
out. -/
theorem mem_fill {segments : List (List Char)} {values : List Value}
    (h : segments.length = values.length + 1) {s : String} (hs : .text s ∈ fill segments values) :
    ∃ segment ∈ segments, s = String.ofList segment := by
  induction segments generalizing values with
  | nil => simp at h
  | cons segment rest ih =>
      cases rest with
      | nil => exact ⟨segment, by simp, by simpa [fill] using hs⟩
      | cons next more =>
          cases values with
          | nil => simp at h
          | cons v values =>
              simp only [fill, List.mem_cons, Piece.text.injEq, reduceCtorEq, false_or] at hs
              rcases hs with rfl | hs
              · exact ⟨segment, by simp, rfl⟩
              · obtain ⟨found, hmem, rfl⟩ := ih (by simpa using h) hs
                exact ⟨found, List.mem_cons_of_mem _ hmem, rfl⟩

/-- Filling binds exactly the values, if there is one for each gap. -/
theorem params_fill {segments : List (List Char)} {values : List Value}
    (h : segments.length = values.length + 1) : (fill segments values).params = values := by
  induction segments generalizing values with
  | nil => simp at h
  | cons segment rest ih =>
      cases rest with
      | nil =>
          obtain rfl : values = [] := by simpa using h
          rfl
      | cons next more =>
          cases values with
          | nil => simp at h
          | cons v values =>
              simp only [fill, Template.params]
              rw [ih (by simpa using h)]

/-- A text in front of the segments goes in front of the filled statement. -/
theorem sqlFrom_fill_prepend (p : Placeholder) (index : Nat) (cs : List Char)
    {segments : List (List Char)} (h : segments ≠ []) (values : List Value) :
    Template.sqlFrom p index (fill (prepend cs segments) values) =
      String.ofList cs ++ Template.sqlFrom p index (fill segments values) := by
  cases segments with
  | nil => exact absurd rfl h
  | cons segment rest =>
      cases rest with
      | nil => simp [prepend, fill, Template.sqlFrom]
      | cons next more =>
          cases values <;>
            simp [prepend, fill, Template.sqlFrom, String.ofList_append, String.append_assoc]

end Marker

namespace Template

/-- All texts of the template are passed over by a scan for markers. -/
def Plain (t : Template) : Prop := ∀ s, Piece.text s ∈ t → Marker.passes none s.toList = true

theorem plain_nil : Plain [] := fun _ h => absurd h List.not_mem_nil

/-- A bound value leaves no marker in the text. -/
theorem plain_bind {v : Value} {t : Template} : Plain (.bind v :: t) ↔ Plain t := by
  simp [Plain]

/-- A text in front must pass by itself. -/
theorem plain_text {s : String} {t : Template} :
    Plain (.text s :: t) ↔ Marker.passes none s.toList = true ∧ Plain t := by
  simp [Plain]

/-- Two templates are plain together if each is. -/
theorem plain_append {s t : Template} : Plain (s ++ t) ↔ Plain s ∧ Plain t := by
  simp only [Plain, List.mem_append]
  exact ⟨fun h => ⟨fun x hx => h x (.inl hx), fun x hx => h x (.inr hx)⟩,
    fun h x hx => hx.elim (h.1 x) (h.2 x)⟩

/-- Joined templates are plain if they and the separator are. -/
theorem plain_join {separator : String} (hsep : Marker.passes none separator.toList = true)
    {members : List Template} (h : ∀ t ∈ members, Plain t) : Plain (join separator members) := by
  induction members with
  | nil => exact plain_nil
  | cons t rest ih =>
      have ht := h t (by simp)
      cases rest with
      | nil => exact ht
      | cons next more =>
          rw [join]
          · exact plain_append.2 ⟨ht, plain_text.2 ⟨hsep, ih fun u hu => h u (by simp [hu])⟩⟩
          · exact List.cons_ne_nil _ _

/-- Raw SQL with a value for every marker is plain if it leaves its quoted
sections. -/
theorem plain_ofRaw {sql : String} {values : List Value}
    (hcount : Marker.count sql = values.length) (hclosed : Quoting.Closed sql) :
    Plain (ofRaw sql values) := by
  have hlength := Marker.length_segments sql
  rw [hcount] at hlength
  obtain ⟨first, others, hs⟩ :=
    List.exists_cons_of_ne_nil (Marker.segments_ne_nil none sql.toList)
  obtain ⟨hfirst, hothers⟩ := Marker.passes_of_segments hclosed hs
  intro s hmem
  obtain ⟨segment, hsegment, rfl⟩ := Marker.mem_fill hlength hmem
  rw [String.toList_ofList]
  rw [hs] at hsegment
  rcases List.mem_cons.1 hsegment with rfl | hsegment
  · exact hfirst
  · exact hothers segment hsegment

/-- A text without markers is written into the first segment. -/
theorem segments_sqlFrom_text {s : String} (hs : Marker.passes none s.toList = true)
    (index : Nat) (t : Template) :
    Marker.segments none (sqlFrom .question index (.text s :: t)).toList =
      Marker.prepend s.toList (Marker.segments none (sqlFrom .question index t).toList) := by
  rw [sqlFrom, String.toList_append, Marker.segments_append hs]

/-- A bound value is written as a marker, which ends a segment. -/
theorem segments_sqlFrom_bind (v : Value) (index : Nat) (t : Template) :
    Marker.segments none (sqlFrom .question index (.bind v :: t)).toList =
      [] :: Marker.segments none (sqlFrom .question (index + 1) t).toList := by
  rw [sqlFrom, Placeholder.render, String.toList_append, show "?".toList = ['?'] from rfl,
    List.singleton_append, Marker.segments_marker]

/-- The written text of a plain template has a gap for each of its values. -/
theorem length_segments_sqlFrom {t : Template} (h : t.Plain) (index : Nat) :
    (Marker.segments none (sqlFrom .question index t).toList).length = t.params.length + 1 := by
  induction t generalizing index with
  | nil => rfl
  | cons piece rest ih =>
      cases piece with
      | text s =>
          obtain ⟨hs, hrest⟩ := plain_text.1 h
          rw [segments_sqlFrom_text hs, Marker.length_prepend (Marker.segments_ne_nil _ _),
            ih hrest, params]
      | bind v =>
          rw [segments_sqlFrom_bind, List.length_cons, ih (plain_bind.1 h), params,
            List.length_cons]

/-- **The markers of a written plain template are its values.** -/
theorem count_sql {t : Template} (h : t.Plain) :
    Marker.count (t.emit .question).sql = t.params.length := by
  rw [Marker.count, emit, length_segments_sqlFrom h 0, Nat.add_sub_cancel]

/-- Filling the markers of a written plain template with its values numbers them as
the template does. -/
theorem sqlFrom_fill {t : Template} (h : t.Plain) (p : Placeholder) (index start : Nat) :
    sqlFrom p index
        (Marker.fill (Marker.segments none (sqlFrom .question start t).toList) t.params) =
      sqlFrom p index t := by
  induction t generalizing index start with
  | nil => rfl
  | cons piece rest ih =>
      cases piece with
      | text s =>
          obtain ⟨hs, hrest⟩ := plain_text.1 h
          rw [segments_sqlFrom_text hs, params,
            Marker.sqlFrom_fill_prepend p index s.toList (Marker.segments_ne_nil _ _),
            ih hrest, String.ofList_toList, sqlFrom]
      | bind v =>
          rw [segments_sqlFrom_bind, params]
          obtain ⟨first, others, hs⟩ := List.exists_cons_of_ne_nil
            (Marker.segments_ne_nil none (sqlFrom .question (start + 1) rest).toList)
          rw [hs, Marker.fill]
          · rw [sqlFrom, String.ofList_nil, String.empty_append, sqlFrom, ← hs,
              ih (plain_bind.1 h), sqlFrom]
          · exact List.cons_ne_nil _ _

/-- **A written plain template can be filled again:** its text with `?` as raw SQL for
its values is the same statement under every style of placeholders. -/
theorem emit_ofRaw {t : Template} (h : t.Plain) (p : Placeholder) :
    (ofRaw (t.emit .question).sql t.params).emit p = t.emit p := by
  have hlength := length_segments_sqlFrom h 0
  rw [emit, emit, emit, ofRaw, sqlFrom_fill h, Marker.params_fill hlength]

end Template

end BoundSql
