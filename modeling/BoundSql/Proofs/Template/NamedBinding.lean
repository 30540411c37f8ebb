import BoundSql.Proofs.Except
import BoundSql.Proofs.Template.NamedMarkers

/-!
# Where the named markers of a text are

A marker is a colon outside quoted sections that is none of a pair, with the longest name
behind it (`Named.Marks`).  Colons are paired from the first of a run on, so a colon is free
just if an even number of colons stands right in front of it.  The scan never looks back: it
passes over pairs as it meets them, takes a name at once, and is in front of a free colon
whenever it meets one.  Both tell the same colons (`Named.markerAt_iff`).

So a statement with named markers is bound just if each of its markers has a value, and then
only the markers of its text are replaced (`Template.ofNamed_replaces_markers`).
-/

namespace BoundSql

namespace Named

/-- The number of colons at the end of a text. -/
def colonsAtEnd (cs : List Char) : Nat := (cs.reverse.takeWhile (· == ':')).length

/-- A colon between two texts is that of a marker of the name with which the second begins. -/
structure Marks (section? : Option Char) (before : List Char) (name : String)
    (after : List Char) : Prop where
  /-- The colon is outside quoted sections. -/
  outside : Quoting.afterAll section? before = none
  /-- The colons right in front of it are pairs. -/
  unpaired : colonsAtEnd before % 2 = 0
  isName : isName name = true
  /-- The name goes as far as it can. -/
  longest : after.head?.any inName = false

/-- In a text that goes on inside `section?`, a marker of the name follows the text before. -/
def MarkerAt (section? : Option Char) (cs before : List Char) (name : String) : Prop :=
  ∃ after, cs = before ++ ':' :: (name.toList ++ after) ∧ Marks section? before name after

/-- A part as it is in the text. -/
def Part.spell : Part → List Char
  | .char c => [c]
  | .marker name => ':' :: name.toList

/-- Among the parts, a marker of the name follows the text before. -/
def InParts (parts : List Part) (before : List Char) (name : String) : Prop :=
  ∃ done rest, parts = done ++ .marker name :: rest ∧ done.flatMap Part.spell = before

variable {section? : Option Char} {cs before : List Char} {name : String} {parts : List Part}

/-! ## Parts -/

/-- Without parts there is no marker. -/
theorem inParts_nil : ¬InParts [] before name := by
  rintro ⟨done, rest, h, -⟩
  exact absurd h.symm (by simp)

/-- A character stands in front of every marker behind it. -/
theorem inParts_char {c : Char} : InParts (.char c :: parts) before name ↔
    ∃ b, before = c :: b ∧ InParts parts b name := by
  constructor
  · rintro ⟨done, rest, h, rfl⟩
    cases done with
    | nil => exact absurd (List.cons.inj h).1 (by simp)
    | cons part done =>
        obtain ⟨rfl, hparts⟩ := List.cons.inj h
        exact ⟨done.flatMap Part.spell, rfl, done, rest, hparts, rfl⟩
  · rintro ⟨_, rfl, done, rest, rfl, rfl⟩
    exact ⟨.char c :: done, rest, rfl, rfl⟩

/-- A marker stands here, or behind this one. -/
theorem inParts_marker {found : String} : InParts (.marker found :: parts) before name ↔
    (before = [] ∧ name = found) ∨
      ∃ b, before = ':' :: (found.toList ++ b) ∧ InParts parts b name := by
  constructor
  · rintro ⟨done, rest, h, rfl⟩
    cases done with
    | nil => exact .inl ⟨rfl, (Part.marker.inj (List.cons.inj h).1).symm⟩
    | cons part done =>
        obtain ⟨rfl, hparts⟩ := List.cons.inj h
        exact .inr ⟨done.flatMap Part.spell, rfl, done, rest, hparts, rfl⟩
  · rintro (⟨rfl, rfl⟩ | ⟨_, rfl, done, rest, rfl, rfl⟩)
    · exact ⟨[], parts, rfl, rfl⟩
    · exact ⟨.marker found :: done, rest, rfl, rfl⟩

/-- **The parts of a text are all of it.** -/
theorem spell_partsFrom (section? : Option Char) (cs : List Char) :
    (partsFrom section? cs).flatMap Part.spell = cs := by
  fun_induction partsFrom section? cs
  case case1 => rfl
  case case2 hc more ih =>
      obtain ⟨rfl, rfl⟩ := hc
      rw [List.flatMap_cons, List.flatMap_cons, ih]
      rfl
  case case3 hc first more hne hfirst ih =>
      obtain ⟨rfl, rfl⟩ := hc
      rw [List.flatMap_cons, ih, Part.spell, String.toList_ofList, List.cons_append,
        List.cons_append, List.takeWhile_append_dropWhile]
  case case4 hc first more hne hfirst ih =>
      rw [List.flatMap_cons, ih]
      rfl
  case case5 => rfl
  case case6 hc ih =>
      rw [List.flatMap_cons, ih]
      rfl

/-! ## Colons -/

/-- Another character interrupts the run of colons. -/
theorem colonsAtEnd_append_cons {c : Char} (h : c ≠ ':') (cs more : List Char) :
    colonsAtEnd (cs ++ c :: more) = colonsAtEnd more := by
  have hstop : (c :: cs.reverse).head?.any (· == ':') = false := by simpa using h
  rw [colonsAtEnd, List.reverse_append, List.reverse_cons, List.append_assoc,
    List.singleton_append, Text.takeWhile_append hstop, colonsAtEnd]

/-- Another character has no part in the run of colons behind it. -/
theorem colonsAtEnd_cons {c : Char} (h : c ≠ ':') (cs : List Char) :
    colonsAtEnd (c :: cs) = colonsAtEnd cs := colonsAtEnd_append_cons h [] cs

/-- A pair in front changes nothing about which colons are free. -/
theorem colonsAtEnd_pair (cs : List Char) :
    colonsAtEnd (':' :: ':' :: cs) % 2 = colonsAtEnd cs % 2 := by
  rw [colonsAtEnd, colonsAtEnd, List.reverse_cons, List.reverse_cons, List.append_assoc,
    List.takeWhile_append]
  split
  · rename_i hall
    rw [hall]
    simp
  · rfl

/-- A section is left at its quote. -/
theorem mem_of_afterAll {quote : Char} (h : Quoting.afterAll (some quote) cs = none) :
    quote ∈ cs := by
  induction cs with
  | nil => exact absurd h (by simp [Quoting.afterAll])
  | cons c cs ih =>
      by_cases hc : c = quote
      · exact hc ▸ List.mem_cons_self
      · have hstay : Quoting.after (some quote) c = some quote := if_neg hc
        rw [Quoting.afterAll, List.foldl_cons, hstay] at h
        exact List.mem_cons_of_mem _ (ih h)

/-- No section is opened by a colon. -/
theorem after_ne_colon (h : section? ≠ some ':') (c : Char) :
    Quoting.after section? c ≠ some ':' := by
  cases section? with
  | none =>
      rw [Quoting.after.eq_2]
      split
      · rename_i hopens
        exact fun heq => ne_colon_of_opens hopens (Option.some.inj heq)
      · simp
  | some quote =>
      rw [Quoting.after.eq_1]
      split
      · simp
      · exact h

/-! ## Passing over text -/

/-- **What is passed over changes nothing about a marker behind it** if it takes nothing of a
pair. -/
theorem markerAt_append (done : List Char)
    (h : ∀ b, b ++ [':'] <+: cs → Quoting.afterAll (Quoting.afterAll section? done) b = none →
      colonsAtEnd (done ++ b) % 2 = colonsAtEnd b % 2) :
    MarkerAt section? (done ++ cs) (done ++ before) name ↔
      MarkerAt (Quoting.afterAll section? done) cs before name := by
  have hafter : Quoting.afterAll section? (done ++ before) =
      Quoting.afterAll (Quoting.afterAll section? done) before := List.foldl_append
  have hcolons : ∀ {after}, cs = before ++ ':' :: (name.toList ++ after) →
      Quoting.afterAll (Quoting.afterAll section? done) before = none →
      colonsAtEnd (done ++ before) % 2 = colonsAtEnd before % 2 := by
    intro after hcs
    exact h before ⟨name.toList ++ after, by rw [hcs, List.append_assoc, List.singleton_append]⟩
  refine exists_congr fun after => ?_
  rw [List.append_assoc, List.append_cancel_left_eq]
  refine and_congr_right fun hcs => ⟨fun hmarks => ?_, fun hmarks => ?_⟩
  · have houtside := hafter ▸ hmarks.outside
    exact ⟨houtside, hcolons hcs houtside ▸ hmarks.unpaired, hmarks.isName, hmarks.longest⟩
  · have houtside := hmarks.outside
    exact ⟨hafter.trans houtside, (hcolons hcs houtside).trans hmarks.unpaired, hmarks.isName,
      hmarks.longest⟩

/-- A name starts as one and has nothing but characters of names. -/
theorem isName_iff : isName name = true ↔
    name.toList.head?.any startsName = true ∧ name.toList.all inName = true := by
  rw [isName]
  cases name.toList with
  | nil => simp
  | cons first more =>
      have hfirst : startsName first = true → inName first = true := inName_of_startsName
      simp only [Bool.and_eq_true, List.head?_cons, Option.any_some, List.all_cons]
      constructor
      · rintro ⟨hstarts, hmore⟩
        exact ⟨hstarts, hfirst hstarts, hmore⟩
      · rintro ⟨hstarts, -, hmore⟩
        exact ⟨hstarts, hmore⟩

/-- An empty text has no marker. -/
theorem markerAt_nil : ¬MarkerAt section? [] before name := by
  rintro ⟨after, hcs, -⟩
  exact absurd hcs.symm (by simp)

/-- A character outside quoted sections that is no colon, or one inside a section. -/
theorem markerAt_char (hsection : section? ≠ some ':') {c : Char}
    (hc : ¬(section? = none ∧ c = ':')) : MarkerAt section? (c :: cs) before name ↔
      ∃ b, before = c :: b ∧ MarkerAt (Quoting.after section? c) cs b name := by
  have hcolons : ∀ b, b ++ [':'] <+: cs →
      Quoting.afterAll (Quoting.afterAll section? [c]) b = none →
        colonsAtEnd ([c] ++ b) % 2 = colonsAtEnd b % 2 := by
    intro b _ hb
    by_cases hcolon : c = ':'
    · -- inside a section the colons reach back no further than the quote that ends it
      subst hcolon
      obtain ⟨quote, rfl⟩ : ∃ quote, section? = some quote :=
        Option.ne_none_iff_exists'.1 fun hnone => hc ⟨hnone, rfl⟩
      have hquote : quote ≠ ':' := fun heq => hsection (congrArg some heq)
      have hstay : Quoting.afterAll (some quote) [':'] = some quote := if_neg hquote.symm
      rw [hstay] at hb
      obtain ⟨inside, more, rfl⟩ := List.append_of_mem (mem_of_afterAll hb)
      rw [← List.append_assoc, colonsAtEnd_append_cons hquote, colonsAtEnd_append_cons hquote]
    · exact congrArg (· % 2) (colonsAtEnd_cons hcolon b)
  have happend : ∀ b, MarkerAt section? (c :: cs) (c :: b) name ↔
      MarkerAt (Quoting.after section? c) cs b name := fun _ =>
    markerAt_append [c] hcolons
  cases before with
  | nil =>
      refine iff_of_false ?_ (by simp)
      rintro ⟨after, hcs, hmarks⟩
      exact hc ⟨hmarks.outside, (List.cons.inj hcs).1⟩
  | cons d b =>
      by_cases hd : c = d
      · subst hd
        simp [happend]
      · refine iff_of_false ?_ ?_
        · rintro ⟨after, hcs, -⟩
          exact hd (List.cons.inj hcs).1
        · rintro ⟨_, hb, -⟩
          exact hd (List.cons.inj hb).1.symm

/-- Behind the colon of a marker stands a character that starts a name. -/
theorem head?_of_marker {after : List Char} (hname : isName name = true)
    (hcs : cs = name.toList ++ after) : cs.head?.any startsName = true := by
  have hstarts := (isName_iff.1 hname).1
  rw [hcs]
  cases hfirst : name.toList with
  | nil => simp [hfirst] at hstarts
  | cons first more => rwa [hfirst] at hstarts

/-- Two colons together are a cast and no marker. -/
theorem markerAt_pair : MarkerAt none (':' :: ':' :: cs) before name ↔
    ∃ b, before = ':' :: ':' :: b ∧ MarkerAt none cs b name := by
  have happend : ∀ b, MarkerAt none (':' :: ':' :: cs) (':' :: ':' :: b) name ↔
      MarkerAt none cs b name := fun _ =>
    markerAt_append [':', ':'] fun b _ _ => colonsAtEnd_pair b
  constructor
  · rintro ⟨after, hcs, hmarks⟩
    rcases before with _ | ⟨c, _ | ⟨d, b⟩⟩
    · have hstarts := head?_of_marker hmarks.isName (List.cons.inj hcs).2
      exact absurd (show startsName ':' = true from hstarts) (by decide)
    · obtain rfl := (List.cons.inj hcs).1
      exact absurd hmarks.unpaired (by decide)
    · obtain ⟨rfl, hcs'⟩ := List.cons.inj hcs
      obtain rfl := (List.cons.inj hcs').1
      exact ⟨b, rfl, (happend b).1 ⟨after, hcs, hmarks⟩⟩
  · rintro ⟨b, rfl, h⟩
    exact (happend b).2 h

/-- A colon in front of neither a colon nor a name. -/
theorem markerAt_colon (hcolon : cs.head? ≠ some ':') (hname : cs.head?.any startsName = false) :
    MarkerAt none (':' :: cs) before name ↔ ∃ b, before = ':' :: b ∧ MarkerAt none cs b name := by
  have hcolons : ∀ b, b ++ [':'] <+: cs → Quoting.afterAll (Quoting.afterAll none [':']) b = none →
      colonsAtEnd ([':'] ++ b) % 2 = colonsAtEnd b % 2 := by
    rintro b ⟨rest, rfl⟩ -
    cases b with
    | nil => exact absurd rfl hcolon
    | cons d b =>
        have hd : d ≠ ':' := fun heq => hcolon (congrArg some heq)
        rw [colonsAtEnd_append_cons hd, colonsAtEnd_cons hd]
  have happend : ∀ b, MarkerAt none (':' :: cs) (':' :: b) name ↔ MarkerAt none cs b name :=
    fun _ => markerAt_append [':'] hcolons
  constructor
  · rintro ⟨after, hcs, hmarks⟩
    cases before with
    | nil =>
        have hstarts := head?_of_marker hmarks.isName (List.cons.inj hcs).2
        exact absurd (hname.symm.trans hstarts) (by simp)
    | cons c b =>
        obtain rfl := (List.cons.inj hcs).1
        exact ⟨b, rfl, (happend b).1 ⟨after, hcs, hmarks⟩⟩
  · rintro ⟨b, rfl, h⟩
    exact (happend b).2 h

/-- The characters of a name leave a scan outside quoted sections where it is. -/
theorem afterAll_of_inName {word : List Char} (h : word.all inName = true) :
    Quoting.afterAll none word = none := by
  induction word with
  | nil => rfl
  | cons c word ih =>
      obtain ⟨hc, hword⟩ := Bool.and_eq_true_iff.1 (List.all_cons.symm.trans h)
      have hstay : Quoting.after none c = none := if_neg (opens_eq_false_of_inName hc)
      rw [Quoting.afterAll, List.foldl_cons, hstay]
      exact ih hword

/-- What has no such item ends in front of it. -/
theorem exists_append_of_notMem {α : Type} {a : α} {xs ys zs ws : List α} (ha : a ∉ xs)
    (h : xs ++ ys = zs ++ a :: ws) : ∃ more, zs = xs ++ more := by
  rcases List.append_eq_append_iff.1 h with ⟨more, rfl, -⟩ | ⟨more, rfl, hmore⟩
  · exact ⟨more, rfl⟩
  · cases more with
    | nil => exact ⟨[], by simp⟩
    | cons b more =>
        obtain rfl := (List.cons.inj hmore).1
        exact absurd (by simp) ha

/-- A marker and what follows its name. -/
theorem markerAt_marker {found : String} {rest : List Char} (hfound : isName found = true)
    (hrest : rest.head?.any inName = false) :
    MarkerAt none (':' :: (found.toList ++ rest)) before name ↔ (before = [] ∧ name = found) ∨
      ∃ b, before = ':' :: (found.toList ++ b) ∧ MarkerAt none rest b name := by
  obtain ⟨hstarts, hword⟩ := isName_iff.1 hfound
  have hnone : Quoting.afterAll none (':' :: found.toList) = none := by
    rw [Quoting.afterAll, List.foldl_cons]
    exact afterAll_of_inName hword
  have hnotin : ':' ∉ found.toList := fun hmem =>
    absurd (List.all_eq_true.1 hword ':' hmem) (by decide)
  have hcolons : ∀ b, b ++ [':'] <+: rest →
      Quoting.afterAll (Quoting.afterAll none (':' :: found.toList)) b = none →
        colonsAtEnd (':' :: found.toList ++ b) % 2 = colonsAtEnd b % 2 := by
    intro b _ _
    have hnil : found.toList ≠ [] := fun hnil => by simp [hnil] at hstarts
    obtain ⟨front, last, hlast⟩ := (List.eq_nil_or_concat found.toList).resolve_left hnil
    have hne : last ≠ ':' := fun heq => hnotin (by simp [hlast, heq])
    rw [hlast, List.concat_eq_append, ← List.cons_append, List.append_assoc,
      List.singleton_append, colonsAtEnd_append_cons hne]
  have happend : ∀ b, MarkerAt none (':' :: (found.toList ++ rest)) (':' :: (found.toList ++ b))
      name ↔ MarkerAt none rest b name := by
    intro b
    have h : MarkerAt none (':' :: found.toList ++ rest) (':' :: found.toList ++ b) name ↔ _ :=
      markerAt_append (':' :: found.toList) hcolons
    rwa [hnone] at h
  constructor
  · rintro ⟨after, hcs, hmarks⟩
    cases before with
    | nil =>
        have htext := (List.cons.inj hcs).2
        have hword' := (isName_iff.1 hmarks.isName).2
        have hnames := congrArg (List.takeWhile inName) htext
        rw [Text.takeWhile_run hword hrest, Text.takeWhile_run hword' hmarks.longest] at hnames
        exact .inl ⟨rfl, String.toList_injective hnames.symm⟩
    | cons c b =>
        obtain ⟨rfl, htext⟩ := List.cons.inj hcs
        obtain ⟨b', rfl⟩ := exists_append_of_notMem hnotin htext
        exact .inr ⟨b', rfl, (happend b').1 ⟨after, hcs, hmarks⟩⟩
  · rintro (⟨rfl, rfl⟩ | ⟨b, rfl, h⟩)
    · exact ⟨rest, rfl, rfl, rfl, hfound, hrest⟩
    · exact (happend b).2 h

/-- **The scan finds the markers of a text and no others.** -/
theorem markerAt_iff (hsection : section? ≠ some ':') :
    MarkerAt section? cs before name ↔ InParts (partsFrom section? cs) before name := by
  fun_induction partsFrom section? cs generalizing before
  case case1 =>
      exact iff_of_false markerAt_nil inParts_nil
  case case2 hc more ih =>
      obtain ⟨rfl, rfl⟩ := hc
      rw [markerAt_pair, inParts_char]
      simp only [inParts_char, ih hsection]
      constructor
      · rintro ⟨b, rfl, h⟩
        exact ⟨_, rfl, b, rfl, h⟩
      · rintro ⟨_, rfl, b, rfl, h⟩
        exact ⟨b, rfl, h⟩
  case case3 hc first more hne hfirst ih =>
      obtain ⟨rfl, rfl⟩ := hc
      have hfound : isName (String.ofList (first :: more.takeWhile inName)) = true := by
        rw [isName, String.toList_ofList]
        exact Bool.and_eq_true_iff.2 ⟨hfirst, List.all_takeWhile⟩
      have hmarker : MarkerAt none _ before name ↔ _ :=
        markerAt_marker hfound (Text.head?_dropWhile more)
      rw [String.toList_ofList, List.cons_append, List.takeWhile_append_dropWhile] at hmarker
      rw [hmarker, inParts_marker]
      simp only [String.toList_ofList, ih hsection]
  case case4 hc first more hne hfirst ih =>
      obtain ⟨rfl, rfl⟩ := hc
      have hcolon : (first :: more).head? ≠ some ':' := fun heq => hne (Option.some.inj heq)
      have hname : (first :: more).head?.any startsName = false := by simpa using hfirst
      rw [markerAt_colon hcolon hname, inParts_char]
      simp only [ih hsection]
  case case5 hc =>
      obtain ⟨rfl, rfl⟩ := hc
      rw [markerAt_colon (by simp) rfl, inParts_char]
      exact exists_congr fun b => and_congr_right' (iff_of_false markerAt_nil inParts_nil)
  case case6 hc ih =>
      rw [markerAt_char hsection hc, inParts_char]
      simp only [ih (after_ne_colon hsection _)]

/-! ## Binding -/

/-- The name of a marker. -/
def Part.name? : Part → Option String
  | .char _ => none
  | .marker name => some name

/-- The text of parts with a placeholder for each marker, numbered from an index. -/
def written (p : Placeholder) : Nat → List Part → List Char
  | _, [] => []
  | index, .char c :: rest => c :: written p index rest
  | index, .marker _ :: rest => (p.render index).toList ++ written p (index + 1) rest

variable {lookup : ValueMap}

/-- A marker is bound to the value of its name. -/
theorem bindPart_marker_eq_ok {piece : Piece} :
    bindPart lookup (.marker name) = .ok piece ↔
      ∃ v, lookup.get? name = some v ∧ piece = .bind v := by
  rw [bindPart]
  cases lookup.get? name <;> simp [eq_comm]

/-- A marker is refused for want of a value, and the error names it. -/
theorem bindPart_marker_eq_error {e : SqlError} :
    bindPart lookup (.marker name) = .error e ↔
      lookup.get? name = none ∧ .validation s!"named parameter ':{name}' has no value" = e := by
  rw [bindPart]
  cases lookup.get? name <;> simp

/-- **Parts that are bound** have the values of their markers for parameters, and placeholders
in their places. -/
theorem params_of_mapM {t : Template} (h : parts.mapM (bindPart lookup) = .ok t) :
    t.params.map some = (parts.filterMap Part.name?).map lookup.get? ∧
      ∀ p index, (t.sqlFrom p index).toList = written p index parts := by
  induction parts generalizing t with
  | nil =>
      obtain rfl := pure_eq_ok.1 h
      exact ⟨rfl, fun _ _ => rfl⟩
  | cons part parts ih =>
      rw [List.mapM_cons] at h
      obtain ⟨piece, hpiece, h⟩ := bind_eq_ok.1 h
      obtain ⟨t, ht, h⟩ := bind_eq_ok.1 h
      obtain rfl := pure_eq_ok.1 h
      obtain ⟨hparams, hwritten⟩ := ih ht
      cases part with
      | char c =>
          obtain rfl := Except.ok.inj hpiece
          refine ⟨hparams, fun p index => ?_⟩
          rw [Template.sqlFrom, String.toList_append, hwritten, written, String.toList_singleton,
            List.singleton_append]
      | marker name =>
          obtain ⟨v, hv, rfl⟩ := bindPart_marker_eq_ok.1 hpiece
          refine ⟨?_, fun p index => ?_⟩
          · rw [Template.params, List.map_cons, hparams, ← hv]
            rfl
          · rw [Template.sqlFrom, String.toList_append, hwritten, written]

/-- Parts are refused because of their first marker without a value. -/
theorem mapM_eq_error {e : SqlError} : parts.mapM (bindPart lookup) = .error e ↔
    ∃ done name rest, parts = done ++ .marker name :: rest ∧
      (∀ found, .marker found ∈ done → lookup.get? found ≠ none) ∧ lookup.get? name = none ∧
        .validation s!"named parameter ':{name}' has no value" = e := by
  rw [← errorOf?_eq_some, errorOf?_mapM, List.findSome?_eq_some_iff]
  simp only [errorOf?_eq_some]
  constructor
  · rintro ⟨done, part, rest, hparts, hpart, hdone⟩
    cases part with
    | char c => exact absurd hpart (by simp [bindPart])
    | marker name =>
        refine ⟨done, name, rest, hparts, fun found hmem hnone => ?_,
          bindPart_marker_eq_error.1 hpart⟩
        have herror := errorOf?_eq_some.2 (bindPart_marker_eq_error.2 ⟨hnone, rfl⟩)
        rw [hdone _ hmem] at herror
        exact absurd herror (by simp)
  · rintro ⟨done, name, rest, hparts, hdone, hname⟩
    refine ⟨done, .marker name, rest, hparts, bindPart_marker_eq_error.2 hname,
      fun part hmem => ?_⟩
    cases part with
    | char c => rfl
    | marker found =>
        obtain ⟨v, hv⟩ := Option.ne_none_iff_exists'.1 (hdone found hmem)
        rw [bindPart_marker_eq_ok.2 ⟨v, hv, rfl⟩]
        rfl

/-! ## Markers for values -/

/-- What a character adds to the markers of a text does not depend on the text. -/
theorem length_segments_cons {c : Char} {ds : List Char} {n : Nat}
    (h : (Marker.segments (Quoting.after section? c) ds).length =
      (Marker.segments (Quoting.after section? c) cs).length + n) :
    (Marker.segments section? (c :: ds)).length =
      (Marker.segments section? (c :: cs)).length + n := by
  by_cases hc : section? = none ∧ c = '?'
  · obtain ⟨rfl, rfl⟩ := hc
    have hstay : Quoting.after none '?' = none := rfl
    rw [hstay] at h
    rw [Marker.segments_marker, Marker.segments_marker, List.length_cons, List.length_cons, h]
    omega
  · rw [Marker.segments_cons hc, Marker.segments_cons hc,
      Marker.length_prepend (Marker.segments_ne_nil _ _),
      Marker.length_prepend (Marker.segments_ne_nil _ _), h]

/-- A name has no marker for a value and no quote. -/
theorem passes_of_inName (h : cs.all inName = true) : Marker.passes none cs = true := by
  induction cs with
  | nil => rfl
  | cons c cs ih =>
      obtain ⟨hc, hcs⟩ := Bool.and_eq_true_iff.1 (List.all_cons.symm.trans h)
      have hstay : Quoting.after none c = none := if_neg (opens_eq_false_of_inName hc)
      refine Marker.passes_cons.2 ⟨?_, by rw [hstay, ih hcs]⟩
      rintro ⟨-, rfl⟩
      exact absurd hc (by decide)

/-- **With `?` for placeholders each named marker becomes a marker for a value,** and no other
is gained or lost. -/
theorem length_segments_written (section? : Option Char) (cs : List Char) (index : Nat) :
    (Marker.segments section? (written .question index (partsFrom section? cs))).length =
      (Marker.segments section? cs).length +
        ((partsFrom section? cs).filterMap Part.name?).length := by
  fun_induction partsFrom section? cs generalizing index
  case case1 => rfl
  case case2 hc more ih =>
      obtain ⟨rfl, rfl⟩ := hc
      exact length_segments_cons (length_segments_cons (ih index))
  case case3 hc first more hne hfirst ih =>
      obtain ⟨rfl, rfl⟩ := hc
      have hword : (first :: more.takeWhile inName).all inName = true := by
        rw [List.all_cons, inName_of_startsName hfirst, List.all_takeWhile]
        rfl
      have hpasses : Marker.passes none (':' :: first :: more.takeWhile inName) = true :=
        Marker.passes_cons.2 ⟨by decide, passes_of_inName hword⟩
      have hsplit : ':' :: first :: more =
          (':' :: first :: more.takeWhile inName) ++ more.dropWhile inName := by
        rw [List.cons_append, List.cons_append, List.takeWhile_append_dropWhile]
      have hplace : (Placeholder.question.render index).toList = ['?'] := by
        rw [Placeholder.render]
        rfl
      rw [written, hplace, List.singleton_append, Marker.segments_marker, List.length_cons,
        ih (index + 1), hsplit, Marker.segments_append hpasses,
        Marker.length_prepend (Marker.segments_ne_nil _ _)]
      rfl
  case case4 hc first more hne hfirst ih =>
      obtain ⟨rfl, rfl⟩ := hc
      exact length_segments_cons (ih index)
  case case5 => rfl
  case case6 hc ih => exact length_segments_cons (ih index)

end Named

open Named

/-- **A statement with named markers is bound exactly at its markers.**  It is refused iff one
of them has no value, and the error names the first of these.  Else the text is cut into its
markers and single characters: the parameters are the values of the markers in order, each
marker is replaced by the next placeholder, and every other character stays.  With `?` for
placeholders, the text has a marker more for each parameter. -/
theorem Template.ofNamed_replaces_markers (sql : String) (lookup : ValueMap) :
    ((∃ e, ofNamed sql lookup = .error e) ↔
        ∃ before name, MarkerAt none sql.toList before name ∧ lookup.get? name = none) ∧
      (∀ e, ofNamed sql lookup = .error e → ∃ before name,
        MarkerAt none sql.toList before name ∧ lookup.get? name = none ∧
          e = .validation s!"named parameter ':{name}' has no value" ∧
          ∀ other found, MarkerAt none sql.toList other found → lookup.get? found = none →
            before <+: other) ∧
      ∀ t, ofNamed sql lookup = .ok t → ∃ parts : List Part,
        parts.flatMap Part.spell = sql.toList ∧
          (∀ before name, MarkerAt none sql.toList before name ↔ ∃ done rest,
            parts = done ++ .marker name :: rest ∧ done.flatMap Part.spell = before) ∧
          (∀ p, (t.emit p).params.map some = (parts.filterMap Part.name?).map lookup.get? ∧
            (t.emit p).sql.toList = written p 0 parts) ∧
          Marker.count (t.emit .question).sql =
            Marker.count sql + (t.emit .question).params.length := by
  have hmarkers : ∀ before name, MarkerAt none sql.toList before name ↔
      InParts (parts sql) before name := fun _ _ => markerAt_iff (by simp)
  -- the first marker without a value, in the parts and in the text
  have hfirst : ∀ e, ofNamed sql lookup = .error e → ∃ before name,
      MarkerAt none sql.toList before name ∧ lookup.get? name = none ∧
        e = .validation s!"named parameter ':{name}' has no value" ∧
        ∀ other found, MarkerAt none sql.toList other found → lookup.get? found = none →
          before <+: other := by
    intro e he
    obtain ⟨done, name, rest, hparts, hdone, hname, rfl⟩ := mapM_eq_error.1 he
    refine ⟨_, name, (hmarkers _ _).2 ⟨done, rest, hparts, rfl⟩, hname, rfl,
      fun other found hfound hnone => ?_⟩
    obtain ⟨done', rest', hparts', rfl⟩ := (hmarkers _ _).1 hfound
    have hnot : .marker found ∉ done := fun hmem => hdone found hmem hnone
    obtain ⟨more, rfl⟩ := exists_append_of_notMem hnot (hparts.symm.trans hparts')
    rw [List.flatMap_append]
    exact List.prefix_append _ _
  refine ⟨⟨fun ⟨e, he⟩ => ?_, fun ⟨before, name, hmarker, hnone⟩ => ?_⟩, hfirst, fun t ht => ?_⟩
  · obtain ⟨before, name, hmarker, hnone, -⟩ := hfirst e he
    exact ⟨before, name, hmarker, hnone⟩
  · obtain ⟨done, rest, hparts, -⟩ := (hmarkers _ _).1 hmarker
    cases hbound : ofNamed sql lookup with
    | error e => exact ⟨e, rfl⟩
    | ok t =>
        have hmem : none ∈ ((parts sql).filterMap Part.name?).map lookup.get? := by
          rw [hparts, ← hnone]
          exact List.mem_map_of_mem (by simp [Part.name?])
        rw [← (params_of_mapM hbound).1] at hmem
        exact absurd hmem (by simp)
  · obtain ⟨hparams, hwritten⟩ := params_of_mapM ht
    refine ⟨parts sql, spell_partsFrom none sql.toList, hmarkers,
      fun p => ⟨hparams, hwritten p 0⟩, ?_⟩
    have hlength := length_segments_written none sql.toList 0
    have hcount := congrArg List.length hparams
    have hout : (t.emit .question).sql.toList =
        written .question 0 (partsFrom none sql.toList) := hwritten .question 0
    rw [← hout, Marker.length_segments, Marker.length_segments] at hlength
    rw [List.length_map, List.length_map] at hcount
    have hplaces : (t.emit .question).params.length =
        ((partsFrom none sql.toList).filterMap Part.name?).length := hcount
    omega

/-- A colon in a string, a cast, a name used twice and a marker for a value. -/
theorem Template.ofNamed_replaces_markers_repeated :
    ∃ t, ofNamed "':a' x::b :id, :id ?" (KeyMap.empty.insert "id" (.int 1)) = .ok t ∧
      t.emit .dollar = ⟨"':a' x::b $1, $2 ?", [.int 1, .int 1]⟩ ∧
      Marker.count (t.emit .question).sql = 3 := by
  have hparts : parts "':a' x::b :id, :id ?" = "':a' x::b ".toList.map .char ++
      [.marker "id", .char ',', .char ' ', .marker "id", .char ' ', .char '?'] := by
    decide +kernel
  obtain ⟨t, ht, hemit⟩ : ∃ t,
      ofNamed "':a' x::b :id, :id ?" (KeyMap.empty.insert "id" (.int 1)) = .ok t ∧
        t.emit .dollar = ⟨"':a' x::b $1, $2 ?", [.int 1, .int 1]⟩ := by
    rw [ofNamed, hparts]
    exact ⟨_, rfl, rfl⟩
  obtain ⟨-, -, -, -, hcount⟩ := (ofNamed_replaces_markers _ _).2.2 t ht
  have hparams : t.params = [.int 1, .int 1] := congrArg Statement.params hemit
  rw [emit, hparams] at hcount
  exact ⟨t, ht, hemit, hcount⟩

end BoundSql
