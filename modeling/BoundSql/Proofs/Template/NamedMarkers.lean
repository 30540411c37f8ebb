import Mathlib.Data.List.Forall2
import BoundSql.Identifier
import BoundSql.Proofs.Template.Markers
import BoundSql.Proofs.Text.Runs
import BoundSql.Template.Named

/-!
# What a scan for named markers passes over

A text is *silent* if a scan outside quoted sections takes all of it as text and goes on
outside them, whatever follows.  Words without a colon are silent, and so is every quoted
identifier: its colons are in quoted sections, and a doubled quote leaves a section and
enters it again at once.  A marker is found as far as its name goes (`partsFrom_marker`).

Text that is taken as text by itself may end in a colon, and then it depends on what
follows.  It is taken as text in front of anything that neither goes on with a name nor
starts with a colon (`partsFrom_append`).
-/

namespace BoundSql

namespace Named

variable {section? : Option Char} {cs rest : List Char}

/-- A character of a name opens no quoted section. -/
theorem opens_eq_false_of_inName {c : Char} (h : inName c = true) : ¬Quoting.opens c = true := by
  intro hopens
  simp only [Quoting.opens, Bool.or_eq_true, beq_iff_eq] at hopens
  rcases hopens with (rfl | rfl) | rfl
  all_goals exact absurd h (by decide)

/-- An empty text has no parts. -/
theorem partsFrom_nil (section? : Option Char) : partsFrom section? [] = [] := by
  simp only [partsFrom]

/-- Within quotes, and for what is no colon, a character is a part by itself. -/
theorem partsFrom_cons {c : Char} (h : ¬(section? = none ∧ c = ':')) (rest : List Char) :
    partsFrom section? (c :: rest) = .char c :: partsFrom (Quoting.after section? c) rest := by
  rw [partsFrom.eq_def]
  exact if_neg h

/-- Text to a scan outside quoted sections, which goes on outside them. -/
def Silent (cs : List Char) : Prop :=
  ∀ rest, partsFrom none (cs ++ rest) = cs.map .char ++ partsFrom none rest

theorem silent_nil : Silent [] := fun _ => rfl

/-- Two silent texts are silent together. -/
theorem Silent.append {ds : List Char} (hc : Silent cs) (hd : Silent ds) : Silent (cs ++ ds) := by
  intro rest
  rw [List.append_assoc, hc, hd, List.map_append, List.append_assoc]

/-- A character that is no colon and no quote. -/
def isQuiet (c : Char) : Bool := c != ':' && !Quoting.opens c

/-- A text without quotes and colons is silent. -/
theorem silent_of_quiet (h : cs.all isQuiet = true) : Silent cs := by
  intro rest
  induction cs with
  | nil => rfl
  | cons c cs ih =>
      obtain ⟨hc, hcs⟩ := Bool.and_eq_true_iff.1 (List.all_cons.symm.trans h)
      obtain ⟨hcolon, hopens⟩ : c ≠ ':' ∧ Quoting.opens c = false := by simpa [isQuiet] using hc
      rw [List.cons_append, partsFrom_cons (fun heq => hcolon heq.2), Quoting.after, hopens,
        if_neg Bool.false_ne_true, ih hcs]
      rfl

/-! ## Identifiers -/

variable {quote : Char}

/-- No colon opens a quoted section. -/
theorem ne_colon_of_opens (h : Quoting.opens quote = true) : quote ≠ ':' := by
  rintro rfl
  exact absurd h (by decide)

/-- The inside of a quoted part, with the quote that ends it. -/
theorem partsFrom_inside (hquote : Quoting.opens quote = true) (cs rest : List Char) :
    partsFrom (some quote)
        (cs.flatMap (fun c => if c = quote then [quote, quote] else [c]) ++ quote :: rest) =
      (cs.flatMap (fun c => if c = quote then [quote, quote] else [c])).map .char ++
        .char quote :: partsFrom none rest := by
  have hcolon := ne_colon_of_opens hquote
  induction cs with
  | nil =>
      rw [List.flatMap_nil, List.nil_append, partsFrom_cons (by simp), Quoting.after, if_pos rfl]
      rfl
  | cons c cs ih =>
      rw [List.flatMap_cons]
      split
      · have hleave : Quoting.after (some quote) quote = none := if_pos rfl
        have henter : Quoting.after none quote = some quote := if_pos hquote
        rw [List.append_assoc, List.cons_append, List.singleton_append,
          partsFrom_cons (by simp), hleave, partsFrom_cons (fun heq => hcolon heq.2), henter, ih]
        rfl
      · rename_i hc
        have hstay : Quoting.after (some quote) c = some quote := if_neg hc
        rw [List.append_assoc, List.singleton_append, partsFrom_cons (by simp), hstay, ih]
        rfl

/-- A part of an identifier is silent, whatever characters it has, since quotes enclose it. -/
theorem silent_quotePart (hquote : Quoting.opens quote = true) (part : String) :
    Silent (Identifier.quotePart quote part) := by
  have hcolon := ne_colon_of_opens hquote
  have henter : Quoting.after none quote = some quote := if_pos hquote
  intro rest
  rw [Identifier.quotePart, List.cons_append, List.cons_append,
    partsFrom_cons (fun heq => hcolon heq.2), henter, List.append_assoc, List.singleton_append,
    partsFrom_inside hquote]
  simp

/-- **Every identifier is silent** under each of the quote characters of SQL. -/
theorem silent_toSql (hquote : Quoting.opens quote = true) (i : Identifier) :
    Silent (i.toSql quote).toList := by
  rw [Identifier.toSql, String.toList_ofList]
  generalize i.parts = parts
  induction parts with
  | nil => exact silent_nil
  | cons part more ih =>
      cases more with
      | nil => exact silent_quotePart hquote part
      | cons next more =>
          rw [Identifier.quoteParts, ← List.singleton_append]
          · exact (silent_quotePart hquote part).append ((silent_of_quiet rfl).append ih)
          · exact List.cons_ne_nil _ _

/-! ## Markers -/

/-- A marker ends where its name does. -/
theorem partsFrom_name {first : Char} (h : startsName first = true) (more : List Char) :
    partsFrom none (':' :: first :: more) =
      .marker (String.ofList (first :: more.takeWhile inName)) ::
        partsFrom none (more.dropWhile inName) := by
  rw [partsFrom, if_pos ⟨rfl, rfl⟩, if_pos h]
  rintro rfl
  exact absurd h (by decide)

/-- A colon with no name and no colon behind it is text. -/
theorem partsFrom_colon (hcolon : rest.head? ≠ some ':')
    (hname : rest.head?.any inName = false) :
    partsFrom none (':' :: rest) = .char ':' :: partsFrom none rest := by
  cases rest with
  | nil => simp [partsFrom]
  | cons c rest =>
      have hstarts : ¬startsName c = true := fun h =>
        Bool.false_ne_true (hname.symm.trans (inName_of_startsName h))
      rw [partsFrom, if_pos ⟨rfl, rfl⟩, if_neg hstarts]
      exact fun heq => hcolon (congrArg some heq)

/-- **A marker with nothing behind it that belongs to its name is found as it is.** -/
theorem partsFrom_marker {name : String} (h : isName name = true)
    (hrest : rest.head?.any inName = false) :
    partsFrom none (':' :: (name.toList ++ rest)) = .marker name :: partsFrom none rest := by
  rw [isName] at h
  cases hname : name.toList with
  | nil => simp [hname] at h
  | cons first more =>
      simp only [hname, Bool.and_eq_true] at h
      obtain ⟨hfirst, hmore⟩ := h
      rw [List.cons_append, partsFrom_name hfirst, Text.takeWhile_run hmore hrest,
        Text.dropWhile_run hmore hrest, ← hname, String.ofList_toList]

/-- The characters of a name leave a scan where it is. -/
theorem afterAll_dropWhile (cs : List Char) :
    Quoting.afterAll none (cs.dropWhile inName) = Quoting.afterAll none cs := by
  induction cs with
  | nil => rfl
  | cons c cs ih =>
      rw [List.dropWhile_cons]
      split
      · rename_i hc
        have hstay : Quoting.after none c = none :=
          if_neg (opens_eq_false_of_inName hc)
        rw [ih, Quoting.afterAll, Quoting.afterAll, List.foldl_cons, hstay]
      · rfl

/-- **A text is scanned by itself** in front of what neither goes on with a name nor starts
with a colon. -/
theorem partsFrom_append (hcolon : rest.head? ≠ some ':') (hname : rest.head?.any inName = false)
    (section? : Option Char) (cs : List Char) :
    partsFrom section? (cs ++ rest) =
      partsFrom section? cs ++ partsFrom (Quoting.afterAll section? cs) rest := by
  fun_induction partsFrom section? cs
  case case1 => rfl
  case case2 hc more ih =>
      obtain ⟨rfl, rfl⟩ := hc
      rw [List.cons_append, List.cons_append, partsFrom, if_pos ⟨rfl, rfl⟩, ih]
      rfl
  case case3 hc first more hne hfirst ih =>
      obtain ⟨rfl, rfl⟩ := hc
      have hstay : Quoting.after none first = none :=
        if_neg (opens_eq_false_of_inName (inName_of_startsName hfirst))
      have hafter : Quoting.afterAll none (':' :: first :: more) = Quoting.afterAll none more :=
        congrArg (Quoting.afterAll · more) hstay
      rw [List.cons_append, List.cons_append, partsFrom_name hfirst,
        Text.takeWhile_append hname, Text.dropWhile_append hname, ih, afterAll_dropWhile, hafter]
      rfl
  case case4 hc first more hne hfirst ih =>
      obtain ⟨rfl, rfl⟩ := hc
      rw [List.cons_append, List.cons_append, partsFrom, if_pos ⟨rfl, rfl⟩, if_neg hfirst,
        ← List.cons_append, ih]
      · rfl
      · exact hne
  case case5 hc =>
      obtain ⟨rfl, rfl⟩ := hc
      rw [List.singleton_append, partsFrom_colon hcolon hname]
      rfl
  case case6 hc ih =>
      rw [List.cons_append, partsFrom_cons hc, ih]
      rfl

/-- Parts without a marker are the characters of the text. -/
theorem partsFrom_eq_map (h : ∀ part ∈ partsFrom section? cs, ∃ c, part = .char c) :
    partsFrom section? cs = cs.map .char := by
  fun_induction partsFrom section? cs
  case case1 => rfl
  case case2 hc more ih =>
      obtain ⟨rfl, rfl⟩ := hc
      rw [ih fun part hpart => h part (List.mem_cons_of_mem _ (List.mem_cons_of_mem _ hpart))]
      rfl
  case case3 =>
      obtain ⟨c, hc⟩ := h _ List.mem_cons_self
      exact absurd hc (by simp)
  case case4 hc first more hne hfirst ih =>
      obtain ⟨rfl, rfl⟩ := hc
      rw [ih fun part hpart => h part (List.mem_cons_of_mem _ hpart)]
      rfl
  case case5 => rfl
  case case6 hc ih =>
      rw [ih fun part hpart => h part (List.mem_cons_of_mem _ hpart)]
      rfl

/-- A text without markers that leaves its quoted sections is text in front of what neither
goes on with a name nor starts with a colon. -/
theorem partsFrom_append_text {s : String} (hparts : ∀ part ∈ parts s, ∃ c, part = .char c)
    (hclosed : Quoting.Closed s) (hcolon : rest.head? ≠ some ':')
    (hname : rest.head?.any inName = false) :
    partsFrom none (s.toList ++ rest) = s.toList.map .char ++ partsFrom none rest := by
  have hafter : Quoting.afterAll none s.toList = none := hclosed
  rw [partsFrom_append hcolon hname, hafter]
  exact congrArg (· ++ partsFrom none rest) (partsFrom_eq_map hparts)

/-- In front of others an element is followed by the separator. -/
theorem intercalate_map_cons {α β : Type} (separator : List β) (f : α → List β) (a : α)
    {more : List α} (h : more ≠ []) :
    separator.intercalate ((a :: more).map f) =
      f a ++ (separator ++ separator.intercalate (more.map f)) := by
  rw [List.map_cons, List.intercalate_cons_of_ne_nil (by simpa using h), List.append_assoc]

/-- **The markers of a list of names are found as they are written.** -/
theorem partsFrom_markers {names : List String} (h : ∀ name ∈ names, isName name = true)
    (hrest : rest.head?.any inName = false) :
    partsFrom none
        ([',', ' '].intercalate (names.map fun name => ':' :: name.toList) ++ rest) =
      [.char ',', .char ' '].intercalate (names.map fun name => [.marker name]) ++
        partsFrom none rest := by
  induction names with
  | nil => rfl
  | cons name more ih =>
      obtain ⟨hname, hmore⟩ := List.forall_mem_cons.1 h
      cases more with
      | nil =>
          rw [List.map_singleton, List.intercalate_singleton, List.map_singleton,
            List.intercalate_singleton]
          exact partsFrom_marker hname hrest
      | cons next more =>
          have hcomma : Silent [',', ' '] := silent_of_quiet rfl
          rw [intercalate_map_cons _ _ _ (List.cons_ne_nil _ _),
            intercalate_map_cons _ _ _ (List.cons_ne_nil _ _), List.append_assoc,
            List.append_assoc, List.cons_append, partsFrom_marker hname rfl, hcomma, ih hmore]
          simp

end Named

namespace Template

/-- The characters of the text. -/
def texts : Template → List Char
  | [] => []
  | .text s :: rest => s.toList ++ texts rest
  | .bind _ :: rest => texts rest

/-- The texts of two templates are those of the first and then those of the second. -/
theorem texts_append (s t : Template) : texts (s ++ t) = texts s ++ texts t := by
  induction s with
  | nil => rfl
  | cons piece rest ih => cases piece <;> simp [texts, ih]

/-- What binds nothing is emitted as its text. -/
theorem sqlFrom_of_params_nil {t : Template} (h : params t = []) (p : Placeholder)
    (index : Nat) : sqlFrom p index t = String.ofList (texts t) := by
  induction t with
  | nil => rfl
  | cons piece rest ih =>
      cases piece with
      | text s => rw [sqlFrom, ih h, texts, String.ofList_append, String.ofList_toList]
      | bind v => exact absurd h (by simp [params])

/-- The texts of joined templates have the separator between them. -/
theorem texts_join (separator : String) (ts : List Template) :
    texts (join separator ts) = separator.toList.intercalate (ts.map texts) := by
  induction ts with
  | nil => rfl
  | cons t rest ih =>
      cases rest with
      | nil => rw [List.map_singleton, List.intercalate_singleton, join]
      | cons next more =>
          rw [Named.intercalate_map_cons _ _ _ (List.cons_ne_nil _ _), ← ih, ← texts,
            ← texts_append]
          rfl

/-- Joined templates bind their values one after another. -/
theorem params_join (separator : String) (ts : List Template) :
    params (join separator ts) = ts.flatMap params := by
  induction ts with
  | nil => rfl
  | cons t rest ih =>
      cases rest with
      | nil => rw [List.flatMap_singleton, join]
      | cons next more =>
          rw [List.flatMap_cons, ← ih]
          exact params_append t _

/-- A template of text alone that is silent to a scan for named markers. -/
structure Silent (t : Template) : Prop where
  params_eq : params t = []
  texts_silent : Named.Silent (texts t)

theorem silent_nil : Silent [] := ⟨rfl, Named.silent_nil⟩

/-- A silent text in front leaves a template silent. -/
theorem silent_text {s : String} {t : Template} (hs : Named.Silent s.toList) (ht : Silent t) :
    Silent (.text s :: t) :=
  ⟨ht.params_eq, hs.append ht.texts_silent⟩

/-- Two silent templates are silent together. -/
theorem Silent.append {t u : Template} (ht : Silent t) (hu : Silent u) : Silent (t ++ u) := by
  refine ⟨?_, ?_⟩
  · rw [params_append, ht.params_eq, hu.params_eq]
    rfl
  · rw [texts_append]
    exact ht.texts_silent.append hu.texts_silent

/-- Joined templates are silent if they and the separator are. -/
theorem silent_join {separator : String} (hsep : Named.Silent separator.toList)
    {ts : List Template} (h : ∀ t ∈ ts, Silent t) : Silent (join separator ts) := by
  induction ts with
  | nil => exact silent_nil
  | cons t rest ih =>
      obtain ⟨ht, hrest⟩ := List.forall_mem_cons.1 h
      cases rest with
      | nil => exact ht
      | cons next more => exact ht.append (silent_text hsep (ih hrest))

/-- Templates that are emitted alike. -/
structure Same (t u : Template) : Prop where
  params_eq : params t = params u
  sqlFrom_eq (p : Placeholder) (index : Nat) : sqlFrom p index t = sqlFrom p index u

/-- Templates can be replaced by others that are emitted alike, in front and behind. -/
theorem Same.append {t t' u u' : Template} (h : t.Same u) (h' : t'.Same u') :
    (t ++ t').Same (u ++ u') := by
  refine ⟨?_, fun p index => ?_⟩
  · rw [params_append, params_append, h.params_eq, h'.params_eq]
  · rw [sqlFrom_append, sqlFrom_append, h.sqlFrom_eq, h.params_eq, h'.sqlFrom_eq]

/-- Templates that are emitted alike give the same statement in every style. -/
theorem Same.emit_eq {t u : Template} (h : t.Same u) (p : Placeholder) : t.emit p = u.emit p := by
  rw [emit, emit, h.params_eq, h.sqlFrom_eq]

end Template

namespace Named

/-- With the values of a map the parts are emitted as a template is. -/
def Yields (lookup : ValueMap) (parts : List Part) (t : Template) : Prop :=
  ∃ bound : Template, parts.mapM (bindPart lookup) = .ok bound ∧ bound.Same t

variable {lookup : ValueMap} {xs ys : List Part} {t u : Template}

/-- Parts one after another yield one template after the other. -/
theorem Yields.append (hx : Yields lookup xs t) (hy : Yields lookup ys u) :
    Yields lookup (xs ++ ys) (t ++ u) := by
  obtain ⟨bound, hbound, hsame⟩ := hx
  obtain ⟨bound', hbound', hsame'⟩ := hy
  refine ⟨bound ++ bound', ?_, hsame.append hsame'⟩
  rw [List.mapM_append, hbound, hbound']
  rfl

/-- A part that is bound is emitted in front of what the others yield. -/
theorem Yields.cons {part : Part} {piece : Piece} (hpart : bindPart lookup part = .ok piece)
    (hx : Yields lookup xs t) : Yields lookup (part :: xs) (piece :: t) := by
  obtain ⟨bound, hbound, hsame⟩ := hx
  have hpiece : Template.Same [piece] [piece] := ⟨rfl, fun _ _ => rfl⟩
  refine ⟨[piece] ++ bound, ?_, hpiece.append hsame⟩
  rw [List.mapM_cons, hpart, hbound]
  rfl

theorem bindPart_char (c : Char) :
    bindPart lookup (.char c) = .ok (.text (String.singleton c)) := rfl

theorem yields_nil : Yields lookup [] [] := ⟨[], rfl, rfl, fun _ _ => rfl⟩

/-- The characters of a text are emitted as the text. -/
theorem yields_chars (cs : List Char) :
    Yields lookup (cs.map .char) [.text (String.ofList cs)] := by
  induction cs with
  | nil => exact ⟨[], rfl, rfl, fun _ _ => rfl⟩
  | cons c cs ih =>
      obtain ⟨bound, hbound, hsame⟩ := ih.cons (bindPart_char c)
      refine ⟨bound, hbound, hsame.params_eq, fun p index => ?_⟩
      rw [hsame.sqlFrom_eq]
      simp [Template.sqlFrom, String.ofList_cons]

/-- What binds nothing is its text. -/
theorem yields_texts (h : t.params = []) : Yields lookup (t.texts.map .char) t := by
  obtain ⟨bound, hbound, hsame⟩ := (yields_chars t.texts : Yields lookup _ _)
  refine ⟨bound, hbound, hsame.params_eq.trans h.symm, fun p index => ?_⟩
  rw [hsame.sqlFrom_eq, Template.sqlFrom_of_params_nil h, Template.sqlFrom, Template.sqlFrom,
    String.append_empty]

/-- A marker yields the value of its name. -/
theorem yields_marker {name : String} {v : Value} (h : lookup.get? name = some v) :
    Yields lookup [.marker name] [.bind v] := by
  refine yields_nil.cons ?_
  rw [bindPart, h]

/-- Markers with commas between them are emitted as places for the values of their names. -/
theorem yields_markers {names : List String} {values : List Value}
    (h : List.Forall₂ (fun name v => lookup.get? name = some v) names values) :
    Yields lookup ([.char ',', .char ' '].intercalate (names.map fun name => [.marker name]))
      (Template.join ", " (values.map fun v => [.bind v])) := by
  induction h with
  | nil => exact yields_nil
  | cons hname hmore ih =>
      cases hmore with
      | nil => exact yields_marker hname
      | cons =>
          rw [intercalate_map_cons _ _ _ (List.cons_ne_nil _ _)]
          exact (yields_marker hname).append ((yields_chars [',', ' ']).append ih)

end Named

end BoundSql
