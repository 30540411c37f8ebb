import BoundSql.Proofs.Predicate.Content
import BoundSql.Proofs.Predicate.Tokens

/-!
# Scanning the SQL of predicates

The words of rendered predicates are scanned as their own tokens.  A name, a placeholder and a
word that ends in a letter are, where white space, a comma or a closing parenthesis follows; in
a rendered predicate nothing else does, so its text is scanned as the tokens of its pieces
(`Predicate.scans_chunks`).
-/

namespace BoundSql

namespace Chunk

open SqlToken
open ConditionText (Keyword)

/-- The tokens of the words of predicates. -/
def wordTokens : List (String × List SqlToken) :=
  [("(", [.open]), (")", [.close]), ("NOT (", [.keyword .not, .open]),
    (" AND ", [.keyword .and]), (" OR ", [.keyword .or]), (", ", [.comma]),
    (" IS NULL", [.keyword .is, .keyword .null]),
    (" IS NOT NULL", [.keyword .is, .keyword .not, .keyword .null]),
    (" IN (", [.keyword .in, .open]), (" NOT IN (", [.keyword .not, .keyword .in, .open]),
    (" = ", [.comparison .eq]), (" != ", [.comparison .ne]), (" < ", [.comparison .lt]),
    (" <= ", [.comparison .le]), (" > ", [.comparison .gt]), (" >= ", [.comparison .ge]),
    (" LIKE ", [.comparison .like])]

/-- The tokens of a piece. -/
def tokens : Chunk → List SqlToken
  | .word s => (wordTokens.lookup s).getD []
  | .column name => [.column name]
  | .bind v => [.value v]

/-- The text of a sequence behind `count` placeholders. -/
def text (d : Dialect) (count : Nat) (cs : List Chunk) : List Char :=
  (Template.sqlFrom d.placeholder count (cs.map (piece d.quote))).toList

/-- The text of two sequences is that of the first and then that of the second. -/
theorem text_append (d : Dialect) (count : Nat) (cs ds : List Chunk) :
    text d count (cs ++ ds) = text d count cs ++ text d (count + (values cs).length) ds := by
  rw [text, List.map_append, Template.sqlFrom_append, params_map_piece, String.toList_append]
  rfl

/-- A word is written as it is. -/
theorem text_word (d : Dialect) (count : Nat) (s : String) (cs : List Chunk) :
    text d count (.word s :: cs) = s.toList ++ text d count cs := by
  rw [text, List.map_cons, piece, Template.sqlFrom, String.toList_append]
  rfl

/-- What neither goes on with a token in front of it nor is joined to it. -/
def Stops (rest : List Char) : Prop := ∀ c, rest.head? = some c → c ∈ [' ', ')', ',']

theorem stops_nil : Stops [] := by
  intro c h
  exact absurd h (by simp)

/-- Where a text stops, no word or number goes on. -/
theorem Stops.head? {rest : List Char} (h : Stops rest) {p : Char → Bool}
    (hp : [' ', ')', ','].all (fun c => !p c) = true) : rest.head?.any p = false := by
  cases hrest : rest.head? with
  | none => rfl
  | some c =>
      have hc := List.all_eq_true.1 hp c (h c hrest)
      simpa using hc

/-- A sequence that is scanned as the tokens of its pieces, behind `count` placeholders and where
the parameters go on with its values. -/
def Scans (d : Dialect) (cs : List Chunk) : Prop :=
  ∀ (params : List Value) (count : Nat) (rest : List Char), Stops rest →
    values cs <+: params.drop count →
      scan d params count (text d count cs ++ rest) =
        (scan d params (count + (values cs).length) rest).map (cs.flatMap tokens ++ ·)

variable {d : Dialect} {cs ds : List Chunk} {s : String}

/-- The words that end in a letter. -/
def nullTests : List String := [" IS NULL", " IS NOT NULL"]

/-- **A word of predicates is scanned as its tokens.** -/
theorem scan_word (hd : d.Standard) (hs : s ∈ vocabulary) {params : List Value} {count : Nat}
    {rest : List Char} (hrest : s ∈ nullTests → Stops rest) :
    Spells d params count rest s.toList (tokens (.word s)) := by
  have hopen : ∀ {rest : List Char}, Spells d params count rest ['('] [.open] :=
    spells_punctuation hd List.mem_cons_self
  have hand : ∀ {rest : List Char} {k : Keyword}, k ≠ .like →
      Spells d params count rest (' ' :: (k.word.toList ++ [' '])) [.keyword k] :=
    fun hk => spells_blank.append ((spells_keyword hd hk rfl).append spells_blank)
  -- The words in their order: parentheses and NOT, separators, tests of null, lists, comparisons.
  simp only [vocabulary, List.mem_cons, List.not_mem_nil, or_false] at hs
  obtain rfl | rfl | rfl | rfl | rfl | rfl | rfl | rfl | rfl | rfl | hs := hs
  · exact hopen
  · exact spells_punctuation hd (.tail _ List.mem_cons_self)
  · exact (spells_keyword hd (k := .not) nofun rfl).append (spells_blank.append hopen)
  · exact hand (k := .and) nofun
  · exact hand (k := .or) nofun
  · exact (spells_punctuation hd (c := ',') (by simp)).append spells_blank
  · have hnull := (hrest (by simp [nullTests])).head? (p := Char.isAlpha) rfl
    exact (hand (k := .is) nofun).append (spells_keyword hd (k := .null) nofun hnull)
  · have hnull := (hrest (by simp [nullTests])).head? (p := Char.isAlpha) rfl
    exact (hand (k := .is) nofun).append ((spells_keyword hd (k := .not) nofun rfl).append
      (spells_blank.append (spells_keyword hd (k := .null) nofun hnull)))
  · exact (hand (k := .in) nofun).append hopen
  · exact (hand (k := .not) nofun).append
      ((spells_keyword hd (k := .in) nofun rfl).append (spells_blank.append hopen))
  · obtain rfl | rfl | rfl | rfl | rfl | rfl | rfl := hs
    · exact spells_comparison hd .eq
    · exact spells_comparison hd .ne
    · exact spells_comparison hd .lt
    · exact spells_comparison hd .le
    · exact spells_comparison hd .gt
    · exact spells_comparison hd .ge
    · exact spells_comparison hd .like

theorem scans_nil (d : Dialect) : Scans d [] := by
  intro params count rest _ _
  simp [text, Template.sqlFrom, values]

/-- Sequences one after another, where the second one starts with a break. -/
theorem Scans.append (hc : Scans d cs) (hd : Scans d ds)
    (hbreak : ∀ count rest, Stops rest → Stops (text d count ds ++ rest)) : Scans d (cs ++ ds) := by
  intro params count rest hrest hvalues
  have hsplit : values (cs ++ ds) = values cs ++ values ds := List.filterMap_append
  rw [hsplit] at hvalues ⊢
  obtain ⟨more, hmore⟩ := hvalues
  have hfirst : values cs <+: params.drop count :=
    ⟨values ds ++ more, by rw [← hmore, List.append_assoc]⟩
  have hsecond : values ds <+: params.drop (count + (values cs).length) := by
    rw [← List.drop_drop, ← hmore, List.append_assoc, List.drop_left]
    exact List.prefix_append _ _
  rw [text_append, List.append_assoc, hc params count _ (hbreak _ rest hrest) hfirst,
    hd params _ rest hrest hsecond, Option.map_map, List.length_append, ← Nat.add_assoc]
  congr 1
  funext ts
  simp

/-- Where a break follows, every word is scanned as its tokens. -/
theorem scans_word (hd : d.Standard) (hs : s ∈ vocabulary) : Scans d [.word s] := by
  intro params count rest hrest _
  have htext : text d count [.word s] = s.toList := by
    rw [text_word]
    exact List.append_nil _
  rw [htext, scan_word hd hs fun _ => hrest, List.flatMap_singleton]
  rfl

/-- A word that ends in no letter is scanned as its tokens, whatever follows. -/
theorem scans_word_cons (hd : d.Standard) (hs : s ∈ vocabulary) (hnull : s ∉ nullTests)
    (hc : Scans d cs) : Scans d (.word s :: cs) := by
  intro params count rest hrest hvalues
  have hvalues' : values (.word s :: cs) = values cs := List.filterMap_cons_none rfl
  rw [hvalues'] at hvalues ⊢
  rw [text_word, List.append_assoc, scan_word hd hs fun h => absurd h hnull,
    hc params count rest hrest hvalues, Option.map_map, List.flatMap_cons]
  congr 1
  funext ts
  simp

/-- A quoted identifier is scanned as one token, whatever comes behind it. -/
theorem scans_column (hd : d.Standard) (name : Identifier) : Scans d [.column name] := by
  intro params count rest hrest _
  have htext : text d count [.column name] = (name.toSql d.quote).toList := by
    rw [text, List.map_singleton, piece, Template.sqlFrom, String.toList_append]
    exact List.append_nil _
  have hquote : rest.head? ≠ some d.quote := by
    intro h
    have hmem := hrest d.quote h
    rcases hd.quote_eq with heq | heq <;> rw [heq] at hmem <;> exact absurd hmem (by decide)
  have hdot : rest.head? ≠ some '.' := fun h => absurd (hrest '.' h) (by decide)
  rw [htext, SqlToken.scan_name hd name hquote hdot]
  rfl

/-- A placeholder is scanned as the value that it stands for. -/
theorem scans_bind (hd : d.Standard) (v : Value) : Scans d [.bind v] := by
  intro params count rest hrest hvalues
  have htext : text d count [.bind v] = (d.placeholder.render count).toList := by
    rw [text, List.map_singleton, piece, Template.sqlFrom, String.toList_append]
    exact List.append_nil _
  have hv : params[count]? = some v := by
    obtain ⟨more, hmore⟩ := hvalues
    have hhead := congrArg List.head? hmore
    rw [List.head?_drop] at hhead
    exact hhead.symm
  rw [htext, SqlToken.scan_placeholder hd hv (hrest.head? rfl)]
  rfl

/-- The words that start with a break and end in no letter. -/
def breaks : List String :=
  [")", " AND ", " OR ", ", ", " IN (", " NOT IN (", " = ", " != ", " < ", " <= ", " > ", " >= ",
    " LIKE "]

/-- The words that stand between members belong to the vocabulary and test nothing. -/
theorem mem_vocabulary_of_mem_breaks : ∀ s ∈ breaks, s ∈ vocabulary ∧ s ∉ nullTests := by decide

/-- A word that starts with white space, a comma or a closing parenthesis ends what is in front
of it. -/
theorem stops_word (h : s.toList.head?.any [' ', ')', ','].contains = true) (count : Nat)
    (rest : List Char) : Stops (text d count (.word s :: cs) ++ rest) := by
  intro c hhead
  obtain ⟨b, hb, hmem⟩ := (Option.any_eq_true _ _).1 h
  rw [text_word, List.append_assoc, List.head?_append, hb] at hhead
  obtain rfl : b = c := Option.some.inj hhead
  exact List.contains_iff_mem.1 hmem

/-- Sequences with a word between them. -/
theorem Scans.append_word (hd : d.Standard) (hc : Scans d cs) (hs : s ∈ breaks)
    (hds : Scans d ds) : Scans d (cs ++ .word s :: ds) := by
  obtain ⟨hword, hnull⟩ := mem_vocabulary_of_mem_breaks s hs
  have hbreak : s.toList.head?.any [' ', ')', ','].contains = true := by
    revert s
    decide
  exact hc.append (scans_word_cons hd hword hnull hds) fun count rest _ =>
    stops_word hbreak count rest

/-- Joined sequences are scanned one after another, for a separator breaks them apart. -/
theorem scans_join (hd : d.Standard) (hs : s ∈ breaks) {members : List (List Chunk)}
    (h : ∀ cs ∈ members, Scans d cs) : Scans d (join s members) := by
  induction members with
  | nil => exact scans_nil d
  | cons cs rest ih =>
      have hcs := h cs List.mem_cons_self
      cases rest with
      | nil => exact hcs
      | cons next more =>
          rw [join_cons (List.cons_ne_nil _ _)]
          exact hcs.append_word hd hs (ih fun ds hds => h ds (List.mem_cons_of_mem cs hds))

/-- A sequence in front of a closing parenthesis. -/
theorem Scans.append_close (hd : d.Standard) (hc : Scans d cs) : Scans d (cs ++ [.word ")"]) :=
  hc.append_word hd List.mem_cons_self (scans_nil d)

/-- A group is scanned if its members are. -/
theorem scans_group (hd : d.Standard) (hs : s ∈ breaks) {members : List (List Chunk)}
    (h : ∀ cs ∈ members, Scans d cs) : Scans d (group s members) := by
  rcases members with _ | ⟨cs, _ | ⟨next, more⟩⟩
  · exact scans_nil d
  · exact h cs List.mem_cons_self
  · exact scans_word_cons hd (by decide) (by decide) ((scans_join hd hs h).append_close hd)

/-- A negation is scanned if what it negates is. -/
theorem scans_negation (hd : d.Standard) (hc : Scans d cs) : Scans d (negation cs) := by
  rw [negation]
  split
  · exact scans_nil d
  · exact scans_word_cons hd (by decide) (by decide) (hc.append_close hd)

/-- An operand is scanned as a name or as a value. -/
theorem scans_ofOperand (hd : d.Standard) (o : Operand) : Scans d [.ofOperand o] := by
  cases o with
  | column name => exact scans_column hd name
  | value v => exact scans_bind hd v

end Chunk

namespace Predicate

mutual

/-- **The text of a predicate is scanned as its tokens,** where no raw fragment is in it. -/
theorem scans_chunks {d : Dialect} (hd : d.Standard) : ∀ p : Predicate, p.rawTexts = [] →
    Chunk.Scans d p.chunks
  | .and members, h => by
      rw [chunks_and]
      exact Chunk.scans_group hd (by decide) (scans_chunksOf hd members h)
  | .or members, h => by
      rw [chunks_or]
      exact Chunk.scans_group hd (by decide) (scans_chunksOf hd members h)
  | .not body, h => by
      rw [chunks_not]
      exact Chunk.scans_negation hd (scans_chunks hd body h)
  | .compare left op right, _ => by
      have hword : " " ++ op.toSql ++ " " ∈ Chunk.breaks := by cases op <;> decide
      exact (Chunk.scans_ofOperand hd left).append_word hd hword (Chunk.scans_ofOperand hd right)
  | .nullTest column negated, _ => by
      have hword : (if negated then " IS NOT NULL" else " IS NULL") ∈ Chunk.vocabulary := by
        cases negated <;> decide
      exact (Chunk.scans_column hd column).append (Chunk.scans_word hd hword) fun count rest _ =>
        Chunk.stops_word (by cases negated <;> rfl) count rest
  | .oneOf column values negated, _ => by
      have hword : (if negated then " NOT IN (" else " IN (") ∈ Chunk.breaks := by
        cases negated <;> decide
      have hvalues : Chunk.Scans d (Chunk.join ", " (values.map fun v => [.bind v])) := by
        refine Chunk.scans_join hd (by decide) fun cs hcs => ?_
        obtain ⟨v, -, rfl⟩ := List.mem_map.1 hcs
        exact Chunk.scans_bind hd v
      rw [chunks, layout, Layout.full_chunks, List.cons_append, List.cons_append]
      exact (Chunk.scans_column hd column).append_word hd hword (hvalues.append_close hd)
  | .raw .., h => absurd h (List.cons_ne_nil _ _)

/-- The sequences of members without raw SQL are scanned. -/
theorem scans_chunksOf {d : Dialect} (hd : d.Standard) : ∀ ps : List Predicate,
    rawTextsOf ps = [] → ∀ cs ∈ chunksOf ps, Chunk.Scans d cs
  | [], _, _, hcs => absurd hcs List.not_mem_nil
  | p :: rest, h, cs, hcs => by
      obtain ⟨hp, hrest⟩ := List.append_eq_nil_iff.1 h
      rw [chunksOf] at hcs
      split at hcs
      · exact scans_chunksOf hd rest hrest cs hcs
      · rcases List.mem_cons.1 hcs with rfl | hcs
        · exact scans_chunks hd p hp
        · exact scans_chunksOf hd rest hrest cs hcs

end

end Predicate

end BoundSql
