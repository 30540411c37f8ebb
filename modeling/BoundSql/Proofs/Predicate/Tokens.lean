import BoundSql.ConditionText.Token
import BoundSql.Proofs.Identifier.Reading
import BoundSql.Proofs.Text.Runs
import BoundSql.Template.Basic

/-!
# Tokens of SQL

A scanner of SQL passes over white space and takes quoted names, words, operators,
placeholders, parentheses and commas as they come (`SqlToken.scan`).  A doubled quote in a
quoted name is a quote.  A placeholder stands for a parameter: `?` for the next one, `$n` and
`@pn` for the `n`-th one.

A quoted name, a placeholder, a word and an operator are scanned as their token, where what
follows does not go on with them.
-/

namespace BoundSql

open ConditionText (Keyword)

/-- The index of the parameter that `n` names, and the text after `n`. -/
def Placeholder.numbered? (cs : List Char) : Option (Nat × List Char) :=
  match Nat.ofDigitChars 10 (cs.takeWhile Char.isDigit) 0 with
  | 0 => none
  | index + 1 => some (index, cs.dropWhile Char.isDigit)

/-- The index of the parameter that a placeholder stands for, behind `count` others, and the
text after the placeholder. -/
def Placeholder.read? (p : Placeholder) (count : Nat) (c : Char) (rest : List Char) :
    Option (Nat × List Char) :=
  match p with
  | .question => if c = '?' then some (count, rest) else none
  | .dollar => if c = '$' then numbered? rest else none
  | .atP => if c = '@' && rest.head? = some 'p' then numbered? rest.tail else none
  | .custom .. => none

/-- Reading a placeholder never lengthens the rest. -/
theorem Placeholder.length_read? {p : Placeholder} {count : Nat} {c : Char}
    {rest after : List Char} {index : Nat} (h : p.read? count c rest = some (index, after)) :
    after.length ≤ rest.length := by
  have hnumbered : ∀ {cs : List Char}, numbered? cs = some (index, after) →
      after.length ≤ cs.length := by
    intro cs h
    rw [numbered?] at h
    split at h
    · exact absurd h (by simp)
    · obtain ⟨-, rfl⟩ := Prod.mk.inj (Option.some.inj h)
      exact (List.dropWhile_suffix _).length_le
  unfold read? at h
  split at h
  · obtain ⟨-, h⟩ := Option.ite_none_right_eq_some.1 h
    obtain ⟨-, rfl⟩ := Prod.mk.inj (Option.some.inj h)
    exact Nat.le_refl _
  · exact hnumbered (Option.ite_none_right_eq_some.1 h).2
  · have htail := hnumbered (Option.ite_none_right_eq_some.1 h).2
    rw [List.length_tail] at htail
    omega
  · exact absurd h (by simp)

/-- A token of SQL. -/
inductive SqlToken
  | column (name : Identifier)
  /-- A placeholder, by the value of its parameter. -/
  | value (v : Value)
  | comparison (op : Comparison)
  | keyword (k : Keyword)
  | open
  | close
  | comma

namespace SqlToken

/-- The number of placeholders in a token. -/
def places : SqlToken → Nat
  | .value _ => 1
  | _ => 0

def isKeyword (k : Keyword) : SqlToken → Bool
  | .keyword other => other == k
  | _ => false

/-- The token of a word, in any case. -/
def ofWord? (word : List Char) : Option SqlToken :=
  (Keyword.ofWord? (String.ofList (word.map Char.toUpper))).map fun k =>
    if k = .like then .comparison .like else .keyword k

/-- A character of an operator. -/
def isOperator (c : Char) : Bool := c == '=' || c == '!' || c == '<' || c == '>'

/-- The token of an operator. -/
def ofOperator? (text : List Char) : Option SqlToken :=
  ([.eq, .ne, .lt, .le, .gt, .ge].find? fun op : Comparison => op.toSql.toList == text).map
    .comparison

/-- The token of parentheses and commas. -/
def ofPunctuation? (c : Char) : Option SqlToken :=
  if c = '(' then some .open
  else if c = ')' then some .close
  else if c = ',' then some .comma
  else none

/-- The token that starts with `c`, behind `count` placeholders, and the text after it. -/
def read? (d : Dialect) (params : List Value) (count : Nat) (c : Char) (rest : List Char) :
    Option (SqlToken × List Char) :=
  if c = d.quote then
    match Identifier.readParts d.quote rest with
    | some (part :: parts, after) =>
      some (.column ⟨(part :: parts).map String.ofList, List.cons_ne_nil _ _⟩, after)
    | _ => none
  else if c.isAlpha then
    (ofWord? (c :: rest.takeWhile Char.isAlpha)).map (·, rest.dropWhile Char.isAlpha)
  else if isOperator c then
    (ofOperator? (c :: rest.takeWhile isOperator)).map (·, rest.dropWhile isOperator)
  else
    match ofPunctuation? c with
    | some t => some (t, rest)
    | none => do
      let (index, after) ← d.placeholder.read? count c rest
      return (.value (← params[index]?), after)

/-- Reading a token never lengthens the rest, so scanning ends. -/
theorem length_read? {d : Dialect} {params : List Value} {count : Nat} {c : Char}
    {rest after : List Char} {t : SqlToken} (h : read? d params count c rest = some (t, after)) :
    after.length ≤ rest.length := by
  have hdrop : ∀ (p : Char → Bool) (cs : List Char), (cs.dropWhile p).length ≤ cs.length :=
    fun p cs => (List.dropWhile_suffix p).length_le
  rw [read?] at h
  split at h
  · split at h
    · rename_i hparts
      obtain ⟨-, rfl⟩ := Prod.mk.inj (Option.some.inj h)
      exact Identifier.length_readParts hparts
    · exact absurd h (by simp)
  split at h
  · obtain ⟨_, -, h⟩ := Option.map_eq_some_iff.1 h
    obtain ⟨-, rfl⟩ := Prod.mk.inj h
    exact hdrop _ rest
  split at h
  · obtain ⟨_, -, h⟩ := Option.map_eq_some_iff.1 h
    obtain ⟨-, rfl⟩ := Prod.mk.inj h
    exact hdrop _ rest
  split at h
  · obtain ⟨-, rfl⟩ := Prod.mk.inj (Option.some.inj h)
    exact Nat.le_refl _
  · obtain ⟨⟨index, more⟩, hplace, h⟩ := Option.bind_eq_some_iff.1 h
    obtain ⟨v, -, h⟩ := Option.bind_eq_some_iff.1 h
    obtain ⟨-, rfl⟩ := Prod.mk.inj (Option.some.inj h)
    exact Placeholder.length_read? hplace

/-- The tokens of a text behind `count` placeholders. -/
def scan (d : Dialect) (params : List Value) : Nat → List Char → Option (List SqlToken)
  | _, [] => some []
  | count, c :: rest =>
    if Text.isBlank c then scan d params count rest
    else
      match _h : read? d params count c rest with
      | some (t, after) => (scan d params (count + t.places) after).map (t :: ·)
      | none => none
termination_by _ cs => cs.length
decreasing_by
  · exact Nat.lt_succ_self _
  · exact Nat.lt_succ_of_le (length_read? _h)

variable {d : Dialect} {params : List Value} {count : Nat} {rest : List Char}

/-- At the end of the text there are no tokens. -/
theorem scan_nil : scan d params count [] = some [] := by rw [scan.eq_def]

/-- White space is passed over. -/
theorem scan_blank {c : Char} (h : Text.isBlank c = true) (rest : List Char) :
    scan d params count (c :: rest) = scan d params count rest := by
  rw [scan.eq_def]
  exact if_pos h

/-- A token is read, and scanning goes on behind it with its placeholder counted. -/
theorem scan_cons {c : Char} (hblank : Text.isBlank c = false) {t : SqlToken}
    {after : List Char} (h : read? d params count c rest = some (t, after)) :
    scan d params count (c :: rest) =
      (scan d params (count + t.places) after).map (t :: ·) := by
  rw [scan.eq_def]
  simp only [hblank, Bool.false_eq_true, if_false]
  split
  · rename_i heq
    obtain ⟨rfl, rfl⟩ := Prod.mk.inj (Option.some.inj (heq.symm.trans h))
    rfl
  · rename_i heq
    exact absurd (heq.symm.trans h) (by simp)

end SqlToken

/-- A quote character of SQL for names, and a style of placeholders that have a meaning
by themselves. -/
structure Dialect.Standard (d : Dialect) : Prop where
  quote_eq : d.quote = '\x60' ∨ d.quote = '\x22'
  placeholder_eq : d.placeholder = .question ∨ d.placeholder = .dollar ∨ d.placeholder = .atP

namespace SqlToken

variable {d : Dialect} {params : List Value} {count : Nat} {rest : List Char}

/-- No other character than a backtick or a double quote opens an identifier. -/
theorem ne_quote (hd : d.Standard) {c : Char} (hc : c ≠ '\x60') (hc' : c ≠ '\x22') :
    c ≠ d.quote := by
  rintro rfl
  rcases hd.quote_eq with heq | heq
  · exact hc heq
  · exact hc' heq

/-- A word ends where its letters do. -/
theorem scan_word (hd : d.Standard) {c : Char} {word : List Char} {t : SqlToken}
    (hblank : Text.isBlank c = false) (hword : (c :: word).all Char.isAlpha = true)
    (ht : ofWord? (c :: word) = some t) (hplaces : t.places = 0)
    (hrest : rest.head?.any Char.isAlpha = false) :
    scan d params count (c :: word ++ rest) = (scan d params count rest).map (t :: ·) := by
  obtain ⟨hc, hmore⟩ := Bool.and_eq_true_iff.1 (List.all_cons.symm.trans hword)
  have hquote : c ≠ d.quote := by
    refine ne_quote hd ?_ ?_ <;> rintro rfl <;> exact absurd hc (by decide)
  have hread : read? d params count c (word ++ rest) = some (t, rest) := by
    rw [read?, if_neg hquote, if_pos hc, Text.takeWhile_run hmore hrest,
      Text.dropWhile_run hmore hrest, ht]
    rfl
  rw [List.cons_append, scan_cons hblank hread, hplaces]
  rfl

/-- An operator ends where its characters do. -/
theorem scan_operator (hd : d.Standard) {op : Comparison} (hop : op ≠ .like)
    (hrest : rest.head?.any isOperator = false) :
    scan d params count (op.toSql.toList ++ rest) =
      (scan d params count rest).map (.comparison op :: ·) := by
  have hfirst : ∀ (c : Char) (more : List Char), Text.isBlank c = false → c.isAlpha = false →
      (c :: more).all isOperator = true → ofOperator? (c :: more) = some (.comparison op) →
        scan d params count (c :: more ++ rest) =
          (scan d params count rest).map (.comparison op :: ·) := by
    intro c more hblank halpha hall ht
    obtain ⟨hc, hmore⟩ := Bool.and_eq_true_iff.1 (List.all_cons.symm.trans hall)
    have hquote : c ≠ d.quote := by
      refine ne_quote hd ?_ ?_ <;> rintro rfl <;> exact absurd hc (by decide)
    have hread : read? d params count c (more ++ rest) = some (.comparison op, rest) := by
      rw [read?, if_neg hquote, if_neg (by simp [halpha]), if_pos hc,
        Text.takeWhile_run hmore hrest, Text.dropWhile_run hmore hrest, ht]
      rfl
    exact scan_cons hblank hread
  cases op with
  | like => exact absurd rfl hop
  | eq => exact hfirst '=' [] rfl rfl rfl rfl
  | ne => exact hfirst '!' ['='] rfl rfl rfl rfl
  | lt => exact hfirst '<' [] rfl rfl rfl rfl
  | le => exact hfirst '<' ['='] rfl rfl rfl rfl
  | gt => exact hfirst '>' [] rfl rfl rfl rfl
  | ge => exact hfirst '>' ['='] rfl rfl rfl rfl

/-- Punctuation is a token by itself. -/
theorem scan_punctuation (hd : d.Standard) {c : Char} {t : SqlToken}
    (h : (c, t) ∈ [('(', SqlToken.open), (')', .close), (',', .comma)]) (rest : List Char) :
    scan d params count (c :: rest) = (scan d params count rest).map (t :: ·) := by
  have hread : ∀ (c : Char) (t : SqlToken), c ≠ '\x60' → c ≠ '\x22' → c.isAlpha = false →
      isOperator c = false → ofPunctuation? c = some t →
        read? d params count c rest = some (t, rest) := by
    intro c t hc hc' halpha hop ht
    rw [read?, if_neg (ne_quote hd hc hc'), if_neg (by simp [halpha]), if_neg (by simp [hop]), ht]
  simp only [List.mem_cons, List.not_mem_nil, or_false] at h
  rcases h with heq | heq | heq
  all_goals
    obtain ⟨rfl, rfl⟩ := Prod.mk.inj heq
    exact scan_cons rfl (hread _ _ (by decide) (by decide) rfl rfl rfl)

/-- **A quoted name is its token,** where no dot and no quote follow. -/
theorem scan_name (hd : d.Standard) (i : Identifier) (hrest : rest.head? ≠ some d.quote)
    (hrest' : rest.head? ≠ some '.') :
    scan d params count ((i.toSql d.quote).toList ++ rest) =
      (scan d params count rest).map (.column i :: ·) := by
  obtain ⟨hdot, hblank⟩ : d.quote ≠ '.' ∧ Text.isBlank d.quote = false := by
    rcases hd.quote_eq with heq | heq <;> rw [heq] <;> decide
  have hread := Identifier.readName_toSql i hdot hrest hrest'
  obtain ⟨parts, hparts⟩ := i
  obtain ⟨part, more, rfl⟩ := List.exists_cons_of_ne_nil hparts
  obtain ⟨cs, hcs⟩ := Identifier.exists_quoteParts_cons d.quote part more
  have htext : (Identifier.toSql ⟨part :: more, hparts⟩ d.quote).toList = d.quote :: cs := by
    rw [Identifier.toSql, String.toList_ofList, hcs]
  rw [htext, List.cons_append, Identifier.readName, if_pos rfl, List.map_cons] at hread
  have htoken : read? d params count d.quote (cs ++ rest) =
      some (.column ⟨part :: more, hparts⟩, rest) := by
    rw [read?, if_pos rfl, hread]
    simp [Function.comp_def]
  rw [htext, List.cons_append, scan_cons hblank htoken]
  rfl

/-- A number of a parameter is read back. -/
theorem numbered?_toString (index : Nat) (hrest : rest.head?.any Char.isDigit = false) :
    Placeholder.numbered? ((toString (index + 1)).toList ++ rest) = some (index, rest) := by
  have hdigits : (toString (index + 1)).toList = Nat.toDigits 10 (index + 1) := by
    rw [Nat.toString_eq_repr, Nat.toList_repr]
  have hall : (Nat.toDigits 10 (index + 1)).all Char.isDigit = true :=
    List.all_eq_true.2 fun c hc => Nat.isDigit_of_mem_toDigits (by decide) (by decide) hc
  rw [Placeholder.numbered?, hdigits, Text.takeWhile_run hall hrest, Text.dropWhile_run hall hrest,
    Nat.ofDigitChars_toDigits (by decide) (by decide)]

/-- **A placeholder is the value of its parameter,** where no digit follows. -/
theorem scan_placeholder (hd : d.Standard) {v : Value} (hv : params[count]? = some v)
    (hrest : rest.head?.any Char.isDigit = false) :
    scan d params count ((d.placeholder.render count).toList ++ rest) =
      (scan d params (count + 1) rest).map (.value v :: ·) := by
  have hscan : ∀ (c : Char) (more : List Char), Text.isBlank c = false → c ≠ '\x60' → c ≠ '\x22' →
      c.isAlpha = false → isOperator c = false → ofPunctuation? c = none →
        d.placeholder.read? count c more = some (count, rest) →
          scan d params count (c :: more) =
            (scan d params (count + 1) rest).map (.value v :: ·) := by
    intro c more hblank hc hc' halpha hop hpunctuation hplace
    have hread : read? d params count c more = some (.value v, rest) := by
      rw [read?, if_neg (ne_quote hd hc hc'), if_neg (by simp [halpha]), if_neg (by simp [hop]),
        hpunctuation]
      simp [hplace, hv]
    exact scan_cons hblank hread
  rcases hd.placeholder_eq with heq | heq | heq
  · rw [heq, Placeholder.render]
    refine hscan '?' rest rfl (by decide) (by decide) rfl rfl rfl ?_
    rw [heq]
    rfl
  · rw [heq, Placeholder.render, String.toList_append]
    refine hscan '$' ((toString (count + 1)).toList ++ rest) rfl (by decide) (by decide)
      rfl rfl rfl ?_
    rw [heq, Placeholder.read?, if_pos rfl]
    exact numbered?_toString count hrest
  · rw [heq, Placeholder.render, String.toList_append]
    refine hscan '@' ('p' :: ((toString (count + 1)).toList ++ rest)) rfl (by decide) (by decide)
      rfl rfl rfl ?_
    rw [heq, Placeholder.read?, if_pos (by simp), List.tail_cons]
    exact numbered?_toString count hrest

/-! ## Words -/

/-- The text in front of `rest` is scanned as `ts`. -/
def Spells (d : Dialect) (params : List Value) (count : Nat) (rest text : List Char)
    (ts : List SqlToken) : Prop :=
  scan d params count (text ++ rest) = (scan d params count rest).map (ts ++ ·)

/-- One text after another spells the tokens of both. -/
theorem Spells.append {text more : List Char} {ts us : List SqlToken}
    (h : Spells d params count (more ++ rest) text ts)
    (hmore : Spells d params count rest more us) :
    Spells d params count rest (text ++ more) (ts ++ us) := by
  rw [Spells, List.append_assoc, h, hmore, Option.map_map]
  congr 1
  funext vs
  exact (List.append_assoc ts us vs).symm

/-- A space spells no token. -/
theorem spells_blank : Spells d params count rest [' '] [] :=
  (scan_blank rfl rest).trans Option.map_id'.symm

/-- Punctuation spells its token. -/
theorem spells_punctuation (hd : d.Standard) {c : Char} {t : SqlToken}
    (h : (c, t) ∈ [('(', SqlToken.open), (')', .close), (',', .comma)]) :
    Spells d params count rest [c] [t] := scan_punctuation hd h rest

/-- A keyword spells its token if no letter comes behind it. -/
theorem spells_keyword (hd : d.Standard) {k : Keyword} (hk : k ≠ .like)
    (hrest : rest.head?.any Char.isAlpha = false) :
    Spells d params count rest k.word.toList [.keyword k] := by
  have hword : ∀ (c : Char) (word : List Char), Text.isBlank c = false →
      (c :: word).all Char.isAlpha = true → ofWord? (c :: word) = some (.keyword k) →
        Spells d params count rest (c :: word) [.keyword k] :=
    fun c word hblank hall ht => scan_word hd hblank hall ht rfl hrest
  cases k with
  | like => exact absurd rfl hk
  | and => exact hword 'A' ['N', 'D'] rfl rfl rfl
  | or => exact hword 'O' ['R'] rfl rfl rfl
  | not => exact hword 'N' ['O', 'T'] rfl rfl rfl
  | is => exact hword 'I' ['S'] rfl rfl rfl
  | null => exact hword 'N' ['U', 'L', 'L'] rfl rfl rfl
  | «in» => exact hword 'I' ['N'] rfl rfl rfl
  | between => exact hword 'B' ['E', 'T', 'W', 'E', 'E', 'N'] rfl rfl rfl
  | true => exact hword 'T' ['R', 'U', 'E'] rfl rfl rfl
  | false => exact hword 'F' ['A', 'L', 'S', 'E'] rfl rfl rfl

/-- A comparison stands between blanks. -/
theorem spells_comparison (hd : d.Standard) (op : Comparison) :
    Spells d params count rest (" " ++ op.toSql ++ " ").toList [.comparison op] := by
  have hop : Spells d params count (' ' :: rest) op.toSql.toList [.comparison op] := by
    by_cases hlike : op = .like
    · have hword : Spells d params count (' ' :: rest) ('L' :: ['I', 'K', 'E'])
          [.comparison .like] := scan_word hd rfl rfl rfl rfl rfl
      rw [hlike]
      exact hword
    · exact scan_operator hd hlike rfl
  rw [String.toList_append, String.toList_append]
  exact (spells_blank.append hop).append spells_blank

end SqlToken

end BoundSql
