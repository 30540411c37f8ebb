import BoundSql.Proofs.ConditionText.Scanning
import BoundSql.Proofs.Except
import BoundSql.Proofs.Text.Position

/-!
# Scanning by byte positions

A text can also be scanned by a cursor, a byte position that moves behind one character
after another.  The cursor looks ahead in the slice of the text behind it, and takes the
text of a number or a word as a slice between two of its positions.  There is no such slice
if one of the positions is within a character or beyond the end, and then the run has no
result.  Every run ends, since a step goes on and never beyond the end (`lt_of_next?`).

A run always has a result.  Where the cursor stands, something of the text does
(`Text.At`), and each function moves it behind just the characters that the lexeme functions
count.  So a run finds the lexemes of the text with their offsets (`scan?_eq`).
-/

namespace BoundSql

namespace ConditionText

namespace Cursor

open Text (At)

variable (text : String)

/-! ## Characters -/

/-- The characters from a byte position to the end. -/
def rest? (pos : Nat) : Option (List Char) := Text.slice? text pos text.utf8ByteSize

/-- The character that is so many characters ahead of a byte position, if the text does not
end before it. -/
def peek? (pos ahead : Nat) : Option (Option Char) := do return (← rest? text pos)[ahead]?

/-- The next character and the position behind it, if the text does not end. -/
def next? (pos : Nat) : Option (Option (Char × Nat)) := do
  return (← peek? text pos 0).map fun c => (c, pos + c.utf8Size)

/-- The position behind the next character. -/
def bump? (pos : Nat) : Option Nat := do
  match ← next? text pos with
  | some (_, next) => return next
  | none => return pos

variable {text} {pos start next stop : Nat} {c : Char} {cs rest : List Char} {p : Char → Bool}

/-- From a position between characters the rest of the text can be cut off. -/
theorem rest?_of_at (h : At text pos cs) : rest? text pos = some cs := by
  rw [rest?, Text.slice?_eq_some_iff]
  exact ⟨[], by rwa [List.append_nil], h.add_utf8Size.symm⟩

/-- Looking ahead gives the character there, if the text goes that far. -/
theorem peek?_of_at (h : At text pos cs) (ahead : Nat) :
    peek? text pos ahead = some cs[ahead]? := by
  rw [peek?, rest?_of_at h]
  rfl

/-- At the end there is no next character. -/
theorem next?_nil (h : At text pos []) : next? text pos = some none := by
  rw [next?, peek?_of_at h]
  rfl

/-- The next character is taken, and the position moves behind it. -/
theorem next?_cons (h : At text pos (c :: cs)) :
    next? text pos = some (some (c, pos + c.utf8Size)) := by
  rw [next?, peek?_of_at h]
  rfl

/-- Passing over a character moves the position behind it. -/
theorem bump?_of_at (h : At text pos (c :: cs)) : bump? text pos = some (pos + c.utf8Size) := by
  rw [bump?, next?_cons h]
  rfl

/-- Behind a character stands the rest of the text. -/
theorem at_next (h : At text pos (c :: cs)) : At text (pos + c.utf8Size) cs := by
  rw [← List.singleton_append] at h
  exact h.skip

/-- Behind a run of characters stands the rest of the text. -/
theorem at_dropWhile (p : Char → Bool) (h : At text pos cs) :
    At text (pos + Text.utf8Size (cs.takeWhile p)) (cs.dropWhile p) := by
  rw [← List.takeWhile_append_dropWhile (p := p) (l := cs)] at h
  exact h.skip

/-- Any number of characters stand together behind white space. -/
theorem at_take (h : At text pos cs) (hcs : cs.dropWhile Text.isBlank = c :: rest) (n : Nat) :
    At text (pos + Text.utf8Size (cs.takeWhile Text.isBlank))
      (c :: rest.take n ++ rest.drop n) := by
  rw [List.cons_append, List.take_append_drop, ← hcs]
  exact at_dropWhile Text.isBlank h

/-- A character is seen where it stands. -/
theorem at_of_peek? (h : peek? text pos 0 = some (some c)) : ∃ cs, At text pos (c :: cs) := by
  obtain ⟨cs, hrest, hcs⟩ := Option.bind_eq_some_iff.1 h
  obtain ⟨more, rfl⟩ := List.head?_eq_some_iff.1
    (List.head?_eq_getElem?.trans (Option.some.inj hcs))
  obtain ⟨after, hat, -⟩ := Text.slice?_eq_some_iff.1 hrest
  exact ⟨more ++ after, hat⟩

/-- Passing over a character moves the position on, and not beyond the text. -/
theorem lt_of_at (h : At text pos (c :: cs)) :
    pos < pos + c.utf8Size ∧ pos + c.utf8Size ≤ text.utf8ByteSize := by
  have hsize := (at_next h).add_utf8Size
  have hpos := c.utf8Size_pos
  omega

/-- A step goes on, and not beyond the end. -/
theorem lt_of_next? (h : next? text pos = some (some (c, next))) :
    pos < next ∧ next ≤ text.utf8ByteSize := by
  obtain ⟨d?, hpeek, hd⟩ := Option.bind_eq_some_iff.1 h
  obtain ⟨d, rfl, heq⟩ := Option.map_eq_some_iff.1 (Option.some.inj hd)
  obtain ⟨rfl, rfl⟩ := Prod.mk.inj heq
  obtain ⟨cs, hat⟩ := at_of_peek? hpeek
  exact lt_of_at hat

/-- The position behind the next characters with a property. -/
def skip? (text : String) (p : Char → Bool) (pos : Nat) : Option Nat :=
  match _h : next? text pos with
  | none => none
  | some none => some pos
  | some (some (c, next)) => if p c then skip? text p next else some pos
termination_by text.utf8ByteSize - pos
decreasing_by
  have := lt_of_next? _h
  omega

/-- At the end nothing is skipped. -/
theorem skip?_nil (h : At text pos []) (p : Char → Bool) : skip? text p pos = some pos := by
  rw [skip?]
  split <;> rename_i hstep <;> rw [next?_nil h] at hstep
  · simp at hstep
  · simp at hstep

/-- A character is skipped if it is to be, and else the position stays. -/
theorem skip?_cons (h : At text pos (c :: cs)) (p : Char → Bool) : skip? text p pos =
    if p c then skip? text p (pos + c.utf8Size) else some pos := by
  rw [skip?]
  split <;> rename_i hstep <;> rw [next?_cons h] at hstep
  · simp at hstep
  · simp at hstep
  · obtain ⟨rfl, rfl⟩ := Prod.mk.inj (Option.some.inj (Option.some.inj hstep))
    rfl

/-- Skipping ends behind the whole run. -/
theorem skip?_of_at (p : Char → Bool) (h : At text pos cs) :
    skip? text p pos = some (pos + Text.utf8Size (cs.takeWhile p)) := by
  induction cs generalizing pos with
  | nil => exact skip?_nil h p
  | cons c cs ih =>
      rw [skip?_cons h, ih (at_next h), List.takeWhile_cons]
      split
      · rw [Text.utf8Size, Nat.add_assoc]
      · rfl

/-- Skipping never moves the position back. -/
theorem le_of_skip? (h : skip? text p pos = some stop) : pos ≤ stop := by
  fun_induction skip? text p pos
  case case1 => simp at h
  case case2 | case4 => exact (Option.some.inj h).le
  case case3 hstep _ ih => exact (lt_of_next? hstep).1.le.trans (ih h)

/-! ## The first token -/

/-- The token at the front of a text, and the position behind it. -/
def firstToken (start : Nat) (c : Char) (cs : List Char) : Except LexFault (Token × Nat) := do
  let n ← Lexeme.extent c cs
  let token ← Token.read (c :: cs.take n)
  return (token, start + Text.utf8Size (c :: cs.take n))

/-- Where a lexeme has an extent, the first token is read from just these characters. -/
theorem firstToken_of_extent {n : Nat} (h : Lexeme.extent c cs = .ok n) :
    firstToken start c cs = (Token.read (c :: cs.take n)).map
      (·, start + Text.utf8Size (c :: cs.take n)) := by
  rw [firstToken, h]
  simp only [bind, Except.bind]
  cases Token.read (c :: cs.take n) <;> rfl

/-! ## Strings -/

/-- The inside of a string literal from a position behind its opening quote, and the position
behind its closing one; a doubled quote is one of its characters. -/
def string? (text : String) (value : List Char) (pos : Nat) :
    Option (Except LexFault (Token × Nat)) :=
  match _h : next? text pos with
  | none => none
  | some none => some (.error .unterminatedString)
  | some (some (c, next)) => do
    if c = Lexeme.apostrophe then
      if (← peek? text next 0) = some Lexeme.apostrophe then
        string? text (value ++ [Lexeme.apostrophe]) (next + Lexeme.apostrophe.utf8Size)
      else return .ok (.string (String.ofList value), next)
    else string? text (value ++ [c]) next
termination_by text.utf8ByteSize - pos
decreasing_by
  all_goals
    have := lt_of_next? _h
    omega

/-- A string that runs into the end is not terminated. -/
theorem string?_nil (h : At text pos []) (value : List Char) :
    string? text value pos = some (.error .unterminatedString) := by
  rw [string?]
  split <;> rename_i hstep <;> rw [next?_nil h] at hstep
  · simp at hstep
  · simp at hstep

/-- In a string an apostrophe closes it unless it is doubled, and any other character is kept. -/
theorem string?_step (h : At text pos (c :: cs)) (value : List Char) : string? text value pos =
    if c = Lexeme.apostrophe then
      if cs[0]? = some Lexeme.apostrophe then
        string? text (value ++ [Lexeme.apostrophe])
          (pos + c.utf8Size + Lexeme.apostrophe.utf8Size)
      else some (.ok (.string (String.ofList value), pos + c.utf8Size))
    else string? text (value ++ [c]) (pos + c.utf8Size) := by
  rw [string?]
  split <;> rename_i hstep <;> rw [next?_cons h] at hstep
  · simp at hstep
  · simp at hstep
  · obtain ⟨rfl, rfl⟩ := Prod.mk.inj (Option.some.inj (Option.some.inj hstep))
    rw [peek?_of_at (at_next h)]
    rfl

/-- A string goes on to the quote that closes it. -/
theorem string?_of_at (h : At text pos cs) (value : List Char) : string? text value pos =
    some ((Lexeme.stringExtent? cs).elim (.error .unterminatedString) fun n =>
      .ok (.string (String.ofList (value ++ Lexeme.unquote (cs.take n))),
        pos + Text.utf8Size (cs.take n))) := by
  fun_induction Lexeme.stringExtent? cs generalizing pos value
  case case1 => exact string?_nil h value
  case case2 =>
      rw [string?_step h]
      simp [Lexeme.unquote, Text.utf8Size]
  case case3 c hc =>
      rw [string?_step h, if_neg hc, string?_nil (at_next h)]
      rfl
  case case4 rest ih =>
      rw [string?_step h, if_pos rfl, List.getElem?_cons_zero, if_pos rfl,
        ih (at_next (at_next h))]
      cases Lexeme.stringExtent? rest with
      | none => rfl
      | some n => simp [unquote_quote, Text.utf8Size, Nat.add_assoc]
  case case5 d rest hd =>
      rw [string?_step h]
      simp [hd, Lexeme.unquote, Text.utf8Size]
  case case6 c d rest hc ih =>
      rw [string?_step h, if_neg hc, ih (at_next h)]
      cases Lexeme.stringExtent? (d :: rest) with
      | none => rfl
      | some n => simp [unquote_cons hc, Text.utf8Size, Nat.add_assoc]

/-- A string literal is the token at its opening quote. -/
theorem quoted_of_at (h : At text start (Lexeme.apostrophe :: cs)) :
    (bump? text start).bind (string? text []) = some (firstToken start Lexeme.apostrophe cs) := by
  rw [bump?_of_at h, Option.bind_some, string?_of_at (at_next h)]
  cases hn : Lexeme.stringExtent? cs with
  | none =>
      have hextent : Lexeme.extent Lexeme.apostrophe cs = .error .unterminatedString := by
        simp [Lexeme.extent, Lexeme.opensComment, hn, Lexeme.apostrophe]
      rw [firstToken, hextent]
      rfl
  | some n =>
      have hextent : Lexeme.extent Lexeme.apostrophe cs = .ok n := by
        simp [Lexeme.extent, Lexeme.opensComment, hn, Lexeme.apostrophe]
      rw [firstToken_of_extent hextent]
      simp [Token.read, Except.map, Text.utf8Size, Nat.add_assoc]

/-! ## Words -/

/-- The position behind the parts of a name with dots between them. -/
def parts? (text : String) (pos : Nat) : Option Nat :=
  match _h : skip? text Named.inName pos with
  | none => none
  | some stop =>
    match _hstep : next? text stop with
    | none => none
    | some none => some stop
    | some (some (c, next)) => do
      if c = '.' && (← peek? text stop 1).any Named.startsName then parts? text next
      else return stop
termination_by text.utf8ByteSize - pos
decreasing_by
  have := le_of_skip? _h
  have := lt_of_next? _hstep
  omega

/-- The word at a position. -/
def word? (text : String) (start : Nat) : Option (Except LexFault (Token × Nat)) := do
  let stop ← parts? text start
  return (Token.ofWord (← Text.slice? text start stop)).map (·, stop)

/-- At the end of the text a word ends. -/
theorem parts?_nil (hskip : skip? text Named.inName pos = some stop) (h : At text stop []) :
    parts? text pos = some stop := by
  rw [parts?]
  split <;> rename_i hstop <;> rw [hskip] at hstop
  · simp at hstop
  · obtain rfl := Option.some.inj hstop
    split <;> rename_i hstep <;> rw [next?_nil h] at hstep
    · simp at hstep
    · simp at hstep

/-- Behind a dot a word goes on if a name starts there. -/
theorem parts?_cons (hskip : skip? text Named.inName pos = some stop)
    (h : At text stop (c :: cs)) : parts? text pos =
      if c = '.' && cs.head?.any Named.startsName then parts? text (stop + c.utf8Size)
      else some stop := by
  rw [parts?]
  split <;> rename_i hstop <;> rw [hskip] at hstop
  · simp at hstop
  · obtain rfl := Option.some.inj hstop
    split <;> rename_i hstep <;> rw [next?_cons h] at hstep
    · simp at hstep
    · simp at hstep
    · obtain ⟨rfl, rfl⟩ := Prod.mk.inj (Option.some.inj (Option.some.inj hstep))
      rw [peek?_of_at h, List.head?_eq_getElem?]
      rfl

/-- Characters of a name are part of the word. -/
theorem wordExtent_run {run : List Char} (h : run.all Named.inName = true) (rest : List Char) :
    Lexeme.wordExtent (run ++ rest) = run.length + Lexeme.wordExtent rest := by
  induction run with
  | nil => exact (Nat.zero_add _).symm
  | cons c run ih =>
      obtain ⟨hc, hrun⟩ := Bool.and_eq_true_iff.1 (List.all_cons.symm.trans h)
      rw [List.cons_append, Lexeme.wordExtent, if_pos (by simp [hc]), ih hrun, List.length_cons,
        Nat.add_right_comm]

/-- A name goes on to where nothing belongs to it. -/
theorem parts?_of_at (h : At text pos cs) :
    parts? text pos = some (pos + Text.utf8Size (cs.take (Lexeme.wordExtent cs))) := by
  induction hn : cs.length using Nat.strongRecOn generalizing pos cs with
  | ind n ih =>
      obtain ⟨run, rest, hrun, rfl, hrest⟩ := Text.exists_run Named.inName cs
      have hskip := skip?_of_at Named.inName h
      rw [Text.takeWhile_run hrun hrest] at hskip
      rw [wordExtent_run hrun, List.take_length_add_append, Text.utf8Size_append]
      cases rest with
      | nil => exact parts?_nil hskip h.skip
      | cons c more =>
          have hc : Named.inName c = false := hrest
          rw [parts?_cons hskip h.skip, Lexeme.wordExtent, hc, Bool.false_or]
          split
          · have hlength : more.length < n := by
              simp only [← hn, List.length_append, List.length_cons]
              omega
            rw [ih _ hlength (at_next h.skip) rfl, List.take_succ_cons, Text.utf8Size]
            simp only [Nat.add_assoc]
          · rfl

/-- A word is read in place as it is from its characters. -/
theorem word?_of_at (h : At text start (c :: cs)) (hc : Named.startsName c = true) :
    word? text start = some (firstToken start c cs) := by
  have hextent : Lexeme.wordExtent (c :: cs) = Lexeme.wordExtent cs + 1 :=
    if_pos (by simp [Named.inName_of_startsName hc])
  have hparts := parts?_of_at h
  rw [hextent, List.take_succ_cons] at hparts
  rw [← List.take_append_drop (Lexeme.wordExtent cs) cs, ← List.cons_append] at h
  have hslice := Text.slice?_eq_some_iff.2 ⟨_, h, rfl⟩
  have hnumber : ¬Lexeme.opensNumber c [] = true := by
    simp [Lexeme.opensNumber, isDigit_of_startsName hc]
  rw [firstToken_of_extent (extent_word hc cs), read_word hc hnumber]
  simp only [word?, bind, hparts, Option.bind_some, hslice]
  rfl

/-! ## Numbers -/

/-- The position behind the sign and the whole part of a number. -/
def whole? (text : String) (start : Nat) : Option Nat := do
  let digits ← if (← peek? text start 0) = some '-' then bump? text start else pure start
  skip? text Char.isDigit digits

/-- The position behind a point with digits after it, if these are at a position. -/
def fraction? (text : String) (point : Nat) : Option Nat := do
  if (← peek? text point 0) = some '.' && (← peek? text point 1).any Char.isDigit then
    skip? text Char.isDigit (← bump? text point)
  else return point

/-- The number at a position. -/
def number? (text : String) (start : Nat) : Option (Except LexFault (Token × Nat)) := do
  let stop ← fraction? text (← whole? text start)
  if (← peek? text stop 0).any fun c => c == '.' || Named.inName c then
    return .error .invalidNumber
  else return (Token.ofNumber (← Text.slice? text start stop)).map (·, stop)

/-- The whole part of a number ends behind its run of digits. -/
theorem whole?_of_at (h : At text start (c :: cs)) (hc : Lexeme.opensNumber c cs = true) :
    whole? text start = some (start + Text.utf8Size (c :: cs.takeWhile Char.isDigit)) := by
  rw [whole?]
  simp only [bind, Option.bind_some, peek?_of_at h, List.getElem?_cons_zero, Option.some.injEq]
  split
  · rw [bump?_of_at h, Option.bind_some, skip?_of_at _ (at_next h), Text.utf8Size, Nat.add_assoc]
  · rename_i hminus
    have hdigit : c.isDigit = true := by simpa [Lexeme.opensNumber, hminus] using hc
    exact (skip?_of_at _ h).trans (by rw [List.takeWhile_cons, if_pos hdigit])

/-- The characters of a point and digits after it, at the front of a text. -/
def fractionExtent (rest : List Char) : Nat :=
  if rest[0]? = some '.' && rest[1]?.any Char.isDigit then
    (rest.tail.takeWhile Char.isDigit).length + 1
  else 0

/-- A fraction ends in place where it ends among the characters. -/
theorem fraction?_of_at (h : At text pos cs) :
    fraction? text pos = some (pos + Text.utf8Size (cs.take (fractionExtent cs))) := by
  rw [fraction?, fractionExtent]
  simp only [bind, Option.bind_some, peek?_of_at h]
  split
  · rename_i hpoint
    rw [Bool.and_eq_true, decide_eq_true_eq, ← List.head?_eq_getElem?] at hpoint
    obtain ⟨more, rfl⟩ := List.head?_eq_some_iff.1 hpoint.1
    obtain ⟨digits, after, hdigits, rfl, hafter⟩ := Text.exists_run Char.isDigit more
    rw [bump?_of_at h, Option.bind_some, skip?_of_at _ (at_next h), List.tail_cons,
      Text.takeWhile_run hdigits hafter, List.take_succ_cons, List.take_left, Text.utf8Size,
      Nat.add_assoc]
  · rfl

/-- A point without digits behind it starts no fraction. -/
theorem fractionExtent_point (more : List Char) : fractionExtent ('.' :: more) =
    if (more.takeWhile Char.isDigit).length = 0 then 0
    else (more.takeWhile Char.isDigit).length + 1 := by
  cases more with
  | nil => rfl
  | cons d more =>
      by_cases hd : d.isDigit = true
      · simp [fractionExtent, hd]
      · simp [fractionExtent, hd]

/-- Behind the digits a number goes on with its fraction, and then nothing of a number or name may
follow. -/
theorem numberExtent_append {whole rest : List Char} (hwhole : whole.all Char.isDigit = true)
    (hrest : rest.head?.any Char.isDigit = false) : Lexeme.numberExtent (whole ++ rest) =
      if (rest.drop (fractionExtent rest)).head?.any fun c => c == '.' || Named.inName c then
        .error .invalidNumber
      else .ok (whole.length + fractionExtent rest) := by
  rw [Lexeme.numberExtent, Text.takeWhile_run hwhole hrest, List.drop_left]
  split
  · rw [fractionExtent_point]
  · rename_i hpoint
    have hnone : fractionExtent rest = 0 := by
      refine if_neg ?_
      rw [Bool.and_eq_true, decide_eq_true_eq, ← List.head?_eq_getElem?, List.head?_eq_some_iff]
      rintro ⟨⟨more, rfl⟩, -⟩
      exact hpoint more rfl
    rw [hnone]

/-- A number goes on to where nothing belongs to it. -/
theorem number?_of_at (h : At text start (c :: cs)) (hc : Lexeme.opensNumber c cs = true) :
    number? text start = some (firstToken start c cs) := by
  obtain ⟨whole, rest, hwhole, rfl, hrest⟩ := Text.exists_run Char.isDigit cs
  have hpoint := whole?_of_at h hc
  rw [Text.takeWhile_run hwhole hrest] at hpoint
  rw [← List.cons_append] at h
  -- The number is a part of the text, and so it can be sliced.
  have hfraction := fraction?_of_at h.skip
  rw [← List.take_append_drop (fractionExtent rest) rest, ← List.append_assoc] at h
  rw [Nat.add_assoc, ← Text.utf8Size_append] at hfraction
  have hslice := Text.slice?_eq_some_iff.2 ⟨_, h, rfl⟩
  rw [number?]
  simp only [bind, hpoint, Option.bind_some, hfraction, peek?_of_at h.skip, hslice,
    ← List.head?_eq_getElem?]
  split <;> rename_i hnext
  · rw [firstToken, extent_number hc, numberExtent_append hwhole hrest, if_pos hnext]
    rfl
  · have hextent := (numberExtent_append hwhole hrest).trans (if_neg hnext)
    rw [firstToken_of_extent ((extent_number hc).trans hextent), read_number hc,
      List.take_length_add_append]
    rfl

/-- The number or the word at a position that a character stands at, if one starts there. -/
def numberOrWord? (text : String) (start : Nat) (c : Char) :
    Option (Except LexFault (Token × Nat)) := do
  if c = '-' && (← peek? text start 1).any Char.isDigit then number? text start
  else if c.isDigit then number? text start
  else if Named.startsName c then word? text start
  else return .error (.unexpected c)

/-- A number or a word is read in place as it is from its characters. -/
theorem numberOrWord?_of_at (h : At text start (c :: cs)) (hextent : Lexeme.extent c cs =
    if Lexeme.opensNumber c cs then Lexeme.numberExtent cs
    else if Named.startsName c then .ok (Lexeme.wordExtent cs)
    else .error (.unexpected c)) : numberOrWord? text start c = some (firstToken start c cs) := by
  rw [numberOrWord?]
  simp only [bind, Option.bind_some, peek?_of_at h, List.getElem?_cons_succ,
    ← List.head?_eq_getElem?]
  by_cases hsign : (c = '-' && cs.head?.any Char.isDigit) = true
  · rw [if_pos hsign]
    exact number?_of_at h (Bool.or_eq_true_iff.2 (.inr hsign))
  rw [if_neg hsign]
  by_cases hdigit : c.isDigit = true
  · rw [if_pos hdigit]
    exact number?_of_at h (Bool.or_eq_true_iff.2 (.inl hdigit))
  rw [if_neg hdigit]
  by_cases hname : Named.startsName c = true
  · rw [if_pos hname]
    exact word?_of_at h hname
  have hnumber : ¬Lexeme.opensNumber c cs = true := fun h =>
    (Bool.or_eq_true_iff.1 h).elim hdigit hsign
  rw [if_neg hname, firstToken, hextent, if_neg hnumber, if_neg hname]
  rfl

/-! ## Signs -/

/-- The comparison that a less-than sign opens. -/
def less? (text : String) (start : Nat) : Option (Except LexFault (Token × Nat)) := do
  let next ← bump? text start
  match ← peek? text next 0 with
  | some '=' => return .ok (.comparison .le, ← bump? text next)
  | some '>' => return .ok (.comparison .ne, ← bump? text next)
  | _ => return .ok (.comparison .lt, next)

/-- The comparison that a greater-than sign opens. -/
def greater? (text : String) (start : Nat) : Option (Except LexFault (Token × Nat)) := do
  let next ← bump? text start
  if (← peek? text next 0) = some '=' then return .ok (.comparison .ge, ← bump? text next)
  else return .ok (.comparison .gt, next)

/-- A comment starts with two dashes, a slash and a star, or a hash sign. -/
theorem opensComment_eq (c : Char) (cs : List Char) : Lexeme.opensComment c cs =
    (['-', '-'].isPrefixOf (c :: cs) || ['/', '*'].isPrefixOf (c :: cs) || c = '#') := by
  rw [Bool.eq_iff_iff]
  cases cs with
  | nil => simp [Lexeme.opensComment]
  | cons d cs =>
      simp only [Lexeme.opensComment, List.isPrefixOf_cons_cons, List.isPrefixOf_nil_left,
        List.head?_cons, Option.some_beq_some, Bool.and_true, Bool.or_eq_true, Bool.and_eq_true,
        beq_iff_eq, decide_eq_true_eq]
      grind

/-- A token of one character. -/
theorem single_of_at (h : At text start (c :: cs)) {t : Token}
    (hextent : Lexeme.extent c cs = .ok 0) (hread : Token.read [c] = .ok t) :
    (bump? text start).bind (fun next => some (.ok (t, next))) = some (firstToken start c cs) := by
  rw [bump?_of_at h, firstToken_of_extent hextent, List.take_zero, hread]
  rfl

/-- What starts with a less-than sign is read in place as it is from its characters. -/
theorem less?_of_at (h : At text start ('<' :: cs)) :
    less? text start = some (firstToken start '<' cs) := by
  have hnext := at_next h
  rw [less?, bump?_of_at h]
  simp only [bind, Option.bind_some, peek?_of_at hnext]
  split
  · rename_i hequals
    obtain ⟨more, rfl⟩ := List.head?_eq_some_iff.1 (List.head?_eq_getElem?.trans hequals)
    rw [bump?_of_at hnext]
    rfl
  · rename_i hgreater
    obtain ⟨more, rfl⟩ := List.head?_eq_some_iff.1 (List.head?_eq_getElem?.trans hgreater)
    rw [bump?_of_at hnext]
    rfl
  · rename_i hequals hgreater
    have hextent : Lexeme.extent '<' cs = .ok 0 := by
      refine congrArg Except.ok (if_neg ?_)
      simpa [List.head?_eq_getElem?] using ⟨hequals, hgreater⟩
    rw [firstToken_of_extent hextent]
    rfl

/-- What starts with a greater-than sign is read in place as it is from its characters. -/
theorem greater?_of_at (h : At text start ('>' :: cs)) :
    greater? text start = some (firstToken start '>' cs) := by
  have hnext := at_next h
  rw [greater?, bump?_of_at h]
  simp only [bind, Option.bind_some, peek?_of_at hnext]
  split
  · rename_i hequals
    obtain ⟨more, rfl⟩ := List.head?_eq_some_iff.1 (List.head?_eq_getElem?.trans hequals)
    rw [bump?_of_at hnext]
    rfl
  · rename_i hequals
    have hextent : Lexeme.extent '>' cs = .ok 0 :=
      congrArg Except.ok (if_neg (by rwa [List.head?_eq_getElem?]))
    rw [firstToken_of_extent hextent]
    rfl

/-! ## Tokens -/

/-- The token at a position that a character stands at, and the position behind it. -/
def token? (text : String) (start : Nat) (c : Char) : Option (Except LexFault (Token × Nat)) := do
  let rest ← rest? text start
  if ['-', '-'].isPrefixOf rest || ['/', '*'].isPrefixOf rest || c = '#' then
    return .error .comment
  else if c = ';' then return .error .separator
  else if c = Lexeme.apostrophe then string? text [] (← bump? text start)
  else if c = '\x22' || c = '\x60' then return .error .quotedIdentifier
  else if c = '(' then return .ok (.open, ← bump? text start)
  else if c = ')' then return .ok (.close, ← bump? text start)
  else if c = ',' then return .ok (.comma, ← bump? text start)
  else if c = '=' then return .ok (.comparison .eq, ← bump? text start)
  else if c = '!' && (← peek? text start 1) = some '=' then
    return .ok (.comparison .ne, start + 2)
  else if c = '<' then less? text start
  else if c = '>' then greater? text start
  else numberOrWord? text start c

/-- **The token at a position is the first one of what stands there.** -/
theorem token?_of_at (h : At text start (c :: cs)) :
    token? text start c = some (firstToken start c cs) := by
  -- One case for each branch, in their order.
  rw [token?, rest?_of_at h]
  simp only [bind, Option.bind_some, ← opensComment_eq]
  by_cases hcomment : Lexeme.opensComment c cs = true
  · rw [if_pos hcomment, firstToken, Lexeme.extent, if_pos hcomment]
    rfl
  rw [if_neg hcomment]
  by_cases hsemi : c = ';'
  · subst hsemi
    rfl
  rw [if_neg hsemi]
  by_cases hstring : c = Lexeme.apostrophe
  · subst hstring
    exact quoted_of_at h
  rw [if_neg hstring]
  by_cases hquoted : (c = '\x22' || c = '\x60') = true
  · rw [if_pos hquoted, firstToken, Lexeme.extent, if_neg hcomment, if_neg hsemi, if_neg hstring,
      if_pos hquoted]
    rfl
  rw [if_neg hquoted]
  by_cases hopen : c = '('
  · subst hopen
    exact single_of_at h rfl rfl
  rw [if_neg hopen]
  by_cases hclose : c = ')'
  · subst hclose
    exact single_of_at h rfl rfl
  rw [if_neg hclose]
  by_cases hcomma : c = ','
  · subst hcomma
    exact single_of_at h rfl rfl
  rw [if_neg hcomma]
  by_cases heq : c = '='
  · subst heq
    exact single_of_at h rfl rfl
  rw [if_neg heq]
  simp only [peek?_of_at h, Option.bind_some]
  by_cases hne : (c = '!' && (c :: cs)[1]? = some '=') = true
  · rw [if_pos hne]
    simp only [Bool.and_eq_true, decide_eq_true_eq, List.getElem?_cons_succ] at hne
    obtain ⟨rfl, hequals⟩ := hne
    obtain ⟨more, rfl⟩ := List.head?_eq_some_iff.1 (List.head?_eq_getElem?.trans hequals)
    rfl
  rw [if_neg hne]
  by_cases hless : c = '<'
  · subst hless
    exact less?_of_at h
  rw [if_neg hless]
  by_cases hgreater : c = '>'
  · subst hgreater
    exact greater?_of_at h
  rw [if_neg hgreater]
  refine numberOrWord?_of_at h ?_
  have hsign : ¬(c = '(' || c = ')' || c = ',' || c = '=') = true := by
    simp [hopen, hclose, hcomma, heq]
  rw [List.getElem?_cons_succ, ← List.head?_eq_getElem?] at hne
  rw [Lexeme.extent, if_neg hcomment, if_neg hsemi, if_neg hstring, if_neg hquoted, if_neg hsign,
    if_neg hne, if_neg hless, if_neg hgreater]

/-- A token is not empty. -/
theorem lt_of_token? {t : Token} (hc : peek? text start 0 = some (some c))
    (ht : token? text start c = some (.ok (t, stop))) :
    start < stop ∧ start < text.utf8ByteSize := by
  obtain ⟨cs, h⟩ := at_of_peek? hc
  obtain ⟨hnext, hsize⟩ := lt_of_at h
  rw [token?_of_at h, firstToken, Option.some.injEq] at ht
  obtain ⟨n, -, ht⟩ := bind_eq_ok.1 ht
  obtain ⟨token, -, ht⟩ := bind_eq_ok.1 ht
  obtain ⟨-, rfl⟩ := Prod.mk.inj (Except.ok.inj ht)
  rw [Text.utf8Size]
  omega

/-! ## Runs -/

/-- What a run over a text finds: the tokens with the positions they start at, the position it
stops at, and why no token can be read there, unless the text ends. -/
structure Found where
  tokens : List (Token × Nat)
  stop : Nat
  fault? : Option LexFault

/-- Runs over a text from a position, behind some tokens. -/
def run? (text : String) (tokens : List (Token × Nat)) (pos : Nat) : Option Found :=
  match _hstart : skip? text Text.isBlank pos with
  | none => none
  | some start =>
    match _hc : peek? text start 0 with
    | none => none
    | some none => some ⟨tokens, start, none⟩
    | some (some c) =>
      match _ht : token? text start c with
      | none => none
      | some (.error fault) => some ⟨tokens, start, some fault⟩
      | some (.ok (token, stop)) => run? text (tokens ++ [(token, start)]) stop
termination_by text.utf8ByteSize - pos
decreasing_by
  have := le_of_skip? _hstart
  have := lt_of_token? _hc _ht
  omega

/-- Runs over a text. -/
def scan? (text : String) : Option Found := run? text [] 0

/-- In front of white space alone the run ends with the tokens so far. -/
theorem run?_nil (h : At text pos cs) (hcs : cs.dropWhile Text.isBlank = [])
    (tokens : List (Token × Nat)) : run? text tokens pos =
      some ⟨tokens, pos + Text.utf8Size (cs.takeWhile Text.isBlank), none⟩ := by
  have hat := at_dropWhile Text.isBlank h
  rw [hcs] at hat
  rw [run?]
  split <;> rename_i hstart <;> rw [skip?_of_at Text.isBlank h] at hstart
  · simp at hstart
  · obtain rfl := Option.some.inj hstart
    split <;> rename_i hc <;> rw [peek?_of_at hat] at hc
    · simp at hc
    · simp at hc

/-- The token behind white space ends the run or is passed over. -/
theorem run?_cons (h : At text pos cs) (hcs : cs.dropWhile Text.isBlank = c :: rest)
    (hstart : start = pos + Text.utf8Size (cs.takeWhile Text.isBlank))
    (tokens : List (Token × Nat)) :
    (∀ fault, firstToken start c rest = .error fault →
      run? text tokens pos = some ⟨tokens, start, some fault⟩) ∧
    ∀ t stop, firstToken start c rest = .ok (t, stop) →
      run? text tokens pos = run? text (tokens ++ [(t, start)]) stop := by
  have hskip := skip?_of_at Text.isBlank h
  have hat := at_dropWhile Text.isBlank h
  rw [hcs, ← hstart] at hat
  rw [← hstart] at hskip
  rw [run?]
  split <;> rename_i hsome <;> rw [hskip] at hsome
  · simp at hsome
  · obtain rfl := Option.some.inj hsome
    split <;> rename_i hc <;> rw [peek?_of_at hat] at hc
    · simp at hc
    · simp at hc
    · obtain rfl := Option.some.inj (Option.some.inj hc)
      split <;> rename_i ht <;> rw [token?_of_at hat] at ht
      · simp at ht
      · rw [Option.some.inj ht]
        simp
      · rw [Option.some.inj ht]
        simp

/-- A run finds the lexemes of what stands at its position. -/
theorem run?_of_at (h : At text pos cs) (tokens : List (Token × Nat)) : run? text tokens pos =
    some ⟨tokens ++ (Lexed.scanFrom pos cs).lexemes.map fun l => (l.token, l.offset),
      (Lexed.scanFrom pos cs).stop, (Lexed.scanFrom pos cs).fault?⟩ := by
  fun_induction Lexed.scanFrom pos cs generalizing tokens
  case case1 pos cs start heq =>
      rw [run?_nil h heq]
      simp [start]
  case case2 pos cs start c rest heq fault hextent =>
      have hfirst : firstToken start c rest = .error fault := by
        rw [firstToken, hextent]
        rfl
      rw [(run?_cons h heq rfl tokens).1 fault hfirst]
      simp [start]
  case case3 pos cs start c rest heq n hextent part fault hread =>
      have hfirst : firstToken start c rest = .error fault := by
        rw [firstToken_of_extent hextent, hread]
        rfl
      rw [(run?_cons h heq rfl tokens).1 fault hfirst]
      simp [start]
  case case4 pos cs start c rest heq n hextent part t hread later ih =>
      have hfirst : firstToken start c rest = .ok (t, start + Text.utf8Size part) := by
        rw [firstToken_of_extent hextent, hread]
        rfl
      rw [(run?_cons h heq rfl tokens).2 t _ hfirst, ih (at_take h heq n).skip]
      simp [start, later]

/-- **A scan by byte positions has a result,** which is the lexemes with their offsets. -/
theorem scan?_eq (text : String) : scan? text =
    some ⟨(Lexed.scan text).lexemes.map fun l => (l.token, l.offset), (Lexed.scan text).stop,
      (Lexed.scan text).fault?⟩ :=
  run?_of_at (Text.at_zero text) []

end Cursor

end ConditionText

end BoundSql
