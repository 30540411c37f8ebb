import BoundSql.Proofs.ConditionText.Cursor
import BoundSql.Proofs.ConditionText.Marks

/-!
# Where reading a condition fails

A text that is no condition fails at a byte offset.  Either a token cannot be read there:
then the text in front of it is cut into the same lexemes by itself, since what follows a
lexeme ends it also when it is cut short (`Token.Ends.of_append`).  Or all tokens can be
read and the grammar does not ask for this one: every parser that fails within some lexemes
fails at one of them or behind them all (`FailsAtPlace`), and a parser that is built from
such parsers does so too.

Every lexeme stands in the text at its offset, so both are good positions to cut the text
at.
-/

namespace BoundSql

namespace ConditionText

open Text (At)

variable {text : String} {pos : Nat} {cs rest : List Char} {c : Char} {fault : LexFault}

/-! ## Places of lexemes -/

/-- Every lexeme stands in the text at its offset. -/
theorem at_lexeme (h : At text pos cs) :
    ∀ l ∈ (Lexed.scanFrom pos cs).lexemes, ∃ rest, At text l.offset (l.text ++ rest) := by
  fun_induction Lexed.scanFrom pos cs
  case case1 | case2 | case3 => simp
  case case4 pos cs start c rest heq n hextent part t hread later ih =>
      have hpart := Cursor.at_take h heq n
      exact List.forall_mem_cons.2 ⟨⟨_, hpart⟩, ih hpart.skip⟩

/-- Something stands where the lexemes end, and nothing does if there is no fault. -/
theorem at_stop (h : At text pos cs) : ∃ rest, At text (Lexed.scanFrom pos cs).stop rest ∧
    ((Lexed.scanFrom pos cs).fault? = none → rest = []) := by
  fun_induction Lexed.scanFrom pos cs
  case case1 pos cs start heq =>
      exact ⟨[], heq ▸ Cursor.at_dropWhile Text.isBlank h, fun _ => rfl⟩
  case case2 | case3 => exact ⟨_, Cursor.at_dropWhile Text.isBlank h, by simp⟩
  case case4 pos cs start c rest heq n hextent part t hread later ih =>
      exact ih (Cursor.at_take h heq n).skip

/-! ## The first token that cannot be read -/

/-- What stands behind the white space starts with another character. -/
theorem isBlank_of_dropWhile (h : cs.dropWhile Text.isBlank = c :: rest) :
    Text.isBlank c = false := by
  have hhead := Text.head?_dropWhile (p := Text.isBlank) cs
  rw [h] at hhead
  exact hhead

/-- Scanning stops with the fault of its first lexeme. -/
theorem scanFrom_error (hc : Text.isBlank c = false)
    (h : (do let n ← Lexeme.extent c rest; Token.read (c :: rest.take n)) = .error fault)
    (offset : Nat) : Lexed.scanFrom offset (c :: rest) = ⟨[], offset, some fault⟩ := by
  have hdrop : (c :: rest).dropWhile Text.isBlank = c :: rest := by
    rw [List.dropWhile_cons, hc]
    rfl
  have htake : (c :: rest).takeWhile Text.isBlank = [] := by
    rw [List.takeWhile_cons, hc]
    rfl
  rw [Lexed.scanFrom, htake]
  split
  · rename_i heq
    rw [hdrop] at heq
    simp at heq
  · rename_i heq
    rw [hdrop] at heq
    obtain ⟨rfl, rfl⟩ := List.cons.inj heq
    cases hextent : Lexeme.extent c rest with
    | error =>
        rw [hextent] at h
        obtain rfl := Except.error.inj h
        rfl
    | ok n =>
        rw [hextent] at h
        have hread : Token.read (c :: rest.take n) = .error fault := h
        simp only [hread]
        rfl

/-- **What stands in front of a fault is cut into the same lexemes,** and no lexeme can be
cut off what stands behind. -/
theorem exists_of_fault {offset : Nat} (h : (Lexed.scanFrom offset cs).fault? = some fault) :
    ∃ before after, cs = before ++ after ∧
      Lexed.scanFrom offset before =
        ⟨(Lexed.scanFrom offset cs).lexemes, (Lexed.scanFrom offset cs).stop, none⟩ ∧
      (Lexed.scanFrom offset cs).stop = offset + Text.utf8Size before ∧
      ∀ start, Lexed.scanFrom start after = ⟨[], start, some fault⟩ := by
  have hblanks : ∀ cs : List Char, (cs.takeWhile Text.isBlank).all Text.isBlank = true :=
    fun _ => List.all_takeWhile
  have hsplit : ∀ cs : List Char, cs.takeWhile Text.isBlank ++ cs.dropWhile Text.isBlank = cs :=
    fun _ => List.takeWhile_append_dropWhile
  fun_induction Lexed.scanFrom offset cs
  case case1 => simp at h
  case case2 offset cs start c rest heq fault' hextent =>
      obtain rfl := Option.some.inj h
      refine ⟨cs.takeWhile Text.isBlank, c :: rest, by rw [← heq, hsplit],
        scanFrom_blanks (hblanks cs) offset, rfl, scanFrom_error (isBlank_of_dropWhile heq) ?_⟩
      rw [hextent]
      rfl
  case case3 offset cs start c rest heq n hextent part fault' hread =>
      obtain rfl := Option.some.inj h
      refine ⟨cs.takeWhile Text.isBlank, c :: rest, by rw [← heq, hsplit],
        scanFrom_blanks (hblanks cs) offset, rfl, scanFrom_error (isBlank_of_dropWhile heq) ?_⟩
      rw [hextent]
      exact hread
  case case4 offset cs start c rest heq n hextent part t hread later ih =>
      obtain ⟨before, after, hdrop, hbefore, hstop, hafter⟩ := ih h
      -- What ends the lexeme still ends it when it is cut short in front of the fault.
      obtain ⟨hwrites, hends⟩ := writes_read hextent hread
      rw [hdrop] at hends
      have hfirst := firstOf_writes hwrites hends.of_append
      refine ⟨cs.takeWhile Text.isBlank ++ part ++ before, after, ?_, ?_, ?_, hafter⟩
      · rw [List.append_assoc, List.append_assoc, ← hdrop, List.cons_append, List.take_append_drop,
          ← heq, hsplit]
      · exact (scanFrom_append (hblanks cs) hfirst offset).trans
          (congrArg (Lexed.cons ⟨part, start, t⟩) hbefore)
      · simp only [Text.utf8Size_append, ← Nat.add_assoc]
        exact hstop

/-! ## Failures of the parser -/

/-- A place is the offset of one of some lexemes, if it is given. -/
def IsPlace (whole : List Lexeme) (offset? : Option Nat) : Prop :=
  ∀ offset, offset? = some offset → ∃ l ∈ whole, l.offset = offset

/-- A parser that fails within some lexemes fails at one of them, or behind them all. -/
def FailsAtPlace {α : Type} (whole : List Lexeme) (p : Parse α) : Prop :=
  ∀ all, all <:+ whole → ∀ e, p all = .error e → IsPlace whole e.offset?

variable {α β : Type} {whole all : List Lexeme}

/-- The next lexeme is a place. -/
theorem isPlace_head (h : all <:+ whole) : IsPlace whole (all.head?.map Lexeme.offset) := by
  intro offset heq
  obtain ⟨l, hl, rfl⟩ := Option.map_eq_some_iff.1 heq
  exact ⟨l, h.subset (List.mem_of_head? hl), rfl⟩

/-- What reads nothing does not fail. -/
theorem failsAtPlace_pure (a : α) : FailsAtPlace whole (pure a) := by
  intro all _ e he
  exact absurd he nofun

/-- Of two parsers in a row either fails at a place, for the second starts where the first ended. -/
theorem failsAtPlace_bind {p : Parse α} {f : α → Parse β} (hp : FailsAtPlace whole p)
    (hf : ∀ a, FailsAtPlace whole (f a)) : FailsAtPlace whole (p >>= f) := by
  intro all hall e he
  simp only [bind, Parse.bind] at he
  split at he
  · rename_i e' hfirst
    obtain rfl := Except.error.inj he
    exact hp all hall e' hfirst
  · rename_i a rest hfirst
    split at he
    · rename_i e' hsecond
      obtain rfl := Except.error.inj he
      exact hf a rest.lexemes (rest.isSuffix.trans hall) e' hsecond
    · simp at he

/-- What follows a look at the next place may fail at this place. -/
theorem failsAtPlace_here {f : Option Nat → Parse β}
    (hf : ∀ start, IsPlace whole start → FailsAtPlace whole (f start)) :
    FailsAtPlace whole (here >>= f) := by
  intro all hall e he
  simp only [bind, Parse.bind, here] at he
  split at he
  · rename_i e' hrest
    obtain rfl := Except.error.inj he
    exact hf _ (isPlace_head hall) all hall e' hrest
  · simp at he

/-- Looking ahead does not fail. -/
theorem failsAtPlace_peek : FailsAtPlace whole peek := by
  intro all _ e he
  exact absurd he nofun

/-- Passing over a lexeme does not fail. -/
theorem failsAtPlace_skip : FailsAtPlace whole skip := by
  intro all _ e he
  exact absurd he nofun

/-- A failure at a place is one. -/
theorem failsAtPlace_failAt {offset? : Option Nat} (h : IsPlace whole offset?) (fault : Fault) :
    FailsAtPlace whole (failAt offset? fault : Parse α) := by
  intro all _ e he
  obtain rfl := Except.error.inj he
  exact h

/-- The next lexeme is where something else was expected. -/
theorem failsAtPlace_unexpected (what : Expectation) :
    FailsAtPlace whole (unexpected what : Parse α) := by
  intro all hall e he
  obtain rfl := Except.error.inj he
  exact isPlace_head hall

/-- Taking a token if it comes next does not fail. -/
theorem failsAtPlace_eat (t : Token) : FailsAtPlace whole (eat t) := by
  refine failsAtPlace_bind failsAtPlace_peek fun next => ?_
  split
  · exact failsAtPlace_bind failsAtPlace_skip fun _ => failsAtPlace_pure true
  · exact failsAtPlace_pure false

/-- A token that is missing is missed where the next lexeme is. -/
theorem failsAtPlace_expect (t : Token) : FailsAtPlace whole (expect t) := by
  refine failsAtPlace_bind (failsAtPlace_eat t) fun eaten => ?_
  split
  · exact failsAtPlace_pure ()
  · exact failsAtPlace_unexpected (.token t)

/-- A literal that is missing is missed where the next lexeme is. -/
theorem failsAtPlace_literal : FailsAtPlace whole literal := by
  refine failsAtPlace_bind failsAtPlace_peek fun next => ?_
  split
  · split
    · exact failsAtPlace_bind failsAtPlace_skip fun _ => failsAtPlace_pure _
    · exact failsAtPlace_unexpected _
  · exact failsAtPlace_unexpected .value

/-- An operand that is missing is missed where the next lexeme is. -/
theorem failsAtPlace_operand : FailsAtPlace whole operand := by
  refine failsAtPlace_bind failsAtPlace_peek fun next => ?_
  split
  · exact failsAtPlace_bind failsAtPlace_skip fun _ => failsAtPlace_pure _
  · exact failsAtPlace_bind failsAtPlace_literal fun _ => failsAtPlace_pure _

/-- A chain fails where one of its items does. -/
theorem failsAtPlace_chain {item : Parse α} (hitem : FailsAtPlace whole item) (separator : Token) :
    FailsAtPlace whole (chain separator item) := by
  intro all hall e he
  fun_induction chain separator item all
  case case1 e' hfirst =>
      obtain rfl := Except.error.inj he
      exact hitem _ hall _ hfirst
  case case2 | case4 | case5 => simp at he
  case case3 rest _ next more hmore _ e' hothers ih =>
      obtain rfl := Except.error.inj he
      have hsuffix : more <:+ rest.lexemes := hmore ▸ List.suffix_cons next more
      exact ih (hsuffix.trans (rest.isSuffix.trans hall)) hothers

/-- The place of the left side is given. -/
theorem failsAtPlace_column {start : Option Nat} (h : IsPlace whole start) (form : ColumnForm)
    (o : Operand) : FailsAtPlace whole (column form start o) := by
  cases o with
  | column name => exact failsAtPlace_pure name
  | value v => exact failsAtPlace_failAt h (.needsColumn form)

/-- A list of values fails at one of its tokens. -/
theorem failsAtPlace_valueList : FailsAtPlace whole valueList :=
  failsAtPlace_bind (failsAtPlace_expect .open) fun _ =>
    failsAtPlace_bind (failsAtPlace_chain failsAtPlace_literal .comma) fun _ =>
      failsAtPlace_bind (failsAtPlace_expect .close) fun _ => failsAtPlace_pure _

/-- What follows an operand fails at a token, or at the operand if it must be a column. -/
theorem failsAtPlace_predicateTail {start : Option Nat} (h : IsPlace whole start) (left : Operand)
    (negated : Bool) : FailsAtPlace whole (predicateTail start left negated) := by
  refine failsAtPlace_bind failsAtPlace_peek fun next => ?_
  split
  · exact failsAtPlace_bind failsAtPlace_skip fun _ =>
      failsAtPlace_bind failsAtPlace_operand fun _ => failsAtPlace_pure _
  · exact failsAtPlace_bind failsAtPlace_skip fun _ =>
      failsAtPlace_bind failsAtPlace_operand fun _ => failsAtPlace_pure _
  · exact failsAtPlace_bind failsAtPlace_skip fun _ =>
      failsAtPlace_bind (failsAtPlace_column h .isNull left) fun _ =>
        failsAtPlace_bind (failsAtPlace_eat (.keyword .not)) fun _ =>
          failsAtPlace_bind (failsAtPlace_expect (.keyword .null)) fun _ => failsAtPlace_pure _
  · exact failsAtPlace_bind failsAtPlace_skip fun _ =>
      failsAtPlace_bind (failsAtPlace_column h .in left) fun _ =>
        failsAtPlace_bind failsAtPlace_valueList fun _ => failsAtPlace_pure _
  · exact failsAtPlace_bind failsAtPlace_skip fun _ =>
      failsAtPlace_bind (failsAtPlace_column h .between left) fun _ =>
        failsAtPlace_bind failsAtPlace_literal fun _ =>
          failsAtPlace_bind (failsAtPlace_expect (.keyword .and)) fun _ =>
            failsAtPlace_bind failsAtPlace_literal fun _ => failsAtPlace_pure _
  · exact failsAtPlace_unexpected .comparison

/-- A test fails at one of its tokens. -/
theorem failsAtPlace_predicate : FailsAtPlace whole predicate :=
  failsAtPlace_here fun _ hstart =>
    failsAtPlace_bind failsAtPlace_operand fun left =>
      failsAtPlace_bind (failsAtPlace_eat (.keyword .not)) fun negated =>
        failsAtPlace_predicateTail hstart left negated

/-- A disjunction fails where one of its members does. -/
theorem failsAtPlace_disjunction {unary : Parse Predicate} (h : FailsAtPlace whole unary) :
    FailsAtPlace whole (disjunction unary) := by
  have hconjunction : FailsAtPlace whole (conjunction unary) :=
    failsAtPlace_bind (failsAtPlace_chain h (.keyword .and)) fun _ => failsAtPlace_pure _
  exact failsAtPlace_bind (failsAtPlace_chain hconjunction (.keyword .or)) fun _ =>
    failsAtPlace_pure _

/-- A member fails at a place, whatever room is left; without room it fails where it starts. -/
theorem failsAtPlace_unary (room : Nat) : FailsAtPlace whole (unary room) := by
  induction room with
  | zero => exact failsAtPlace_here fun _ hstart => failsAtPlace_failAt hstart .tooDeep
  | succ room ih =>
      refine failsAtPlace_bind (failsAtPlace_eat (.keyword .not)) fun negated => ?_
      split
      · exact failsAtPlace_bind ih fun _ => failsAtPlace_pure _
      · refine failsAtPlace_bind (failsAtPlace_eat .open) fun opened => ?_
        split
        · exact failsAtPlace_bind (failsAtPlace_disjunction ih) fun _ =>
            failsAtPlace_bind (failsAtPlace_expect .close) fun _ => failsAtPlace_pure _
        · exact failsAtPlace_predicate

/-! ## Failures -/

/-- Where a text fails that is read as a condition: where its lexemes end, if they end with a
fault, at the start of a text without lexemes, behind the last lexeme or at one of them. -/
theorem offset_of_parse {fault : Fault} {offset : Nat}
    (h : parse text = .error (fault, offset)) :
    (∃ f, (Lexed.scan text).fault? = some f ∧ fault = .lexical f ∧
      offset = (Lexed.scan text).stop) ∨
    (Lexed.scan text).fault? = none ∧ ((Lexed.scan text).lexemes = [] ∧ offset = 0 ∨
      offset = (Lexed.scan text).stop ∨ ∃ l ∈ (Lexed.scan text).lexemes, l.offset = offset) := by
  rw [parse] at h
  split at h
  · rename_i f hf
    obtain ⟨rfl, rfl⟩ := Prod.mk.inj (Except.error.inj h)
    exact .inl ⟨f, hf, rfl, rfl⟩
  rename_i hnone
  refine .inr ⟨hnone, ?_⟩
  split at h
  · rename_i hempty
    obtain ⟨rfl, rfl⟩ := Prod.mk.inj (Except.error.inj h)
    exact .inl ⟨List.isEmpty_iff.1 hempty, rfl⟩
  split at h
  · rename_i e he
    obtain ⟨-, rfl⟩ := Prod.mk.inj (Except.error.inj h)
    have hplace := failsAtPlace_disjunction (failsAtPlace_unary maxDepth) _
      (List.suffix_refl (Lexed.scan text).lexemes) e he
    cases hoffset : e.offset? with
    | none => exact .inr (.inl rfl)
    | some offset => exact .inr (.inr (hplace offset hoffset))
  · rename_i p rest _
    split at h
    · simp at h
    · rename_i next more hmore
      obtain ⟨-, rfl⟩ := Prod.mk.inj (Except.error.inj h)
      have hnext : next ∈ rest.lexemes := hmore ▸ List.mem_cons_self
      exact .inr (.inr ⟨next, rest.isSuffix.subset hnext, rfl⟩)

/-- Something stands in the text where it fails, or the text ends there. -/
theorem at_of_parse {fault : Fault} {offset : Nat} (h : parse text = .error (fault, offset)) :
    ∃ rest, At text offset rest := by
  obtain ⟨after, hstop, -⟩ := at_stop (Text.at_zero text)
  rcases offset_of_parse h with ⟨-, -, -, rfl⟩ | ⟨-, ⟨-, rfl⟩ | rfl | ⟨l, hl, rfl⟩⟩
  · exact ⟨after, hstop⟩
  · exact ⟨_, Text.at_zero text⟩
  · exact ⟨after, hstop⟩
  · obtain ⟨rest, hrest⟩ := at_lexeme (Text.at_zero text) l hl
    exact ⟨_, hrest⟩

/-- What has no lexemes is white space. -/
theorem Cut.allBlank (h : Cut cs []) : cs.all Text.isBlank = true := by
  cases h with
  | nil hblank => exact hblank

/-- A text that is cut into no lexemes is blank. -/
theorem allBlank_of_lexemes (h : (Lexed.scan text).fault? = none)
    (hnil : (Lexed.scan text).lexemes = []) : Text.allBlank text = true := by
  have hcut : Cut text.toList (Lexed.scan text).lexemes := cut_scanFrom h
  rw [hnil] at hcut
  exact hcut.allBlank

/-- Without a fault scanning ends at the end of the text. -/
theorem stop_eq_of_fault (h : (Lexed.scan text).fault? = none) :
    (Lexed.scan text).stop = text.utf8ByteSize := by
  obtain ⟨rest, hrest, hnil⟩ := at_stop (Text.at_zero text)
  rw [hnil h] at hrest
  exact hrest.add_utf8Size

/-- The text in front of the first token that cannot be read, and the rest. -/
theorem exists_before_fault (h : (Lexed.scan text).fault? = some fault) :
    ∃ before after : String, text = before ++ after ∧
      before.utf8ByteSize = (Lexed.scan text).stop ∧
      Lexed.scan before = ⟨(Lexed.scan text).lexemes, (Lexed.scan text).stop, none⟩ ∧
      Lexed.scan after = ⟨[], 0, some fault⟩ := by
  obtain ⟨before, after, htext, hbefore, hstop, hafter⟩ := exists_of_fault h
  refine ⟨.ofList before, .ofList after, ?_, ?_, ?_, ?_⟩
  · rw [← String.ofList_append, ← htext, String.ofList_toList]
  · rw [Text.utf8ByteSize_ofList]
    exact (Nat.zero_add _).symm.trans hstop.symm
  · rw [Lexed.scan, String.toList_ofList]
    exact hbefore
  · rw [Lexed.scan, String.toList_ofList]
    exact hafter 0

/-- Why a text is not parsed is what its error says, with the offset. -/
theorem ofText_of_parse {reason : Fault} {offset : Nat}
    (h : parse text = .error (reason, offset)) :
    Predicate.ofText text = .error (.unparsable reason.message offset) := by
  rw [Predicate.ofText, h]
  rfl

/-- **A text is scanned without a slice inside a character, and fails where a token starts.**
The run by byte positions comes to an end and finds the lexemes.  What is refused is refused
at a position that the text can be cut at.  If a token cannot be read there, what stands in
front is cut into the lexemes found so far and what stands behind starts with this token.
If all tokens can be read and there are any, the position is the offset of one of them or
the end of the text. -/
theorem failures_located (text : String) :
    Cursor.scan? text = some ⟨(Lexed.scan text).lexemes.map fun l => (l.token, l.offset),
      (Lexed.scan text).stop, (Lexed.scan text).fault?⟩ ∧
    ∀ e, Predicate.ofText text = .error e → ∃ (reason : Fault) (offset : Nat),
      e = .unparsable reason.message offset ∧
      (⟨offset⟩ : String.Pos.Raw).IsValid text ∧ offset ≤ text.utf8ByteSize ∧
      (∀ fault, (Lexed.scan text).fault? = some fault → reason = .lexical fault ∧
        ∃ before after : String, text = before ++ after ∧ before.utf8ByteSize = offset ∧
          Lexed.scan before = ⟨(Lexed.scan text).lexemes, offset, none⟩ ∧
          Lexed.scan after = ⟨[], 0, some fault⟩) ∧
      ((Lexed.scan text).fault? = none → Text.allBlank text = false →
        offset = text.utf8ByteSize ∨ ∃ l ∈ (Lexed.scan text).lexemes, l.offset = offset) := by
  refine ⟨Cursor.scan?_eq text, fun e he => ?_⟩
  cases hparse : parse text with
  | ok p =>
      rw [Predicate.ofText, hparse] at he
      exact absurd he (by simp [Except.mapError])
  | error failure =>
      obtain ⟨reason, offset⟩ := failure
      rw [ofText_of_parse hparse] at he
      obtain rfl := Except.error.inj he
      obtain ⟨rest, hrest⟩ := at_of_parse hparse
      have hbound : offset ≤ text.utf8ByteSize := hrest.add_utf8Size ▸ Nat.le_add_right _ _
      refine ⟨reason, offset, rfl, Text.exists_at_iff.1 ⟨rest, hrest⟩, hbound, ?_⟩
      rcases offset_of_parse hparse with ⟨f, hf, rfl, rfl⟩ | ⟨hnone, hplace⟩
      · refine ⟨fun fault hfault => ?_, fun hnone => ?_⟩
        · obtain rfl := Option.some.inj (hf.symm.trans hfault)
          exact ⟨rfl, exists_before_fault hf⟩
        · rw [hf] at hnone
          exact absurd hnone (by simp)
      · refine ⟨fun fault hfault => ?_, fun _ hblank => ?_⟩
        · rw [hnone] at hfault
          exact absurd hfault (by simp)
        · rcases hplace with ⟨hnil, -⟩ | rfl | hl
          · rw [allBlank_of_lexemes hnone hnil] at hblank
            exact absurd hblank (by simp)
          · exact .inl (stop_eq_of_fault hnone)
          · exact .inr hl

/-- A text with a character of two bytes in front of a token that cannot be read, and one with
this character in front of a token that is not expected. -/
theorem failures_located_umlaut :
    (∃ before after : String, "a = 'ü' AND ;" = before ++ after ∧ before.utf8ByteSize = 13 ∧
      Lexed.scan before = ⟨(Lexed.scan "a = 'ü' AND ;").lexemes, 13, none⟩ ∧
      Lexed.scan after = ⟨[], 0, some .separator⟩) ∧
    (9 = "a = 'ü' b".utf8ByteSize ∨ ∃ l ∈ (Lexed.scan "a = 'ü' b").lexemes, l.offset = 9) := by
  have hread : parse "a = 'ü' AND ;" = .error (.lexical .separator, 13) := by
    with_unfolding_all rfl
  have hparse : parse "a = 'ü' b" = .error (.trailing, 9) := by with_unfolding_all rfl
  constructor
  · obtain ⟨_, _, heq, -, -, hlexical, -⟩ :=
      (failures_located "a = 'ü' AND ;").2 _ (ofText_of_parse hread)
    obtain ⟨-, rfl⟩ := SqlError.unparsable.inj heq
    exact (hlexical .separator (by decide +kernel)).2
  · obtain ⟨_, _, heq, -, -, -, hplace⟩ :=
      (failures_located "a = 'ü' b").2 _ (ofText_of_parse hparse)
    obtain ⟨-, rfl⟩ := SqlError.unparsable.inj heq
    exact hplace (by decide +kernel) (by decide)

end ConditionText

end BoundSql
