import BoundSql.Filter.Predicate
import BoundSql.Proofs.ConditionText.Writing
import BoundSql.Proofs.Text.Digits

/-!
# Filters as condition text

A filter document has a text in the language of conditions: names as they are, strings in
quotes, groups and negations in parentheses, every test in its SQL form.  The text of a
test writes the tokens of a test that denotes the same predicate
(`Filter.exists_test`).
-/

namespace BoundSql

open ConditionText

/-- A text that is a name in condition text: parts of letters, digits and underscores with
dots between them, none starting with a digit, and all together no word with a meaning of
its own. -/
structure ConditionText.IsColumn (s : String) : Prop where
  parts : ∀ part ∈ Identifier.splitDots s.toList, IsWord part
  keyword : Keyword.ofWord? (String.ofList (s.toList.map Char.toUpper)) = none
  subquery : String.ofList (s.toList.map Char.toUpper) ≠ "SELECT"

/-- A column is written as it is. -/
theorem ConditionText.IsColumn.written {s : String} (h : IsColumn s) : Written s [.name s] := by
  have hname := Writes.name s.toList h.parts h.keyword h.subquery
  rw [String.ofList_toList] at hname
  exact written_token hname

namespace Json

/-- A JSON value as a literal of condition text, where there is one. -/
def literalText : Json → String
  | .string s => String.ofList (Lexeme.apostrophe :: (doubled s.toList ++ [Lexeme.apostrophe]))
  | .number (.integer n _ _) => toString n
  | .bool b => if b then "TRUE" else "FALSE"
  | .null => "NULL"
  | _ => ""

/-- A string, a signed integer of 64 bits, a boolean or null. -/
def IsLiteral : Json → Prop
  | .string _ | .bool _ | .null => True
  | .number (.integer n _ _) => n < 0x8000000000000000
  | _ => False

/-- The text of an integer writes it. -/
theorem written_int {n : Int} (lower : -0x8000000000000000 ≤ n) (upper : n < 0x8000000000000000) :
    Written (toString n) [.int (Int64.ofInt n)] := by
  have hdigits : IsDigits (Text.digitsOfNat n.natAbs) :=
    ⟨Text.digitsOfNat_ne_nil _, Text.isDigit_digitsOfNat _⟩
  refine written_token ?_
  have hsign : (if n < 0 then ['-'] else []) = sign (decide (n < 0)) := by
    by_cases h : n < 0 <;> simp [h, sign]
  rw [Text.toList_toString, hsign]
  refine .int _ _ hdigits _ ?_
  rw [Int64.toInt_ofInt_of_le lower upper, Text.natOfDigits_digitsOfNat]
  by_cases h : n < 0
  · rw [if_pos (decide_eq_true h)]
    omega
  · rw [if_neg (by simpa using h)]
    omega

/-- A JSON value that has a literal is written as one with its value. -/
theorem exists_literal {j : Json} (h : j.IsLiteral) :
    ∃ l : Literal, Written j.literalText [l.token] ∧ l.value = Value.ofJson j := by
  cases j with
  | null => exact ⟨.null, written_keyword .null, rfl⟩
  | bool b =>
      refine ⟨.bool b, ?_, rfl⟩
      cases b
      · exact written_keyword .false
      · exact written_keyword .true
  | string s =>
      have hstring := Writes.string s.toList
      rw [String.ofList_toList] at hstring
      refine ⟨.string s, written_token ?_, rfl⟩
      rw [literalText, String.toList_ofList]
      exact hstring
  | number n =>
      cases n with
      | integer n lower upper =>
          have hn : n < 0x8000000000000000 := h
          exact ⟨.int (Int64.ofInt n), written_int lower hn, (if_pos hn).symm⟩
      | double d finite => exact absurd h id
  | array items => exact absurd h id
  | object members => exact absurd h id

/-- Literals are written one by one, with the values of the operands. -/
theorem exists_literals {js : List Json} (h : ∀ j ∈ js, j.IsLiteral) : ∃ ls : List Literal,
    List.Forall₂ (fun s l => Written s [Literal.token l]) (js.map literalText) ls ∧
      ls.map Literal.value = js.map Value.ofJson := by
  induction js with
  | nil => exact ⟨[], .nil, rfl⟩
  | cons j js ih =>
      obtain ⟨hj, hjs⟩ := List.forall_mem_cons.1 h
      obtain ⟨l, hl, hvalue⟩ := exists_literal hj
      obtain ⟨ls, hls, hvalues⟩ := ih hjs
      exact ⟨l :: ls, .cons hl hls, congrArg₂ List.cons hvalue hvalues⟩

end Json

namespace Filter

/-- The column of a node. -/
def columnText (f : Filter) : String := f.column.getD ""

/-- A field of a node as a literal. -/
def operandText (j? : Option Json) : String := (j?.map Json.literalText).getD ""

/-- The values of a node as literals. -/
def valuesText (f : Filter) : String := ", ".intercalate ((f.values.getD []).map Json.literalText)

/-- A test in its SQL form. -/
def leafText (f : Filter) : Kind → String
  | .compare op => f.columnText ++ " " ++ op.toSql ++ " " ++ operandText f.value
  | .notLike => f.columnText ++ " " ++ "NOT LIKE" ++ " " ++ operandText f.value
  | .oneOf negated =>
    f.columnText ++ " " ++ (if negated then "NOT IN" else "IN") ++ " " ++
      ("(" ++ f.valuesText ++ ")")
  | .between =>
    f.columnText ++ " " ++ "BETWEEN" ++ " " ++ operandText f.lower ++ " " ++ "AND" ++ " " ++
      operandText f.upper
  | .nullTest negated => f.columnText ++ " " ++ (if negated then "IS NOT NULL" else "IS NULL")
  | .and | .or | .not => ""

mutual

/-- A filter as condition text. -/
def conditionText : Filter → String
  | ⟨type, column, value, values, lower, upper, children⟩ =>
    match Kind.ofType? type with
    | some .and => "(" ++ " AND ".intercalate (conditionTexts children) ++ ")"
    | some .or => "(" ++ " OR ".intercalate (conditionTexts children) ++ ")"
    | some .not => "NOT (" ++ " AND ".intercalate (conditionTexts children) ++ ")"
    | some kind => leafText ⟨type, column, value, values, lower, upper, children⟩ kind
    | .none => ""

def conditionTexts : List Filter → List String
  | [] => []
  | f :: rest => f.conditionText :: conditionTexts rest

end

mutual

/-- The most NOTs and parentheses in the text of a filter around one of its tests. -/
def nesting : Filter → Nat
  | ⟨type, _, _, _, _, _, children⟩ =>
    match Kind.ofType? type with
    | some .and | some .or => deepest children + 1
    | some .not => deepest children + 2
    | _ => 0

def deepest : List Filter → Nat
  | [] => 0
  | f :: rest => max f.nesting (deepest rest)

end

/-- A node with a type, whose column is a name of condition text and whose operands are
literals. -/
structure NodeWritable (f : Filter) : Prop where
  typed : f.type.isEmpty = false
  column : ∀ c ∈ f.column, IsColumn c
  value : ∀ j ∈ f.value, j.IsLiteral
  values : ∀ js ∈ f.values, ∀ j ∈ js, j.IsLiteral
  lower : ∀ j ∈ f.lower, j.IsLiteral
  upper : ∀ j ∈ f.upper, j.IsLiteral

mutual

/-- All nodes can be written as condition text. -/
def Writable : Filter → Prop
  | ⟨type, column, value, values, lower, upper, children⟩ =>
    NodeWritable ⟨type, column, value, values, lower, upper, children⟩ ∧ AllWritable children

def AllWritable : List Filter → Prop
  | [] => True
  | f :: rest => f.Writable ∧ AllWritable rest

end

/-! ## Tests -/

variable {f : Filter}

/-- The column of a node is written as its name. -/
theorem exists_of_columnOf (hf : f.NodeWritable) {name : Identifier} (h : f.columnOf = .ok name) :
    ∃ column, Written f.columnText [.name column] ∧ Identifier.ofText column = name := by
  rw [columnOf] at h
  split at h
  · rename_i column hcolumn
    obtain ⟨-, h⟩ := guard_eq_ok.1 h
    rw [columnText, hcolumn]
    exact ⟨column, (hf.column column hcolumn).written, Except.ok.inj h⟩
  · exact absurd h (by simp)

/-- An operand that is required is written as its literal. -/
theorem exists_of_required {j? : Option Json} (hj : ∀ j ∈ j?, j.IsLiteral) {key : String}
    {v : Value} (h : required key j? = .ok v) :
    ∃ l : Literal, Written (operandText j?) [l.token] ∧ l.value = v := by
  cases j? with
  | none => exact absurd h (by simp [required])
  | some j =>
      obtain ⟨l, hl, hvalue⟩ := Json.exists_literal (hj j rfl)
      exact ⟨l, hl, hvalue.trans (Except.ok.inj h)⟩

/-- Operands are written as their literals with commas between them. -/
theorem exists_of_valuesOf (hf : f.NodeWritable) {vs : List Value} (h : f.valuesOf = .ok vs) :
    ∃ (first : Literal) (others : List Literal),
      Written f.valuesText (first.token :: otherTokens others) ∧
        (first :: others).map Literal.value = vs := by
  rw [valuesOf] at h
  split at h
  · rename_i j js hvalues
    obtain ⟨hj, hjs⟩ := List.forall_mem_cons.1 (hf.values (j :: js) hvalues)
    obtain ⟨first, hfirst, hvalue⟩ := Json.exists_literal hj
    obtain ⟨others, hothers, hmore⟩ := Json.exists_literals hjs
    refine ⟨first, others, ?_, (congrArg₂ List.cons hvalue hmore).trans (Except.ok.inj h)⟩
    rw [valuesText, hvalues]
    exact written_literals hfirst hothers
  · exact absurd h (by simp)

/-- The words of a negated LIKE are two keywords. -/
theorem written_not_like : Written "NOT LIKE" [.keyword .not, .keyword .like] :=
  (written_keyword .not).space (written_keyword .like)

/-- **The text of a test writes a test with its predicate.** -/
theorem exists_test (hf : f.NodeWritable) {kind : Kind} {p : Predicate} (h : f.leaf kind = .ok p) :
    ∃ t : Test, Written (f.leafText kind) t.tokens ∧ t.predicate = p := by
  cases kind with
  | compare op =>
      obtain ⟨name, hname, h⟩ := bind_eq_ok.1 h
      obtain ⟨v, hv, h⟩ := bind_eq_ok.1 h
      obtain rfl := pure_eq_ok.1 h
      obtain ⟨column, hcolumn, rfl⟩ := exists_of_columnOf hf hname
      obtain ⟨l, hl, rfl⟩ := exists_of_required hf.value hv
      by_cases hlike : op = .like
      · subst hlike
        exact ⟨.like (.column column) false (.literal l),
          (hcolumn.space (written_keyword .like)).space hl, rfl⟩
      · have hop : Written op.toSql [.comparison op] := written_token (.comparison op hlike)
        exact ⟨.compare (.column column) op (.literal l), (hcolumn.space hop).space hl, rfl⟩
  | notLike =>
      obtain ⟨name, hname, h⟩ := bind_eq_ok.1 h
      obtain ⟨v, hv, h⟩ := bind_eq_ok.1 h
      obtain rfl := pure_eq_ok.1 h
      obtain ⟨column, hcolumn, rfl⟩ := exists_of_columnOf hf hname
      obtain ⟨l, hl, rfl⟩ := exists_of_required hf.value hv
      exact ⟨.like (.column column) true (.literal l),
        (hcolumn.space written_not_like).space hl, rfl⟩
  | oneOf negated =>
      obtain ⟨name, hname, h⟩ := bind_eq_ok.1 h
      obtain ⟨vs, hvs, h⟩ := bind_eq_ok.1 h
      obtain rfl := pure_eq_ok.1 h
      obtain ⟨column, hcolumn, rfl⟩ := exists_of_columnOf hf hname
      obtain ⟨first, others, hvalues, rfl⟩ := exists_of_valuesOf hf hvs
      refine ⟨.oneOf column negated first others, ?_, ?_⟩
      · cases negated
        · exact (hcolumn.space (written_keyword .in)).space hvalues.parens
        · exact (hcolumn.space ((written_keyword .not).space (written_keyword .in))).space
            hvalues.parens
      · cases negated <;> rfl
  | between =>
      obtain ⟨name, hname, h⟩ := bind_eq_ok.1 h
      obtain ⟨low, hlow, h⟩ := bind_eq_ok.1 h
      obtain ⟨high, hhigh, h⟩ := bind_eq_ok.1 h
      obtain rfl := pure_eq_ok.1 h
      obtain ⟨column, hcolumn, rfl⟩ := exists_of_columnOf hf hname
      obtain ⟨l, hl, rfl⟩ := exists_of_required hf.lower hlow
      obtain ⟨u, hu, rfl⟩ := exists_of_required hf.upper hhigh
      exact ⟨.between column false l u,
        (((hcolumn.space (written_keyword .between)).space hl).space
          (written_keyword .and)).space hu, rfl⟩
  | nullTest negated =>
      obtain ⟨name, hname, h⟩ := bind_eq_ok.1 h
      obtain rfl := pure_eq_ok.1 h
      obtain ⟨column, hcolumn, rfl⟩ := exists_of_columnOf hf hname
      have hnull := written_keyword .null
      refine ⟨.nullTest column negated, ?_, rfl⟩
      cases negated
      · exact hcolumn.space ((written_keyword .is).space hnull)
      · exact hcolumn.space (((written_keyword .is).space (written_keyword .not)).space hnull)
  | and => exact absurd h (by simp [leaf])
  | or => exact absurd h (by simp [leaf])
  | not => exact absurd h (by simp [leaf])

end Filter

end BoundSql
