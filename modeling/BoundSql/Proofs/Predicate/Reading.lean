import BoundSql.ConditionText.Parser
import BoundSql.Proofs.Predicate.Scanning
import Mathlib.Data.List.Forall2

/-!
# Reading predicates from SQL

The tokens of a predicate are read by the rules of SQL: NOT binds tighter than AND, AND
binds tighter than OR, and parentheses override both.

```text
disjunction := conjunction ("OR" conjunction)*
conjunction := factor ("AND" factor)*
factor      := "NOT" factor | "(" disjunction ")" | test
test        := operand comparison operand
             | column "IS" ["NOT"] "NULL"
             | column ["NOT"] "IN" "(" value ("," value)* ")"
operand     := column | value
```

A chain of several members is a group, a chain of one member is this member.  The pieces
of a rendered predicate are those of a factor: what stands behind them does not matter.
-/

namespace BoundSql

open ConditionText (Keyword collapse)

namespace Predicate

/-- A side of a comparison. -/
def readOperand : List SqlToken → Option (Operand × List SqlToken)
  | .column name :: rest => some (.column name, rest)
  | .value v :: rest => some (.value v, rest)
  | _ => none

/-- Values with commas between them, and the parenthesis that closes them. -/
def readValues : List SqlToken → Option (List Value × List SqlToken)
  | .value v :: .close :: rest => some ([v], rest)
  | .value v :: .comma :: rest => (readValues rest).map fun (vs, after) => (v :: vs, after)
  | _ => none

/-- A predicate without operators and parentheses around it. -/
def readTest : List SqlToken → Option (Predicate × List SqlToken)
  | .column name :: .keyword .is :: .keyword .null :: rest => some (.nullTest name false, rest)
  | .column name :: .keyword .is :: .keyword .not :: .keyword .null :: rest =>
    some (.nullTest name true, rest)
  | .column name :: .keyword .in :: .open :: rest =>
    (readValues rest).map fun (vs, after) => (.oneOf name vs false, after)
  | .column name :: .keyword .not :: .keyword .in :: .open :: rest =>
    (readValues rest).map fun (vs, after) => (.oneOf name vs true, after)
  | ts =>
    match readOperand ts with
    | some (left, .comparison op :: rest) =>
      (readOperand rest).map fun (right, after) => (.compare left op right, after)
    | _ => none

/-- One or more members with a keyword between them, at most `room` of them. -/
def readChain (k : Keyword) (item : List SqlToken → Option (Predicate × List SqlToken)) :
    Nat → List SqlToken → Option (List Predicate × List SqlToken)
  | 0, _ => none
  | room + 1, ts =>
    (item ts).bind fun (p, rest) =>
      if rest.head?.any (·.isKeyword k) then
        (readChain k item room rest.tail).map fun (ps, after) => (p :: ps, after)
      else some ([p], rest)

/-- A chain as a group. -/
def readGroup (k : Keyword) (group : List Predicate → Predicate)
    (item : List SqlToken → Option (Predicate × List SqlToken)) (room : Nat)
    (ts : List SqlToken) : Option (Predicate × List SqlToken) :=
  (readChain k item room ts).map fun (ps, after) => (collapse group ps, after)

/-- A chain of ORs, its members chains of ANDs. -/
def readDisjunction (factor : List SqlToken → Option (Predicate × List SqlToken)) (room : Nat) :
    List SqlToken → Option (Predicate × List SqlToken) :=
  readGroup .or .or (readGroup .and .and factor room) room

/-- A negation, a disjunction in parentheses or a test, of at most `room` tokens. -/
def readFactor : Nat → List SqlToken → Option (Predicate × List SqlToken)
  | 0, _ => none
  | room + 1, .keyword .not :: rest =>
    (readFactor room rest).map fun (p, after) => (.not p, after)
  | room + 1, .open :: rest =>
    match readDisjunction (readFactor room) room rest with
    | some (p, .close :: after) => some (p, after)
    | _ => none
  | _ + 1, ts => readTest ts

/-- The predicate that SQL stands for; SQL without tokens stands for none. -/
def read (d : Dialect) (s : Statement) : Option (Option Predicate) :=
  (SqlToken.scan d s.params 0 s.sql.toList).bind fun ts =>
    if ts.isEmpty then some none
    else
      match readDisjunction (readFactor ts.length) ts.length ts with
      | some (p, []) => some (some p)
      | _ => none

/-- NOT goes with the factor behind it only, and AND comes before OR. -/
example (a b c : Identifier) : readDisjunction (readFactor 12) 12
    [.keyword .not, .column a, .keyword .is, .keyword .null, .keyword .and, .column b,
      .keyword .is, .keyword .null, .keyword .or, .column c, .keyword .is, .keyword .null] =
    some (.or [.and [.not (.nullTest a false), .nullTest b false], .nullTest c false], []) := rfl

/-! ## Chains -/

variable {k : Keyword} {item : List SqlToken → Option (Predicate × List SqlToken)}
  {stop : SqlToken → Bool} {members : List (List Chunk)} {qs : List Predicate} {room : Nat}
  {rest : List SqlToken}

/-- A member with no keyword of the chain behind it is the whole chain. -/
theorem readGroup_single {group : List Predicate → Predicate} {ts : List SqlToken} {q : Predicate}
    (hroom : 0 < room) (hitem : item ts = some (q, rest))
    (hrest : rest.head?.any (·.isKeyword k) = false) :
    readGroup k group item room ts = some (q, rest) := by
  obtain ⟨room, rfl⟩ := Nat.exists_eq_add_one.2 hroom
  rw [readGroup, readChain, hitem, Option.bind_some]
  simp only [hrest]
  rfl

/-- **Members with words between them are the members of a chain,** where each of them is
read back in front of what does not stop it. -/
theorem readChain_join {s : String} (hs : Chunk.tokens (.word s) = [.keyword k])
    (hmembers : List.Forall₂ (fun cs q => ∀ rest, rest.head?.any stop = false →
      item (cs.flatMap Chunk.tokens ++ rest) = some (q, rest)) members qs)
    (hstop : stop (.keyword k) = false)
    (hne : members ≠ []) (hroom : members.length ≤ room) (hrest : rest.head?.any stop = false)
    (hlast : rest.head?.any (·.isKeyword k) = false) :
    readChain k item room ((Chunk.join s members).flatMap Chunk.tokens ++ rest) =
      some (qs, rest) := by
  induction hmembers generalizing room with
  | nil => exact absurd rfl hne
  | @cons cs q members qs hcs hmembers ih =>
      obtain ⟨room, rfl⟩ := Nat.exists_eq_add_one.2 (Nat.zero_lt_of_lt hroom)
      cases hmembers with
      | nil =>
          rw [readChain, Chunk.join, hcs rest hrest, Option.bind_some]
          simp only [hlast]
          rfl
      | @cons next _ more _ _ _ =>
          have ih := ih (List.cons_ne_nil _ _) (Nat.le_of_succ_le_succ hroom)
          rw [Chunk.join_cons (List.cons_ne_nil _ _), List.flatMap_append, List.flatMap_cons, hs,
            List.append_assoc, List.append_assoc, List.singleton_append, readChain,
            hcs _ (by simpa using hstop), Option.bind_some]
          simp only [List.head?_cons, Option.any_some, SqlToken.isKeyword, beq_self_eq_true,
            if_true, List.tail_cons, ih]
          rfl

/-! ## Pieces -/

/-- The pieces are those of a factor that is read as `q`. -/
def Reads (cs : List Chunk) (q : Predicate) : Prop :=
  ∀ (room : Nat) (rest : List SqlToken), (cs.flatMap Chunk.tokens).length ≤ room →
    readFactor room (cs.flatMap Chunk.tokens ++ rest) = some (q, rest)

/-- The pieces are read as `q` in front of a closing parenthesis. -/
def ReadsInside (cs : List Chunk) (q : Predicate) : Prop :=
  ∀ (room : Nat) (rest : List SqlToken), (cs.flatMap Chunk.tokens).length ≤ room →
    readDisjunction (readFactor room) room (cs.flatMap Chunk.tokens ++ .close :: rest) =
      some (q, .close :: rest)

variable {cs : List Chunk} {q : Predicate}

/-- A comparison is read back with both its operands. -/
theorem reads_compare (left : Operand) (op : Comparison) (right : Operand) :
    Reads [.ofOperand left, .word (" " ++ op.toSql ++ " "), .ofOperand right]
      (.compare left op right) := by
  intro room rest hroom
  have hword : Chunk.tokens (.word (" " ++ op.toSql ++ " ")) = [.comparison op] := by
    cases op <;> rfl
  rw [List.flatMap_cons, List.flatMap_cons, hword] at hroom ⊢
  cases left <;> cases right <;>
    obtain ⟨room, rfl⟩ := Nat.exists_eq_add_one.2 (Nat.zero_lt_of_lt hroom) <;> rfl

/-- A test for null is read back with its sense. -/
theorem reads_nullTest (column : Identifier) (negated : Bool) :
    Reads [.column column, .word (if negated then " IS NOT NULL" else " IS NULL")]
      (.nullTest column negated) := by
  intro room rest hroom
  cases negated <;>
    obtain ⟨room, rfl⟩ := Nat.exists_eq_add_one.2 (Nat.zero_lt_of_lt hroom) <;> rfl

/-- Values with commas between them are read back up to the parenthesis behind them. -/
theorem readValues_join {vs : List Value} (hne : vs ≠ []) (rest : List SqlToken) :
    readValues ((Chunk.join ", " (vs.map fun v => [.bind v])).flatMap Chunk.tokens ++
      .close :: rest) = some (vs, rest) := by
  induction vs with
  | nil => exact absurd rfl hne
  | cons v vs ih =>
      cases vs with
      | nil => rfl
      | cons next more =>
          have htokens : (Chunk.join ", " ((v :: next :: more).map fun v => [Chunk.bind v])).flatMap
              Chunk.tokens = .value v :: .comma ::
                (Chunk.join ", " ((next :: more).map fun v => [Chunk.bind v])).flatMap
                  Chunk.tokens := rfl
          rw [htokens, List.cons_append, List.cons_append, readValues, ih (List.cons_ne_nil _ _)]
          rfl

/-- A test for membership is read back with its values and its sense. -/
theorem reads_oneOf (column : Identifier) {vs : List Value} (hne : vs ≠ []) (negated : Bool) :
    Reads (.column column :: .word (if negated then " NOT IN (" else " IN (") ::
      Chunk.join ", " (vs.map fun v => [.bind v]) ++ [.word ")"]) (.oneOf column vs negated) := by
  intro room rest hroom
  have hvalues := readValues_join hne rest
  rw [List.cons_append, List.cons_append, List.flatMap_cons, List.flatMap_cons,
    List.flatMap_append] at hroom ⊢
  cases negated <;> obtain ⟨room, rfl⟩ := Nat.exists_eq_add_one.2 (Nat.zero_lt_of_lt hroom)
  all_goals
    simp only [Bool.false_eq_true, if_false, if_true, List.append_assoc]
    exact congrArg (Option.map _) hvalues

/-- A factor has a token. -/
theorem Reads.length_pos (h : Reads cs q) : 0 < (cs.flatMap Chunk.tokens).length := by
  refine Nat.pos_of_ne_zero fun hlength => ?_
  have hread := h 0 [] (Nat.le_of_eq hlength)
  rw [readFactor] at hread
  exact Option.some_ne_none _ hread.symm

/-- A factor without an operator behind it is a disjunction. -/
theorem Reads.readDisjunction_eq (h : Reads cs q)
    (hroom : (cs.flatMap Chunk.tokens).length ≤ room)
    (hand : rest.head?.any (·.isKeyword .and) = false)
    (hor : rest.head?.any (·.isKeyword .or) = false) :
    readDisjunction (readFactor room) room (cs.flatMap Chunk.tokens ++ rest) = some (q, rest) := by
  have hpos := Nat.lt_of_lt_of_le h.length_pos hroom
  exact readGroup_single hpos (readGroup_single hpos (h room rest hroom) hand) hor

/-- What is read as a whole is read within parentheses. -/
theorem Reads.inside (h : Reads cs q) : ReadsInside cs q :=
  fun _ _ hroom => h.readDisjunction_eq hroom rfl rfl

/-- Parentheses override what stands around them. -/
theorem ReadsInside.parens (h : ReadsInside cs q) : Reads (.word "(" :: cs ++ [.word ")"]) q := by
  intro room rest hroom
  have htokens : (Chunk.word "(" :: cs ++ [Chunk.word ")"]).flatMap Chunk.tokens =
      .open :: (cs.flatMap Chunk.tokens ++ [.close]) := by
    rw [List.flatMap_append, List.flatMap_cons]
    rfl
  rw [htokens] at hroom ⊢
  obtain ⟨room, rfl⟩ := Nat.exists_eq_add_one.2 (Nat.zero_lt_of_lt hroom)
  have hinside := h room rest (by
    rw [List.length_cons, List.length_append, List.length_singleton] at hroom
    omega)
  rw [List.cons_append, List.append_assoc, List.singleton_append, readFactor, hinside]

/-- The negation of pieces in parentheses. -/
theorem ReadsInside.negation (h : ReadsInside cs q) :
    Reads (.word "NOT (" :: cs ++ [.word ")"]) (.not q) := by
  intro room rest hroom
  have htokens : (Chunk.word "NOT (" :: cs ++ [Chunk.word ")"]).flatMap Chunk.tokens =
      .keyword .not :: (Chunk.word "(" :: cs ++ [Chunk.word ")"]).flatMap Chunk.tokens := by
    rw [List.flatMap_append, List.flatMap_append, List.flatMap_cons, List.flatMap_cons]
    rfl
  rw [htokens] at hroom ⊢
  obtain ⟨room, rfl⟩ := Nat.exists_eq_add_one.2 (Nat.zero_lt_of_lt hroom)
  have hparens := h.parens room rest (by simpa using hroom)
  rw [List.cons_append, readFactor, hparens]
  rfl

/-- How many tokens the members have. -/
def tokenCount : List (List Chunk) → Nat
  | [] => 0
  | cs :: rest => (cs.flatMap Chunk.tokens).length + tokenCount rest

/-- Joining sequences adds tokens and takes none away. -/
theorem tokenCount_le (separator : String) (members : List (List Chunk)) :
    tokenCount members ≤ ((Chunk.join separator members).flatMap Chunk.tokens).length := by
  induction members with
  | nil => exact Nat.le_refl _
  | cons cs rest ih =>
      rw [tokenCount]
      cases rest with
      | nil => exact Nat.le_refl _
      | cons next more =>
          rw [Chunk.join_cons (List.cons_ne_nil _ _), List.flatMap_append, List.flatMap_cons,
            List.length_append, List.length_append]
          omega

/-- Each member that is read has a token at least. -/
theorem length_le_tokenCount (h : List.Forall₂ Reads members qs) :
    members.length ≤ tokenCount members := by
  induction h with
  | nil => exact Nat.le_refl _
  | cons hcs _ ih =>
      have hpos := hcs.length_pos
      rw [tokenCount, List.length_cons]
      omega

/-- Each of the members is a factor, where there is room for all of their tokens. -/
theorem forall₂_readFactor (stop : SqlToken → Bool) (h : List.Forall₂ Reads members qs)
    (hroom : tokenCount members ≤ room) :
    List.Forall₂ (fun cs q => ∀ rest, rest.head?.any stop = false →
      readFactor room (cs.flatMap Chunk.tokens ++ rest) = some (q, rest)) members qs := by
  induction h with
  | nil => exact .nil
  | cons hcs _ ih =>
      rw [tokenCount] at hroom
      exact .cons (fun rest _ => hcs room rest (by omega)) (ih (by omega))

/-- Members with AND between them. -/
theorem readsInside_and (h : List.Forall₂ Reads members qs) (hne : members ≠ []) :
    ReadsInside (Chunk.join " AND " members) (collapse .and qs) := by
  intro room rest hroom
  have hcount := Nat.le_trans (tokenCount_le " AND " members) hroom
  have hlength := Nat.le_trans (length_le_tokenCount h) hcount
  have hchain : readChain .and (readFactor room) room
      ((Chunk.join " AND " members).flatMap Chunk.tokens ++ .close :: rest) =
        some (qs, .close :: rest) :=
    readChain_join rfl (forall₂_readFactor (fun _ => false) h hcount) rfl hne hlength rfl rfl
  have hand : readGroup .and .and (readFactor room) room
      ((Chunk.join " AND " members).flatMap Chunk.tokens ++ .close :: rest) =
        some (collapse .and qs, .close :: rest) := by
    rw [readGroup, hchain]
    rfl
  exact readGroup_single (Nat.lt_of_lt_of_le (List.length_pos_iff.2 hne) hlength) hand rfl

/-- Members with OR between them. -/
theorem readsInside_or (h : List.Forall₂ Reads members qs) (hne : members ≠ []) :
    ReadsInside (Chunk.join " OR " members) (collapse .or qs) := by
  intro room rest hroom
  have hcount := Nat.le_trans (tokenCount_le " OR " members) hroom
  have hlength := Nat.le_trans (length_le_tokenCount h) hcount
  have hpos := Nat.lt_of_lt_of_le (List.length_pos_iff.2 hne) hlength
  -- A member is a chain of ANDs by itself, as no AND follows it.
  have hmembers : List.Forall₂ (fun cs q => ∀ rest, rest.head?.any (·.isKeyword .and) = false →
      readGroup .and .and (readFactor room) room (cs.flatMap Chunk.tokens ++ rest) =
        some (q, rest)) members qs :=
    (forall₂_readFactor (·.isKeyword .and) h hcount).imp
      fun _ _ hcs rest hrest => readGroup_single hpos (hcs rest hrest) hrest
  have hchain : readChain .or (readGroup .and .and (readFactor room) room) room
      ((Chunk.join " OR " members).flatMap Chunk.tokens ++ .close :: rest) =
        some (qs, .close :: rest) := readChain_join rfl hmembers rfl hne hlength rfl rfl
  rw [readDisjunction, readGroup, hchain]
  rfl

end Predicate

end BoundSql
