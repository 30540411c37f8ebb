import BoundSql.Proofs.Postgres.Stored

/-!
# What a column keeps of a number

A number stored in a column of a numeric type is refused, or what is read is the number again,
in the float types a nearest one (`Postgres.numbers_kept`).  This does not hold where a value of
eight bytes of one form meets a type of eight bytes of the other: there the pattern is kept and
the number is not (`Postgres.numbers_kept_one`).

| | `int2` | `int4` | `int8` | `oid` | `float4` | `float8` |
| --- | --- | --- | --- | --- | --- | --- |
| `int` | in range | in range | all | refused | refused | pattern |
| `uint` | refused | refused | in range | refused | refused | pattern |
| `float` | refused | refused | pattern | refused | nearest | all |
-/

namespace BoundSql

/-- The number that a value denotes. -/
def Value.number? : Value → Option Number
  | .int n => some (.finite n.toInt)
  | .uint n => some (.finite n.toNat)
  | .float d => some d.number
  | _ => none

/-- A member of a type is the integer it was made of. -/
theorem IntegerType.val_of_member {r : IntegerType} {n : Int} {m : r.Member}
    (h : r.member n = .ok m) : m.val = n := by
  rw [member] at h
  split at h
  · exact absurd h (by simp)
  · split at h
    · exact absurd h (by simp)
    · rw [← Except.ok.inj h]

namespace Postgres

namespace ColumnType

/-- What a column keeps of a number: a nearest one of the format, or the number itself. -/
def Keeps : ColumnType → Number → Number → Prop
  | float4 => BinaryFormat.single.Nearest
  | float8 => BinaryFormat.double.Nearest
  | _ => Eq

/-- The bytes of the value have the width of the type, and the other form. -/
def Confuses : ColumnType → Value → Prop
  | float8, .int _ | float8, .uint _ | int8, .float _ => True
  | _, _ => False

end ColumnType

/-- The number of the other form that has the pattern of a number in eight bytes. -/
def misread : Value → Value
  | .int n => .float ⟨n.toUInt64⟩
  | .uint u => .float ⟨u⟩
  | .float d => .int d.bits.toInt64
  | v => v

variable {t : ColumnType} {w : Value}

/-- What is stored of an integer within a range is the value it is stored as. -/
theorem eq_of_map_member {r : IntegerType} {n : Int} {a : Option Value}
    (h : (r.member n).map (fun _ => a) = .ok (some w)) : a = some w := by
  obtain ⟨-, -, ha⟩ := map_eq_ok.1 h
  exact ha

/-- The value is written in eight bytes, if at all. -/
def Eight (t : ColumnType) (v : Value) : Prop :=
  ∀ cell, encode t v = .ok cell → ∃ bytes : List UInt8, cell = some bytes ∧ bytes.length = 8

/-- A value of eight bytes is not stored by a column of another width. -/
theorem not_stored_of_eight {v : Value} {width : Nat} (hv : Eight t v)
    (ht : t.width? = some width) (hne : 8 ≠ width) : stored t v ≠ .ok (some w) := by
  intro h
  obtain ⟨cell, hcell, hw⟩ := map_eq_ok.1 h
  obtain ⟨bytes, rfl, hlength⟩ := hv cell hcell
  rw [decode?_of_width ht (hlength ▸ hne)] at hw
  exact absurd hw (Option.some_ne_none w).symm

/-- What is written as an integer of eight bytes is written in eight bytes. -/
theorem eight_of_ofInt {v : Value} {n : Int} (h : encode t v = .ok (some (BigEndian.ofInt 8 n))) :
    Eight t v := by
  intro cell hcell
  rw [h] at hcell
  exact ⟨_, (Except.ok.inj hcell).symm, BigEndian.length_ofInt 8 n⟩

/-- An unsigned integer is written in eight bytes, if at all. -/
theorem eight_uint (t : ColumnType) (u : UInt64) : Eight t (.uint u) := by
  intro cell hcell
  obtain ⟨m, -, rfl⟩ := map_eq_ok.1 hcell
  exact ⟨_, rfl, BigEndian.length_ofInt 8 m.val⟩

/-- What is written as a natural number of eight bytes is written in eight bytes. -/
theorem eight_of_ofNat {v : Value} {n : Nat} (h : encode t v = .ok (some (BigEndian.ofNat 8 n))) :
    Eight t v := by
  intro cell hcell
  rw [h] at hcell
  exact ⟨_, (Except.ok.inj hcell).symm, BigEndian.length_ofNat 8 n⟩

/-- **A signed integer is kept** in the integer types of sufficient range, and nowhere else. -/
theorem int_kept {n : Int64} (ht : t ∈ ColumnType.numeric) (hform : t ≠ .float8)
    (h : stored t (.int n) = .ok (some w)) : w = .int n ∧ t ∈ [.int2, .int4, .int8] := by
  simp only [ColumnType.numeric, List.mem_cons, List.not_mem_nil, or_false] at ht
  rcases ht with rfl | rfl | rfl | rfl | rfl | rfl
  · rw [stored_int_int2] at h
    exact ⟨(Option.some.inj (eq_of_map_member h)).symm, by decide⟩
  · rw [stored_int_int4] at h
    exact ⟨(Option.some.inj (eq_of_map_member h)).symm, by decide⟩
  · rw [stored_int_int8] at h
    exact ⟨(Option.some.inj (Except.ok.inj h)).symm, by decide⟩
  · exact absurd h (not_stored_of_eight (eight_of_ofInt rfl) rfl (by decide))
  · exact absurd h (not_stored_of_eight (eight_of_ofInt rfl) rfl (by decide))
  · exact absurd rfl hform

/-- **An unsigned integer is kept** as a signed one in `int8`, and nowhere else. -/
theorem uint_kept {u : UInt64} (ht : t ∈ ColumnType.numeric) (hform : t ≠ .float8)
    (h : stored t (.uint u) = .ok (some w)) :
    w = .int u.toInt64 ∧ u.toInt64.toInt = u.toNat ∧ t = .int8 := by
  simp only [ColumnType.numeric, List.mem_cons, List.not_mem_nil, or_false] at ht
  rcases ht with rfl | rfl | rfl | rfl | rfl | rfl
  · exact absurd h (not_stored_of_eight (eight_uint _ u) rfl (by decide))
  · exact absurd h (not_stored_of_eight (eight_uint _ u) rfl (by decide))
  · rw [stored_uint_int8] at h
    obtain ⟨m, hm, hw⟩ := map_eq_ok.1 h
    have hval : m.val = u.toNat := IntegerType.val_of_member hm
    have hle := m.le_greatest
    rw [hval] at hle
    exact ⟨(Option.some.inj hw).symm, toInt_toInt64_of_le hle, rfl⟩
  · exact absurd h (not_stored_of_eight (eight_uint _ u) rfl (by decide))
  · exact absurd h (not_stored_of_eight (eight_uint _ u) rfl (by decide))
  · exact absurd rfl hform

/-- **A float is kept** in `float8`, to single precision in `float4`, and nowhere else. -/
theorem float_kept {d : Double} (ht : t ∈ ColumnType.numeric) (hform : t ≠ .int8)
    (h : stored t (.float d) = .ok (some w)) :
    t = .float4 ∧ w = .float d.toSingle.toDouble ∨ t = .float8 ∧ w = .float d := by
  simp only [ColumnType.numeric, List.mem_cons, List.not_mem_nil, or_false] at ht
  rcases ht with rfl | rfl | rfl | rfl | rfl | rfl
  · exact absurd h (not_stored_of_eight (eight_of_ofNat rfl) rfl (by decide))
  · exact absurd h (not_stored_of_eight (eight_of_ofNat rfl) rfl (by decide))
  · exact absurd rfl hform
  · exact absurd h (not_stored_of_eight (eight_of_ofNat rfl) rfl (by decide))
  · rw [stored_float_float4] at h
    exact .inl ⟨rfl, (Option.some.inj (Except.ok.inj h)).symm⟩
  · rw [stored_float_float8] at h
    exact .inr ⟨rfl, (Option.some.inj (Except.ok.inj h)).symm⟩

/-- An integer column keeps a number that is not changed. -/
theorem keeps_self (ht : t ∈ [ColumnType.int2, .int4, .int8]) (x : Number) : t.Keeps x x := by
  simp only [List.mem_cons, List.not_mem_nil, or_false] at ht
  rcases ht with rfl | rfl | rfl <;> rfl

/-- Where a value and a type confuse the two forms, the pattern is kept. -/
theorem misread_of_confuses {v : Value} (hform : t.Confuses v)
    (h : stored t v = .ok (some w)) : w = misread v := by
  cases v with
  | int n =>
      cases t with
      | float8 =>
          rw [stored_int_float8] at h
          exact (Option.some.inj (Except.ok.inj h)).symm
      | _ => exact absurd hform not_false
  | uint u =>
      cases t with
      | float8 =>
          rw [stored_uint_float8] at h
          exact (Option.some.inj (eq_of_map_member h)).symm
      | _ => exact absurd hform not_false
  | float d =>
      cases t with
      | int8 =>
          rw [stored_float_int8] at h
          exact (Option.some.inj (Except.ok.inj h)).symm
      | _ => exact absurd hform not_false
  | _ => cases t <;> exact absurd hform not_false

/-- **What a column keeps of a number.**  Where a number is written as a parameter of a numeric
type and what is written can be read from the column, the number is read again, for the float
types a nearest one of the format.  The exception are a value and a type of eight bytes each and
of two forms; of these the pattern is read. -/
theorem numbers_kept (ht : t ∈ ColumnType.numeric) {v : Value} {x : Number}
    (hx : v.number? = some x) (h : stored t v = .ok (some w)) :
    (¬t.Confuses v → ∃ y, w.number? = some y ∧ t.Keeps x y) ∧
      (t.Confuses v → w = misread v) := by
  refine ⟨fun hform => ?_, fun hform => misread_of_confuses hform h⟩
  cases v with
  | int n =>
      have hfloat8 : t ≠ .float8 := fun heq => hform (by rw [heq]; trivial)
      obtain ⟨rfl, hinteger⟩ := int_kept ht hfloat8 h
      exact ⟨x, hx, keeps_self hinteger x⟩
  | uint u =>
      have hfloat8 : t ≠ .float8 := fun heq => hform (by rw [heq]; trivial)
      obtain ⟨rfl, hvalue, rfl⟩ := uint_kept ht hfloat8 h
      obtain rfl := Option.some.inj hx
      refine ⟨_, rfl, ?_⟩
      rw [hvalue]
      rfl
  | float d =>
      have hint8 : t ≠ .int8 := fun heq => hform (by rw [heq]; trivial)
      obtain rfl := Option.some.inj hx
      rcases float_kept ht hint8 h with ⟨rfl, rfl⟩ | ⟨rfl, rfl⟩
      · refine ⟨_, rfl, ?_⟩
        rw [Single.number_toDouble]
        exact d.toSingle_nearest
      · exact ⟨_, rfl, BinaryFormat.nearest_self _ _ _⟩
  | _ => exact absurd hx (Option.some_ne_none x).symm

/-- A tenth in single precision. -/
theorem numbers_kept_tenth :
    stored .float4 (.float ⟨0x3FB999999999999A⟩) = .ok (some (.float ⟨0x3FB99999A0000000⟩)) ∧
    ColumnType.float4.Keeps (Double.number ⟨0x3FB999999999999A⟩)
      (Double.number ⟨0x3FB99999A0000000⟩) := by
  have hsingle : Double.toSingle ⟨0x3FB999999999999A⟩ = ⟨0x3DCCCCCD⟩ := by decide
  have hdouble : Single.toDouble ⟨0x3DCCCCCD⟩ = ⟨0x3FB99999A0000000⟩ := by decide
  have hstored : stored .float4 (.float ⟨0x3FB999999999999A⟩) =
      .ok (some (.float ⟨0x3FB99999A0000000⟩)) := by
    rw [stored_float_float4, hsingle, hdouble]
  obtain ⟨y, hy, hkeeps⟩ := (numbers_kept (by decide) rfl hstored).1 not_false
  obtain rfl := Option.some.inj hy
  exact ⟨hstored, hkeeps⟩

/-- One, as an integer in a float column and as a float in an integer column. -/
theorem numbers_kept_one :
    (stored .float8 (.int 1) = .ok (some (.float ⟨1⟩)) ∧
      ¬ColumnType.float8.Keeps (.finite 1) (Double.number ⟨1⟩)) ∧
    stored .int8 (.float ⟨0x3FF0000000000000⟩) = .ok (some (.int 0x3FF0000000000000)) ∧
      ¬ColumnType.int8.Keeps (Double.number ⟨0x3FF0000000000000⟩) (.finite 0x3FF0000000000000) := by
  have hone : BinaryFormat.double.value 0x3FF0000000000000 = 1 := by
    have hparts : BinaryFormat.double.parts 0x3FF0000000000000 = (0x10000000000000, -52) := by
      decide
    rw [BinaryFormat.value, hparts]
    norm_num
  have htiny : BinaryFormat.double.value 1 < 1 := by
    rw [← hone]
    exact BinaryFormat.value_strictMono _ (by decide)
  refine ⟨⟨stored_int_float8 1, fun hkeeps => ?_⟩, stored_float_int8 _, fun hkeeps => ?_⟩
  · rw [Double.number_of_bits_lt (by decide)] at hkeeps
    have h := hkeeps.abs_sub_le false (m := 0x3FF0000000000000) (by decide)
    rw [BinaryFormat.signed, if_neg Bool.false_ne_true, hone, sub_self, abs_zero] at h
    have heq := sub_eq_zero.1 (abs_eq_zero.1 (le_antisymm h (abs_nonneg _)))
    exact absurd heq htiny.ne
  · rw [Double.number_of_bits_lt (by decide)] at hkeeps
    have heq := Number.finite.inj hkeeps
    have hvalue : BinaryFormat.double.value (0x3FF0000000000000 : UInt64).toNat = 1 := hone
    rw [hvalue] at heq
    norm_num at heq

end Postgres

end BoundSql
