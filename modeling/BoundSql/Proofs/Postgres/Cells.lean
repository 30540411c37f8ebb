import BoundSql.Proofs.Json.Values
import BoundSql.Proofs.Postgres.Stored
import BoundSql.Proofs.Text.Utf8

/-!
# Cells written back

What is read from a cell can be stored in a column of the same type, and is read again
(`Postgres.cells_written_back`), with two exceptions: a NaN comes back as a NaN, and no number
that is read as an `oid` can be stored as one, since it is written in eight bytes and read in
four.
-/

namespace BoundSql

/-! ## Dates and times -/

/-- A date is read back from its day. -/
theorem Date.ofDay?_day (d : Date) : ofDay? d.day = some d :=
  dif_pos ⟨d.firstDay_le, d.le_lastDay⟩

/-- A day is read back from its date. -/
theorem Date.day_of_ofDay? {day : Int} {d : Date} (h : ofDay? day = some d) : d.day = day := by
  rw [ofDay?] at h
  split at h
  · rw [← Option.some.inj h]
  · exact absurd h (Option.some_ne_none d).symm

/-- A time of day is counted from midnight on. -/
theorem Time.micros_ofMicros (n : Int) : (ofMicros n).micros = n % 86400000000 := by
  simp only [ofMicros, micros]
  omega

/-- Whole days do not change the time of day. -/
theorem Time.ofMicros_emod (n : Int) : ofMicros (n % 86400000000) = ofMicros n := by
  simp only [ofMicros, Int.emod_emod]

/-- Microseconds come back. -/
theorem Timestamp.micros_of_ofMicros? {n : Int} {t : Timestamp} (h : ofMicros? n = some t) :
    t.micros = n := by
  obtain ⟨date, hdate, rfl⟩ := Option.map_eq_some_iff.1 h
  have hday := Date.day_of_ofDay? hdate
  have hwhole : (date.day * 86400 + (Time.ofMicros n).second) * 1000000000 +
      (Time.ofMicros n).nano = n * 1000 := by
    simp only [hday, Time.ofMicros]
    omega
  rw [micros, hwhole]
  exact Int.mul_tdiv_cancel n (by decide)

/-- Two values are the same, or both are a NaN. -/
inductive Value.Same : Value → Value → Prop
  | refl (v : Value) : Same v v
  | nan {d d' : Double} (h : d.isNaN = true) (h' : d'.isNaN = true) : Same (.float d) (.float d')

namespace Postgres

variable {bytes : List UInt8}

/-! ## What is read of fixed widths -/

/-- What is read from a width has this width. -/
theorem length_of_exactly? {width : Nat} {bytes' : List UInt8}
    (h : exactly? width bytes = some bytes') : bytes.length = width := by
  rw [exactly?] at h
  split at h
  · assumption
  · exact absurd h (Option.some_ne_none bytes').symm

/-- **An integer that is read is in the range of its width.** -/
theorem bounds_of_integer? {width : Nat} {n : Int} (h : integer? width bytes = some n) :
    -(Nat.pow 256 width : Nat) ≤ 2 * n ∧ 2 * n < (Nat.pow 256 width : Nat) := by
  obtain ⟨bytes', hbytes, rfl⟩ := Option.map_eq_some_iff.1 h
  have hlength := length_of_exactly? hbytes
  rw [exactly?_of_length hlength] at hbytes
  obtain rfl := Option.some.inj hbytes
  have hpos : 0 < Nat.pow 256 width := Nat.pow_pos (by decide)
  have hlow := Int.le_bmod (x := BigEndian.toNat bytes) hpos
  have hhigh := Int.bmod_lt (x := BigEndian.toNat bytes) hpos
  rw [BigEndian.toInt, hlength]
  omega

/-- It can be written in this width again. -/
theorem integer?_written {width : Nat} {n : Int} (h : integer? width bytes = some n) :
    integer? width (BigEndian.ofInt width n) = some n := by
  obtain ⟨hlow, hhigh⟩ := bounds_of_integer? h
  exact integer?_ofInt hlow hhigh

/-- It is a word. -/
theorem toInt_ofInt_of_integer? {width : Nat} {n : Int} (h : integer? width bytes = some n)
    (hwidth : width ≤ 8) : (Int64.ofInt n).toInt = n := by
  obtain ⟨hlow, hhigh⟩ := bounds_of_integer? h
  have hle : Nat.pow 256 width ≤ Nat.pow 256 8 := Nat.pow_le_pow_right (by decide) hwidth
  have hword : Nat.pow 256 8 = 18446744073709551616 := rfl
  exact Int64.toInt_ofInt_of_le (by omega) (by omega)

/-! ## What is written back -/

/-- Stored in a column of the type, the value comes back. -/
def ColumnType.Returns (t : ColumnType) (v : Value) : Prop :=
  ∃ w, stored t v = .ok (some w) ∧ v.Same w

/-- What is read again from what is written. -/
theorem returns_of_encode {t : ColumnType} {v : Value} {written : List UInt8}
    (h : encode t v = .ok (some written)) (hread : decodeBytes? t written = some v) :
    t.Returns v := by
  refine ⟨v, ?_, .refl v⟩
  rw [stored_of_encode h, decode?_bytes, hread]

/-- A truth value is returned as it was written. -/
theorem returns_bool (b : Bool) : ColumnType.bool.Returns (.bool b) := by
  cases b with
  | false => exact returns_of_encode rfl rfl
  | true => exact returns_of_encode rfl rfl

/-- An integer in the range of a type. -/
theorem map_member_of_mem {r : IntegerType} {n : Int} (hlow : r.least ≤ n) (hhigh : n ≤ r.greatest)
    (a : Option Value) : (r.member n).map (fun _ => a) = .ok a := by
  rw [IntegerType.member, dif_neg (Int.not_lt.2 hlow), dif_neg (Int.not_lt.2 hhigh)]
  rfl

/-- An integer that was read from a narrow column is returned by it. -/
theorem returns_within {t : ColumnType} {r : IntegerType} {width : Nat} {n : Int}
    (hr : Spans r width) (hwidth : width ≤ 8)
    (ht : ∀ n : Int64, stored t (.int n) = (r.member n.toInt).map fun _ => some (.int n))
    (h : integer? width bytes = some n) : t.Returns (.int (Int64.ofInt n)) := by
  obtain ⟨hleast, hgreatest⟩ := hr
  obtain ⟨hlow, hhigh⟩ := bounds_of_integer? h
  refine ⟨_, ?_, .refl _⟩
  rw [ht, toInt_ofInt_of_integer? h hwidth]
  exact map_member_of_mem (by omega) (by omega) _

/-- **A single that is read comes back**, a NaN as a NaN. -/
theorem returns_float4 (s : Single) : ColumnType.float4.Returns (.float s.toDouble) := by
  refine ⟨_, stored_float_float4 _, ?_⟩
  cases h : s.isNaN with
  | false =>
      rw [Single.toSingle_toDouble h]
      exact .refl _
  | true =>
      have hdouble : s.toDouble.isNaN = true :=
        decide_eq_true (Single.magnitude_toDouble_of_isNaN h)
      have hsingle : s.toDouble.toSingle.isNaN = true :=
        decide_eq_true (Double.magnitude_toSingle_of_isNaN hdouble)
      exact .nan hdouble (decide_eq_true (Single.magnitude_toDouble_of_isNaN hsingle))

/-- A text is read back from its bytes. -/
theorem text?_encodeUtf8 (s : String) : text? (Text.encodeUtf8 s) = some s := by
  rw [text?, Text.decodeUtf8_encodeUtf8]
  rfl

/-- A text in a column of any type that reads text. -/
theorem returns_text {t : ColumnType}
    (ht : ∀ bytes, decodeBytes? t bytes = (text? bytes).map .text) (s : String) :
    t.Returns (.text s) := by
  refine returns_of_encode rfl ?_
  rw [ht, text?_encodeUtf8, Option.map_some]

/-- **A document that is read is read again** from its text, if its numbers are. -/
theorem json?_written {j : Json} (h : json? bytes = some j) (hback : j.ReadsBack) :
    json? (Text.encodeUtf8 j.toText) = some j := by
  obtain ⟨s, -, hs⟩ := Option.bind_eq_some_iff.1 h
  obtain ⟨tree, -, htree⟩ := Option.bind_eq_some_iff.1 hs
  have hfits := JsonText.fits_of_value? htree
  rw [json?, text?_encodeUtf8]
  exact (Json.ofText?_toText j).trans (JsonText.value?_ofValue hfits hback)

/-- A date is returned as it was read. -/
theorem returns_date {d : Date} {n : Int} (hn : integer? 4 bytes = some n)
    (hd : Date.ofDay? n = some d) : ColumnType.date.Returns (.date d) := by
  have hday := Date.day_of_ofDay? hd
  have hread : integer? 4 (BigEndian.ofInt 4 d.day) = some d.day := by
    rw [hday]
    exact integer?_written hn
  refine returns_of_encode rfl ?_
  rw [decodeBytes?, hread]
  show (Date.ofDay? d.day >>= fun d => pure (Value.date d)) = some (.date d)
  rw [Date.ofDay?_day]
  rfl

/-- A time of day is returned as it was read. -/
theorem returns_time (n : Int) : ColumnType.time.Returns (.time (Time.ofMicros n)) := by
  have hwidth : Nat.pow 256 8 = 18446744073709551616 := rfl
  have hread : integer? 8 (BigEndian.ofInt 8 (Time.ofMicros n).micros) =
      some (n % 86400000000) := by
    rw [Time.micros_ofMicros]
    exact integer?_ofInt (by omega) (by omega)
  refine returns_of_encode rfl ?_
  rw [decodeBytes?, hread, Option.map_some, Time.ofMicros_emod]

/-- A timestamp is read back from the microseconds that are written for it. -/
theorem timestamp?_written {t : Timestamp} (h : timestamp? bytes = some t) :
    timestamp? (BigEndian.ofInt 8 t.micros) = some t := by
  obtain ⟨n, hn, ht⟩ := Option.bind_eq_some_iff.1 h
  rw [timestamp?, Timestamp.micros_of_ofMicros? ht, integer?_written hn]
  exact ht

/-- A UUID is read back from its bytes. -/
theorem Uuid.ofBytes?_bytes (u : Uuid) : Uuid.ofBytes? u.bytes = some u := dif_pos u.length_eq

/-- What is read from an `oid` is written in eight bytes, which no `oid` has. -/
theorem stored_oid {v : Value} (h : decode? .oid (some bytes) = some v) :
    stored .oid v = .ok none := by
  rw [decode?_bytes] at h
  obtain ⟨n, -, rfl⟩ := Option.map_eq_some_iff.1 h
  refine stored_of_width rfl rfl ?_
  rw [BigEndian.length_ofInt]
  decide

/-- Every column type but the one of object identifiers returns what was read from its cells. -/
theorem returns_of_decode? {t : ColumnType} {v : Value} (ht : t ≠ .oid)
    (h : decode? t (some bytes) = some v) (hback : ∀ j, v = .json j → j.ReadsBack) :
    t.Returns v := by
  rw [decode?_bytes] at h
  cases t with
  | bool =>
      obtain ⟨n, -, rfl⟩ := Option.map_eq_some_iff.1 h
      exact returns_bool _
  | int2 =>
      obtain ⟨n, hn, rfl⟩ := Option.map_eq_some_iff.1 h
      exact returns_within ⟨rfl, rfl⟩ (by decide) stored_int_int2 hn
  | int4 =>
      obtain ⟨n, hn, rfl⟩ := Option.map_eq_some_iff.1 h
      exact returns_within ⟨rfl, rfl⟩ (by decide) stored_int_int4 hn
  | int8 =>
      obtain ⟨n, -, rfl⟩ := Option.map_eq_some_iff.1 h
      exact ⟨_, stored_int_int8 _, .refl _⟩
  | oid => exact absurd rfl ht
  | float4 =>
      obtain ⟨n, -, rfl⟩ := Option.map_eq_some_iff.1 h
      exact returns_float4 _
  | float8 =>
      obtain ⟨n, -, rfl⟩ := Option.map_eq_some_iff.1 h
      exact ⟨_, stored_float_float8 _, .refl _⟩
  | text | varchar | bpchar | name | unknown =>
      obtain ⟨s, -, rfl⟩ := Option.map_eq_some_iff.1 h
      exact returns_text (fun _ => rfl) s
  | bytea =>
      obtain rfl := Option.some.inj h
      exact returns_of_encode rfl rfl
  | json =>
      obtain ⟨j, hj, rfl⟩ := Option.map_eq_some_iff.1 h
      have hread := json?_written hj (hback j rfl)
      exact returns_of_encode rfl (congrArg (Option.map Value.json) hread)
  | jsonb =>
      cases bytes with
      | nil => exact absurd h (Option.some_ne_none v).symm
      | cons version rest =>
          change (if version = jsonbVersion then (json? rest).map .json else none) = some v at h
          split at h
          · obtain ⟨j, hj, rfl⟩ := Option.map_eq_some_iff.1 h
            have hread := json?_written hj (hback j rfl)
            exact returns_of_encode rfl (congrArg (Option.map Value.json) hread)
          · exact absurd h (Option.some_ne_none v).symm
  | date =>
      obtain ⟨n, hn, h⟩ := Option.bind_eq_some_iff.1 h
      obtain ⟨d, hd, hv⟩ := Option.bind_eq_some_iff.1 h
      obtain rfl := Option.some.inj hv
      exact returns_date hn hd
  | time =>
      obtain ⟨n, -, rfl⟩ := Option.map_eq_some_iff.1 h
      exact returns_time n
  | timestamp =>
      obtain ⟨t, ht, rfl⟩ := Option.map_eq_some_iff.1 h
      exact returns_of_encode rfl (congrArg (Option.map Value.timestamp) (timestamp?_written ht))
  | timestamptz =>
      obtain ⟨t, ht, rfl⟩ := Option.map_eq_some_iff.1 h
      exact returns_of_encode rfl
        (congrArg (Option.map Value.timestampTz) (timestamp?_written ht))
  | uuid =>
      obtain ⟨u, -, rfl⟩ := Option.map_eq_some_iff.1 h
      exact returns_of_encode rfl (congrArg (Option.map Value.uuid) (Uuid.ofBytes?_bytes u))
  | other name => exact absurd h (Option.some_ne_none v).symm

/-- **Cells are written back.**  A value that is read from a cell can be stored in a column of
the same type, and is read again, a NaN as a NaN; of JSON, the numbers have to be read back from
their text.  The only exception is `oid`, of which no value can. -/
theorem cells_written_back {t : ColumnType} {v : Value} (h : decode? t (some bytes) = some v)
    (hback : ∀ j, v = .json j → j.ReadsBack) : t.Returns v ↔ t ≠ .oid := by
  constructor
  · rintro ⟨w, hw, -⟩ rfl
    rw [stored_oid h] at hw
    exact absurd (Except.ok.inj hw) (Option.some_ne_none w).symm
  · intro ht
    exact returns_of_decode? ht h hback

/-- A small integer, and an array in a document with its version. -/
theorem cells_written_back_array :
    (decode? .int2 (some [0xFF, 0xFE]) = some (.int (-2)) ∧ ColumnType.int2.Returns (.int (-2))) ∧
    ∃ j : Json, j = .array [.number (.integer 1 (by decide) (by decide))] ∧
      decode? .jsonb (some [1, 0x5B, 0x31, 0x5D]) = some (.json j) ∧
      ColumnType.jsonb.Returns (.json j) := by
  have hint2 : decode? .int2 (some [0xFF, 0xFE]) = some (.int (-2)) := by
    have hread : integer? 2 [0xFF, 0xFE] = some (-2) := by decide
    rw [decode?_bytes, decodeBytes?, hread]
    rfl
  have hjson : decode? .jsonb (some [1, 0x5B, 0x31, 0x5D]) =
      some (.json (.array [.number (.integer 1 (by decide) (by decide))])) := rfl
  refine ⟨⟨hint2, (cells_written_back hint2 (by simp)).2 (by decide)⟩, _, rfl, hjson, ?_⟩
  refine (cells_written_back hjson ?_).2 (by decide)
  rintro j ⟨⟩
  exact ⟨JsonNumber.readsBack_integer 1 (by decide) (by decide), trivial⟩

/-- An `oid` is not written back. -/
theorem cells_written_back_oid :
    decode? .oid (some [0, 0, 0, 7]) = some (.int 7) ∧
    encode .oid (.int 7) = .ok (some [0, 0, 0, 0, 0, 0, 0, 7]) ∧
    ¬ColumnType.oid.Returns (.int 7) := by
  have hread : decode? .oid (some [0, 0, 0, 7]) = some (.int 7) := rfl
  refine ⟨hread, rfl, ?_⟩
  rintro ⟨w, hw, -⟩
  rw [stored_oid hread] at hw
  exact absurd (Except.ok.inj hw) (Option.some_ne_none w).symm

end Postgres

end BoundSql
