import BoundSql.Text.Utf8

/-!
# Texts read back from their bytes

The bytes of a text are UTF-8, and the text is read back from them
(`Text.decodeUtf8_encodeUtf8`).  A character has one to four bytes; the range that the first of
them sets for the second one holds because the form is the shortest and the character is no
surrogate.
-/

namespace BoundSql.Text

variable {a b c d : Nat}

/-! ## Characters read -/

/-- The byte `a` begins a character of so many bytes and admits `b` behind it. -/
def Begins (a width b : Nat) : Prop :=
  ∃ low high : UInt8, leadByte? (UInt8.ofNat a) = some (width, low, high) ∧
    low.toNat ≤ b ∧ b ≤ high.toNat

/-- A number below 256 is read back from its byte. -/
theorem toNat_byte {n : Nat} (hn : n < 256) : (UInt8.ofNat n).toNat = n := by
  rw [UInt8.toNat_ofNat']
  exact Nat.mod_eq_of_lt hn

/-- A byte is compared as its number. -/
theorem byte_lt {m : UInt8} {n : Nat} (hn : n < 256) : UInt8.ofNat n < m ↔ n < m.toNat := by
  rw [UInt8.lt_iff_toNat_lt, toNat_byte hn]

/-- A byte is compared as its number. -/
theorem lt_byte {m : UInt8} {n : Nat} (hn : n < 256) : m < UInt8.ofNat n ↔ m.toNat < n := by
  rw [UInt8.lt_iff_toNat_lt, toNat_byte hn]

/-- The bytes from 128 to 191 continue a character. -/
theorem isContinuation_byte {n : Nat} (hlow : 128 ≤ n) (hhigh : n ≤ 191) :
    isContinuation (UInt8.ofNat n) = true := by
  have hbyte : (UInt8.ofNat n).toNat = n := toNat_byte (by omega)
  simp only [isContinuation, UInt8.le_iff_toNat_le, hbyte, Bool.and_eq_true, decide_eq_true_eq]
  exact ⟨hlow, hhigh⟩

/-- No single byte of a character. -/
theorem not_byte_lt (ha : 128 ≤ a) (ha' : a < 256) : ¬UInt8.ofNat a < 0x80 :=
  fun h => absurd ((byte_lt ha').1 h) (Nat.not_lt.2 ha)

/-- The test for a second byte that is not admitted. -/
theorem outside_eq_false {low high : UInt8} (hb : b < 256) (hlow : low.toNat ≤ b)
    (hhigh : b ≤ high.toNat) :
    (decide (UInt8.ofNat b < low) || decide (high < UInt8.ofNat b)) = false := by
  simp only [byte_lt hb, lt_byte hb, Bool.or_eq_false_iff, decide_eq_false_iff_not]
  omega

/-- Lead bytes from 194 on begin characters of two bytes. -/
theorem begins_two (hlow : 194 ≤ a) (hhigh : a ≤ 223) (hb : 128 ≤ b) (hb' : b ≤ 191) :
    Begins a 2 b := by
  obtain ⟨n, rfl⟩ := Nat.exists_eq_add_of_le hlow
  have hlead : ∀ n : Fin 30, leadByte? (UInt8.ofNat (194 + n)) = some (2, 0x80, 0xBF) := by decide
  exact ⟨_, _, hlead ⟨n, by omega⟩, hb, hb'⟩

/-- Lead bytes from 224 on begin characters of three bytes, if these are not overlong and no
surrogates. -/
theorem begins_three (hlow : 224 ≤ a) (hhigh : a ≤ 239) (hb : 128 ≤ b) (hb' : b ≤ 191)
    (hshort : a = 224 → 160 ≤ b) (hsurrogate : a = 237 → b ≤ 159) : Begins a 3 b := by
  obtain ⟨n, rfl⟩ := Nat.exists_eq_add_of_le hlow
  have hlead : ∀ n : Fin 16, n.val ≠ 0 → n.val ≠ 13 →
      leadByte? (UInt8.ofNat (224 + n)) = some (3, 0x80, 0xBF) := by decide
  by_cases hfirst : n = 0
  · subst hfirst
    exact ⟨_, _, rfl, hshort rfl, hb'⟩
  · by_cases hlast : n = 13
    · subst hlast
      exact ⟨_, _, rfl, hb, hsurrogate rfl⟩
    · exact ⟨_, _, hlead ⟨n, by omega⟩ hfirst hlast, hb, hb'⟩

/-- Lead bytes from 240 on begin characters of four bytes, within the range of Unicode. -/
theorem begins_four (hlow : 240 ≤ a) (hhigh : a ≤ 244) (hb : 128 ≤ b) (hb' : b ≤ 191)
    (hshort : a = 240 → 144 ≤ b) (hlast : a = 244 → b ≤ 143) : Begins a 4 b := by
  obtain ⟨n, rfl⟩ := Nat.exists_eq_add_of_le hlow
  have hlead : ∀ n : Fin 5, n.val ≠ 0 → n.val ≠ 4 →
      leadByte? (UInt8.ofNat (240 + n)) = some (4, 0x80, 0xBF) := by decide
  by_cases hfirst : n = 0
  · subst hfirst
    exact ⟨_, _, rfl, hshort rfl, hb'⟩
  · by_cases htop : n = 4
    · subst htop
      exact ⟨_, _, rfl, hb, hlast rfl⟩
    · exact ⟨_, _, hlead ⟨n, by omega⟩ hfirst htop, hb, hb'⟩

variable (i : Nat) (rest : List UInt8)

/-- A byte below 128 is a character by itself. -/
theorem decodeFrom_one (ha : a < 128) : decodeFrom i (UInt8.ofNat a :: rest) =
    (decodeFrom (i + 1) rest).map (Char.ofNat a :: ·) := by
  have hbyte : (UInt8.ofNat a).toNat = a := toNat_byte (by omega)
  have hlt : UInt8.ofNat a < 0x80 := (byte_lt (by omega)).2 ha
  rw [decodeFrom, if_pos hlt, hbyte]

/-- Two bytes are decoded to five bits and six bits. -/
theorem decodeFrom_two (ha : 128 ≤ a) (ha' : a < 256) (h : Begins a 2 b) (hb : b < 256) :
    decodeFrom i (UInt8.ofNat a :: UInt8.ofNat b :: rest) =
      (decodeFrom (i + 2) rest).map (Char.ofNat (a % 32 * 64 + b % 64) :: ·) := by
  obtain ⟨low, high, hlead, hlow, hhigh⟩ := h
  simp only [decodeFrom, if_neg (not_byte_lt ha ha'), hlead, outside_eq_false hb hlow hhigh,
    payload, toNat_byte ha', toNat_byte hb]
  rfl

/-- Three bytes are decoded to four bits and twice six bits. -/
theorem decodeFrom_three (ha : 128 ≤ a) (ha' : a < 256) (h : Begins a 3 b) (hb : b < 256)
    (hc : 128 ≤ c) (hc' : c ≤ 191) :
    decodeFrom i (UInt8.ofNat a :: UInt8.ofNat b :: UInt8.ofNat c :: rest) =
      (decodeFrom (i + 3) rest).map
        (Char.ofNat ((a % 16 * 64 + b % 64) * 64 + c % 64) :: ·) := by
  obtain ⟨low, high, hlead, hlow, hhigh⟩ := h
  have hbyte : (UInt8.ofNat c).toNat = c := toNat_byte (by omega)
  simp only [decodeFrom, if_neg (not_byte_lt ha ha'), hlead, outside_eq_false hb hlow hhigh,
    isContinuation_byte hc hc', payload, toNat_byte ha', toNat_byte hb, hbyte]
  rfl

/-- Four bytes are decoded to three bits and three times six bits. -/
theorem decodeFrom_four (ha : 128 ≤ a) (ha' : a < 256) (h : Begins a 4 b) (hb : b < 256)
    (hc : 128 ≤ c) (hc' : c ≤ 191) (hd : 128 ≤ d) (hd' : d ≤ 191) :
    decodeFrom i (UInt8.ofNat a :: UInt8.ofNat b :: UInt8.ofNat c :: UInt8.ofNat d :: rest) =
      (decodeFrom (i + 4) rest).map
        (Char.ofNat (((a % 8 * 64 + b % 64) * 64 + c % 64) * 64 + d % 64) :: ·) := by
  obtain ⟨low, high, hlead, hlow, hhigh⟩ := h
  have hc256 : (UInt8.ofNat c).toNat = c := toNat_byte (by omega)
  have hd256 : (UInt8.ofNat d).toNat = d := toNat_byte (by omega)
  simp only [decodeFrom, if_neg (not_byte_lt ha ha'), hlead, outside_eq_false hb hlow hhigh,
    isContinuation_byte hc hc', isContinuation_byte hd hd', payload, toNat_byte ha',
    toNat_byte hb, hc256, hd256]
  rfl

/-- **A character is read back from its bytes.** -/
theorem decodeFrom_char (c : Char) :
    decodeFrom i (String.utf8EncodeChar c ++ rest) =
      (decodeFrom (i + (String.utf8EncodeChar c).length) rest).map (c :: ·) := by
  have hvalid : c.toNat < 55296 ∨ 57343 < c.toNat ∧ c.toNat < 1114112 := c.valid
  have hc : Char.ofNat c.toNat = c := Char.ofNat_toNat c
  generalize hv : c.toNat = v at hvalid hc
  have hval : c.val.toNat = v := hv
  rw [String.utf8EncodeChar]
  simp only [hval]
  split
  · rw [List.singleton_append, decodeFrom_one i rest (by omega), hc]
    rfl
  · split
    · have hbegins : Begins (v / 64 % 32 + 192) 2 (v % 64 + 128) :=
        begins_two (by omega) (by omega) (by omega) (by omega)
      have hread : (v / 64 % 32 + 192) % 32 * 64 + (v % 64 + 128) % 64 = v := by omega
      have h := decodeFrom_two i rest (by omega) (by omega) hbegins (by omega)
      rwa [hread, hc] at h
    · split
      · have hbegins : Begins (v / 4096 % 16 + 224) 3 (v / 64 % 64 + 128) :=
          begins_three (by omega) (by omega) (by omega) (by omega) (by omega) (by omega)
        have hread : ((v / 4096 % 16 + 224) % 16 * 64 + (v / 64 % 64 + 128) % 64) * 64 +
            (v % 64 + 128) % 64 = v := by omega
        have h := decodeFrom_three i rest (by omega) (by omega) hbegins (by omega)
          (c := v % 64 + 128) (by omega) (by omega)
        rwa [hread, hc] at h
      · have hbegins : Begins (v / 262144 % 8 + 240) 4 (v / 4096 % 64 + 128) :=
          begins_four (by omega) (by omega) (by omega) (by omega) (by omega) (by omega)
        have hread : (((v / 262144 % 8 + 240) % 8 * 64 + (v / 4096 % 64 + 128) % 64) * 64 +
            (v / 64 % 64 + 128) % 64) * 64 + (v % 64 + 128) % 64 = v := by omega
        have h := decodeFrom_four i rest (by omega) (by omega) hbegins (by omega)
          (c := v / 64 % 64 + 128) (by omega) (by omega) (d := v % 64 + 128) (by omega) (by omega)
        rwa [hread, hc] at h

/-! ## Texts read -/

/-- Encoded characters are decoded to themselves. -/
theorem decodeFrom_chars (i : Nat) (cs : List Char) :
    decodeFrom i (cs.flatMap String.utf8EncodeChar) = .ok cs := by
  induction cs generalizing i with
  | nil => rw [List.flatMap_nil, decodeFrom]
  | cons c cs ih =>
      rw [List.flatMap_cons, decodeFrom_char, ih]
      rfl

/-- The bytes of an array as a list. -/
theorem toList_loop (bytes : ByteArray) (i : Nat) (front : List UInt8) :
    ByteArray.toList.loop bytes i front = front.reverse ++ bytes.data.toList.drop i := by
  fun_induction ByteArray.toList.loop bytes i front with
  | case1 i front h ih =>
      have hi : i < bytes.data.toList.length := by simpa using h
      rw [ih, List.drop_eq_getElem_cons hi]
      simp [ByteArray.get!, h]
  | case2 i front h =>
      rw [List.drop_eq_nil_of_le (by simpa using Nat.le_of_not_lt h), List.append_nil]

/-- A text is encoded character by character. -/
theorem encodeUtf8_eq (s : String) : encodeUtf8 s = s.toList.flatMap String.utf8EncodeChar := by
  have hbytes : s.toUTF8 = (s.toList.flatMap String.utf8EncodeChar).toByteArray :=
    String.utf8Encode_toList.symm
  rw [encodeUtf8, hbytes, ByteArray.toList, toList_loop, List.toList_data_toByteArray]
  rfl

/-- **A text is read back from its bytes.** -/
theorem decodeUtf8_encodeUtf8 (s : String) : decodeUtf8 (encodeUtf8 s) = .ok s := by
  rw [encodeUtf8_eq, decodeUtf8, decodeFrom_chars]
  exact congrArg Except.ok String.ofList_toList

end BoundSql.Text
