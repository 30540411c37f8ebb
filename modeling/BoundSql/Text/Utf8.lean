/-!
# UTF-8

Reading bytes as UTF-8.  A refusal names the index of the character that cannot
be read and how much of it was wrong: an ill-formed sequence of one to three
bytes, or bytes that end within a character.
-/

namespace BoundSql.Text

/-- Why bytes are not UTF-8. -/
inductive Utf8Fault
  /-- The `length` bytes from `index` begin no character. -/
  | invalid (length index : Nat)
  /-- The bytes end within the character that starts at `index`. -/
  | incomplete (index : Nat)
  deriving DecidableEq

/-- The wording of a fault. -/
def Utf8Fault.message : Utf8Fault → String
  | .invalid length index => s!"invalid utf-8 sequence of {length} bytes from index {index}"
  | .incomplete index => s!"incomplete utf-8 byte sequence from index {index}"

/-- A byte that continues a character. -/
def isContinuation (b : UInt8) : Bool := 0x80 ≤ b && b ≤ 0xBF

/-- The length of a character by its first byte, and the range of its second
byte: the range excludes overlong forms, surrogates and code points past
`10FFFF`. -/
def leadByte? (b : UInt8) : Option (Nat × UInt8 × UInt8) :=
  if 0xC2 ≤ b && b ≤ 0xDF then some (2, 0x80, 0xBF)
  else if b = 0xE0 then some (3, 0xA0, 0xBF)
  else if b = 0xED then some (3, 0x80, 0x9F)
  else if 0xE1 ≤ b && b ≤ 0xEF then some (3, 0x80, 0xBF)
  else if b = 0xF0 then some (4, 0x90, 0xBF)
  else if 0xF1 ≤ b && b ≤ 0xF3 then some (4, 0x80, 0xBF)
  else if b = 0xF4 then some (4, 0x80, 0x8F)
  else none

/-- The six low bits that a continuation byte carries. -/
def payload (b : UInt8) : Nat := b.toNat % 64

/-- The characters that bytes from index `i` on encode. -/
def decodeFrom (i : Nat) : List UInt8 → Except Utf8Fault (List Char)
  | [] => .ok []
  | a :: rest =>
    if a < 0x80 then
      (decodeFrom (i + 1) rest).map (Char.ofNat a.toNat :: ·)
    else
      match leadByte? a with
      | none => .error (.invalid 1 i)
      | some (width, low, high) =>
        match rest with
        | [] => .error (.incomplete i)
        | b :: rest =>
          if b < low || high < b then .error (.invalid 1 i)
          else if width = 2 then
            (decodeFrom (i + 2) rest).map (Char.ofNat (a.toNat % 32 * 64 + payload b) :: ·)
          else
            match rest with
            | [] => .error (.incomplete i)
            | c :: rest =>
              if !isContinuation c then .error (.invalid 2 i)
              else if width = 3 then
                (decodeFrom (i + 3) rest).map
                  (Char.ofNat ((a.toNat % 16 * 64 + payload b) * 64 + payload c) :: ·)
              else
                match rest with
                | [] => .error (.incomplete i)
                | d :: rest =>
                  if !isContinuation d then .error (.invalid 3 i)
                  else
                    (decodeFrom (i + 4) rest).map
                      (Char.ofNat
                        (((a.toNat % 8 * 64 + payload b) * 64 + payload c) * 64 + payload d) :: ·)

/-- The text that bytes encode. -/
def decodeUtf8 (bytes : List UInt8) : Except Utf8Fault String :=
  (decodeFrom 0 bytes).map String.ofList

/-- The bytes of a text. -/
def encodeUtf8 (s : String) : List UInt8 := s.toUTF8.toList

end BoundSql.Text
