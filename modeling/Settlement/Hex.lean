import Settlement.Bytes

/-!
# Hexadecimal text

Byte strings are shown as lowercase hexadecimal text, two digits a byte, and are read from
hexadecimal text of either case. Reading reports what is wrong: an odd number of digits is
noticed before anything else, then the first byte of the text that is no digit.

Main statement: written text reads back (`Settlement.Hex.decode_encode`).
-/

namespace Settlement

namespace Hex

/-! ### Digits -/

/-- The lowercase digit of a number below sixteen. -/
def digit (n : Nat) : Char :=
  if n < 10 then Char.ofNat (48 + n) else Char.ofNat (87 + n)

/-- The value of a digit of either case, given as a byte of text. -/
def value? (b : UInt8) : Option Nat :=
  let n := b.toNat
  if 48 ≤ n ∧ n ≤ 57 then some (n - 48)
  else if 97 ≤ n ∧ n ≤ 102 then some (n - 87)
  else if 65 ≤ n ∧ n ≤ 70 then some (n - 55)
  else none

/-! ### Byte strings -/

/-- The digits of a byte string. -/
def digits : Bytes → List Char
  | [] => []
  | b :: bs => digit (b.toNat / 16) :: digit (b.toNat % 16) :: digits bs

/-- The hexadecimal text of a byte string. -/
def encode (bs : Bytes) : String :=
  String.ofList (digits bs)

/-- What is wrong with a text that should be hexadecimal. -/
inductive Fault where
  /-- A byte would have only one digit. -/
  | oddLength
  /-- The byte at this offset is no digit. -/
  | badDigit (byte : UInt8) (offset : Nat)
  deriving DecidableEq

/-- The character with the number of a byte, as it stands between quotes in a message: a quote
and a backslash follow a backslash, and a character that cannot be printed is shown by its
usual escape or by its number. -/
def quoted (byte : UInt8) : String :=
  let n := byte.toNat
  if n = 0 then "\\0"
  else if n = 9 then "\\t"
  else if n = 10 then "\\n"
  else if n = 13 then "\\r"
  else if n = 39 ∨ n = 92 then "\\" ++ String.singleton (Char.ofNat n)
  else if n < 16 then "\\u\x7b" ++ String.ofList [digit n] ++ "\x7d"
  else if n < 32 ∨ 127 ≤ n ∧ n ≤ 160 ∨ n = 173 then
    "\\u\x7b" ++ String.ofList [digit (n / 16), digit (n % 16)] ++ "\x7d"
  else String.singleton (Char.ofNat n)

/-- The wording of a fault. -/
def Fault.message : Fault → String
  | .oddLength => "Odd number of digits"
  | .badDigit byte offset =>
    "Invalid character '" ++ quoted byte ++ "' at position " ++ toString offset

/-- The bytes whose digits are given, two digits a byte, where `offset` digits have been read. -/
def decodeFrom (offset : Nat) : Bytes → Except Fault Bytes
  | [] => .ok []
  | [_] => .error .oddLength
  | high :: low :: rest =>
    match value? high with
    | none => .error (.badDigit high offset)
    | some h =>
      match value? low with
      | none => .error (.badDigit low (offset + 1))
      | some l => (decodeFrom (offset + 2) rest).map (UInt8.ofNat (16 * h + l) :: ·)

/-- The bytes that a hexadecimal text, given as bytes, stands for. -/
def decode (text : Bytes) : Except Fault Bytes :=
  if text.length % 2 = 1 then .error .oddLength else decodeFrom 0 text

/-- A text without the two characters `0x` in front, if it has them. -/
def trim (text : Bytes) : Bytes :=
  match text with
  | 48 :: 120 :: rest => rest
  | _ => text

/-- The text of a byte string with `0x` in front. -/
def encodePrefixed (bs : Bytes) : String :=
  "0x" ++ encode bs

/-! ### Written text reads back -/

/-- A digit is a single byte of text and stands for its number. -/
theorem value?_digit : ∀ n < 16,
    String.utf8EncodeChar (digit n) = [UInt8.ofNat (digit n).toNat] ∧
      value? (UInt8.ofNat (digit n).toNat) = some n := by
  decide

theorem decodeFrom_digits (offset : Nat) (bs : Bytes) :
    decodeFrom offset ((digits bs).flatMap String.utf8EncodeChar) = .ok bs := by
  induction bs generalizing offset with
  | nil => rfl
  | cons b bs ih =>
    have hb : b.toNat < 256 := b.toNat_lt
    obtain ⟨hx, hvx⟩ := value?_digit (b.toNat / 16) (by omega)
    obtain ⟨hy, hvy⟩ := value?_digit (b.toNat % 16) (by omega)
    have hsum : 16 * (b.toNat / 16) + b.toNat % 16 = b.toNat := by omega
    simp [digits, hx, hy, decodeFrom, hvx, hvy, ih, hsum, Except.map]

theorem length_digits_bytes (bs : Bytes) :
    ((digits bs).flatMap String.utf8EncodeChar).length = 2 * bs.length := by
  induction bs with
  | nil => rfl
  | cons b bs ih =>
    have hb : b.toNat < 256 := b.toNat_lt
    simp only [digits, List.flatMap_cons, (value?_digit (b.toNat / 16) (by omega)).1,
      (value?_digit (b.toNat % 16) (by omega)).1, List.length_append, List.length_cons,
      List.length_nil, ih]
    omega

/-- The text of a byte string reads back as the byte string. -/
theorem decode_encode (bs : Bytes) : decode (Bytes.ofText (encode bs)) = .ok bs := by
  have hlen : ¬ 2 * bs.length % 2 = 1 := by omega
  simp only [decode, Bytes.ofText, encode, String.toList_ofList, length_digits_bytes, hlen,
    if_false, decodeFrom_digits]

end Hex

end Settlement
