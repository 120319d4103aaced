import Settlement.Bytes

/-!
# Reading UTF-8

Texts inside stored records are UTF-8. The reader takes one byte at a time and keeps what the
character it is inside of still needs (`Settlement.Utf8.Partial`): how many bytes are missing
and between which bounds the next of them has to lie. The bounds alone exclude overlong forms,
surrogates and numbers above the last character.

A fault names the offset at which the readable part ends and, unless the text simply stops
inside a character, how many bytes from there on are the start of some character.
-/

namespace Settlement

namespace Utf8

/-! ### Faults -/

/-- Where a byte string stops being UTF-8. -/
structure Fault where
  /-- How many bytes in front are readable. -/
  readable : Nat
  /-- How many bytes after these start a character that the next byte rules out, or nothing if
  the text ends inside the character. -/
  started : Option Nat
  deriving DecidableEq

/-- The wording of a fault. -/
def Fault.message (f : Fault) : String :=
  match f.started with
  | some n => "invalid utf-8 sequence of " ++ toString n ++ " bytes from index "
      ++ toString f.readable
  | none => "incomplete utf-8 byte sequence from index " ++ toString f.readable

/-! ### Characters of several bytes -/

/-- What has been read of a character that takes more bytes. -/
structure Partial where
  /-- How many bytes have been read. -/
  seen : Nat
  /-- How many bytes follow the next one. -/
  after : Nat
  /-- The least next byte. -/
  low : Nat
  /-- The greatest next byte. -/
  high : Nat
  /-- The number that the bytes read so far spell. -/
  value : Nat

/-- The character that starts with a byte above the one-byte range, if one does. -/
def start? (b : Nat) : Option Partial :=
  if b < 0xC2 then none
  else if b < 0xE0 then some ⟨1, 0, 0x80, 0xBF, b - 0xC0⟩
  else if b = 0xE0 then some ⟨1, 1, 0xA0, 0xBF, 0⟩
  else if b = 0xED then some ⟨1, 1, 0x80, 0x9F, 0xD⟩
  else if b < 0xF0 then some ⟨1, 1, 0x80, 0xBF, b - 0xE0⟩
  else if b = 0xF0 then some ⟨1, 2, 0x90, 0xBF, 0⟩
  else if b < 0xF4 then some ⟨1, 2, 0x80, 0xBF, b - 0xF0⟩
  else if b = 0xF4 then some ⟨1, 2, 0x80, 0x8F, 4⟩
  else none

/-! ### The reader -/

/-- The characters of a byte string that follows `offset` read bytes, where `inside` is the
character that the string continues, if it starts inside one. -/
def charsFrom (offset : Nat) (inside : Option Partial) : Bytes → Except Fault (List Char)
  | [] => match inside with
    | none => .ok []
    | some _ => .error ⟨offset, none⟩
  | b :: bs => match inside with
    | none =>
      if b.toNat < 0x80 then
        (charsFrom (offset + 1) none bs).map (Char.ofNat b.toNat :: ·)
      else
        match start? b.toNat with
        | none => .error ⟨offset, some 1⟩
        | some p => charsFrom offset (some p) bs
    | some p =>
      if p.low ≤ b.toNat ∧ b.toNat ≤ p.high then
        let value := 64 * p.value + (b.toNat - 0x80)
        match p.after with
        | 0 => (charsFrom (offset + p.seen + 1) none bs).map (Char.ofNat value :: ·)
        | left + 1 => charsFrom offset (some ⟨p.seen + 1, left, 0x80, 0xBF, value⟩) bs
      else
        .error ⟨offset, some p.seen⟩

/-- The text whose UTF-8 bytes are given. -/
def decode (bs : Bytes) : Except Fault String :=
  (charsFrom 0 none bs).map String.ofList

end Utf8

end Settlement
