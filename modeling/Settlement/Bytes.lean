/-!
# Byte strings

Storage keys, stored records and hashed texts are all lists of bytes. This module
gives the two ways in which a number is written in a fixed number of bytes, and the
bytes of a text.

Main statements: a number written in `w` bytes takes exactly `w` bytes
(`Settlement.Bytes.length_little`, `Settlement.Bytes.length_big`), and reads back modulo the
number of byte strings of that length (`Settlement.Bytes.toNatLittle_little`,
`Settlement.Bytes.toNatBig_big`).
-/

namespace Settlement

/-- A byte string. -/
abbrev Bytes := List UInt8

namespace Bytes

/-! ### Numbers of a fixed width -/

/-- The lowest `width` bytes of a number, the least significant first. -/
def little : Nat → Nat → Bytes
  | 0, _ => []
  | width + 1, n => UInt8.ofNat n :: little width (n / 256)

/-- The number whose bytes are listed with the least significant first. -/
def toNatLittle : Bytes → Nat
  | [] => 0
  | b :: bs => b.toNat + 256 * toNatLittle bs

/-- The lowest `width` bytes of a number, the most significant first. -/
def big (width n : Nat) : Bytes :=
  (little width n).reverse

/-- The number whose bytes are listed with the most significant first. -/
def toNatBig (bs : Bytes) : Nat :=
  toNatLittle bs.reverse

/-- How many byte strings there are of a length. -/
def capacity : Nat → Nat
  | 0 => 1
  | width + 1 => 256 * capacity width

@[simp]
theorem length_little (width n : Nat) : (little width n).length = width := by
  induction width generalizing n with
  | zero => rfl
  | succ width ih => simp [little, ih]

@[simp]
theorem length_big (width n : Nat) : (big width n).length = width := by
  simp [big]

theorem toNatLittle_little (width n : Nat) : toNatLittle (little width n) = n % capacity width := by
  induction width generalizing n with
  | zero => simp [little, toNatLittle, capacity, Nat.mod_one]
  | succ width ih =>
    have byte : (UInt8.ofNat n).toNat = n % 256 := rfl
    rw [little, toNatLittle, ih, byte, capacity, Nat.mod_mul]

theorem toNatBig_big (width n : Nat) : toNatBig (big width n) = n % capacity width := by
  simp [toNatBig, big, toNatLittle_little]

/-- A word in its eight bytes, the most significant first: storage keys and hashed texts. -/
def ofWord (n : UInt64) : Bytes :=
  big 8 n.toNat

@[simp]
theorem length_ofWord (n : UInt64) : (ofWord n).length = 8 :=
  length_big 8 _

/-! ### Texts -/

/-- The UTF-8 bytes of a text. -/
def ofText (s : String) : Bytes :=
  s.toList.flatMap String.utf8EncodeChar

/-- A text in front of which its length in bytes is written, in `width` bytes with the most
significant first. -/
def ofSizedText (width : Nat) (s : String) : Bytes :=
  big width (ofText s).length ++ ofText s

end Bytes

end Settlement
