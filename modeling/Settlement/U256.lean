import Settlement.Hex

/-!
# Numbers of 256 bits

Amounts and gas prices are natural numbers below the 256th power of two. Records hold them as
text: `0x` and the lowercase hexadecimal digits, without leading zeros and with one digit for
zero. Reading is more liberal: the `0x` may be missing, digits have either case, and up to
sixty-four of them are accepted.

Main statement: the thirty-two bytes of a number determine it
(`Settlement.U256.toNatBig_bytes`).
-/

namespace Settlement

/-- How many numbers of 256 bits there are: the 256th power of two. -/
abbrev U256.size : Nat :=
  0x10000000000000000000000000000000000000000000000000000000000000000

/-- A natural number of at most 256 bits. -/
structure U256 where
  /-- The number. -/
  toNat : Nat
  /-- It has at most 256 bits. -/
  toNat_lt : toNat < U256.size
  deriving DecidableEq

namespace U256

@[ext]
theorem ext {x y : U256} (h : x.toNat = y.toNat) : x = y := by
  cases x; cases y; cases h; rfl

/-- The lowest 256 bits of a number. -/
def ofNat (n : Nat) : U256 :=
  ⟨n % size, Nat.mod_lt _ (by decide)⟩

/-- The number, if it has at most 256 bits. -/
def ofNat? (n : Nat) : Option U256 :=
  if h : n < size then some ⟨n, h⟩ else none

/-- The number zero. -/
def zero : U256 :=
  ⟨0, by decide⟩

/-- A word as a number of 256 bits. -/
def ofWord (n : UInt64) : U256 :=
  ⟨n.toNat, Nat.lt_trans n.toNat_lt (by decide)⟩

/-- The product, if it has at most 256 bits. -/
def mul? (x y : U256) : Option U256 :=
  ofNat? (x.toNat * y.toNat)

/-- The sum, or the greatest number if the sum has more than 256 bits. -/
def addCapped (x y : U256) : U256 :=
  (ofNat? (x.toNat + y.toNat)).getD ⟨size - 1, by decide⟩

/-- The decimal text, as it stands in error messages. -/
def toDecimal (x : U256) : String :=
  toString x.toNat

/-- The thirty-two bytes, the most significant first. -/
def bytes (x : U256) : Bytes :=
  Bytes.big 32 x.toNat

@[simp]
theorem toNatBig_bytes (x : U256) : Bytes.toNatBig x.bytes = x.toNat := by
  rw [bytes, Bytes.toNatBig_big]
  exact Nat.mod_eq_of_lt x.toNat_lt

/-! ### The text inside records -/

/-- The hexadecimal digits of a number, at most the given number of them, without leading
zeros. -/
def digits : Nat → Nat → List Char
  | 0, _ => []
  | places + 1, n =>
    if n < 16 then [Hex.digit n] else digits places (n / 16) ++ [Hex.digit (n % 16)]

/-- The text of a number. -/
def toHex (x : U256) : String :=
  "0x" ++ String.ofList (digits 64 x.toNat)

/-- What is wrong with a text that should be a number. -/
inductive Fault where
  /-- There are no digits, or more than sixty-four. -/
  | badLength (length : Nat)
  /-- The byte at this offset of the text is no digit. -/
  | badDigit (byte : UInt8) (offset : Nat)
  deriving DecidableEq

/-- The wording of a fault. -/
def Fault.message : Fault → String
  | .badLength length =>
    "invalid length " ++ toString length ++ ", expected a (both 0x-prefixed or not) hex string "
      ++ "or byte array containing between (0; 32] bytes"
  | .badDigit byte offset =>
    "invalid hex character: " ++ String.singleton (Char.ofNat byte.toNat) ++ ", at "
      ++ toString offset

/-- The number that follows `acc` when the given digits are appended, of which the first stands
at `offset`. -/
def readDigits (offset acc : Nat) : Bytes → Except Fault Nat
  | [] => .ok acc
  | b :: bs =>
    match Hex.value? b with
    | none => .error (.badDigit b offset)
    | some d => readDigits (offset + 1) (16 * acc + d) bs

/-- The number that a text, given as bytes, shows. -/
def ofText (text : Bytes) : Except Fault U256 :=
  let ds := Hex.trim text
  if ds.length = 0 ∨ 64 < ds.length then .error (.badLength ds.length)
  else (readDigits (text.length - ds.length) 0 ds).map ofNat

end U256

end Settlement
