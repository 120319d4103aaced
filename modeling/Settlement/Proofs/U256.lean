import Mathlib.Algebra.Group.Nat.Defs
import Settlement.U256

/-!
# Numbers read back from their text

The text under which a number of 256 bits is stored is read back as the number
(`Settlement.U256.ofText_toHex`).
-/

namespace Settlement

namespace U256

/-- The digits of a number, as bytes of text. -/
def digitBytes (places n : Nat) : Bytes :=
  (digits places n).flatMap String.utf8EncodeChar

/-- The last digit is the remainder by sixteen, and the digits before it are those of the
quotient. -/
theorem digitBytes_succ (places n : Nat) :
    digitBytes (places + 1) n = (if n < 16 then [] else digitBytes places (n / 16))
      ++ [UInt8.ofNat (Hex.digit (n % 16)).toNat] := by
  have hdigit := (Hex.value?_digit (n % 16) (Nat.mod_lt _ (by decide))).1
  rw [digitBytes, digits]
  split
  · next h => rw [Nat.mod_eq_of_lt h] at hdigit ⊢; simp [hdigit]
  · simp [digitBytes, hdigit]

theorem length_digitBytes (places n : Nat) :
    0 < (digitBytes (places + 1) n).length ∧ (digitBytes (places + 1) n).length ≤ places + 1 := by
  induction places generalizing n with
  | zero => rw [digitBytes_succ]; split <;> simp [digitBytes, digits]
  | succ places ih =>
    have h := ih (n / 16)
    rw [digitBytes_succ]
    split
    · simp
    · simp
      omega

theorem readDigits_append {offset acc n : Nat} {ds : Bytes} (es : Bytes)
    (h : readDigits offset acc ds = .ok n) :
    readDigits offset acc (ds ++ es) = readDigits (offset + ds.length) n es := by
  induction ds generalizing offset acc with
  | nil => rw [readDigits] at h; cases h; rfl
  | cons d ds ih =>
    rw [readDigits] at h
    rw [List.cons_append, readDigits]
    split at h
    · cases h
    · rw [ih h, List.length_cons, Nat.add_right_comm]
      rfl

/-- **The digits of a number are read as the number**, if there are places for all of them. -/
theorem readDigits_digitBytes (offset : Nat) {places n : Nat} (h : n < 16 ^ places) :
    readDigits offset 0 (digitBytes places n) = .ok n := by
  induction places generalizing n with
  | zero =>
    rw [Nat.pow_zero] at h
    obtain rfl : n = 0 := by omega
    rfl
  | succ places ih =>
    rw [Nat.pow_succ] at h
    have hvalue := (Hex.value?_digit (n % 16) (Nat.mod_lt _ (by decide))).2
    -- The digits before the last one spell the quotient; there are none if it is zero.
    have hread : readDigits offset 0 (if n < 16 then [] else digitBytes places (n / 16))
        = .ok (n / 16) := by
      split
      · next hn => rw [Nat.div_eq_of_lt hn]; rfl
      · exact ih (by omega)
    rw [digitBytes_succ, readDigits_append _ hread, readDigits, hvalue]
    simp only [readDigits, Nat.div_add_mod]

/-- The bytes of the text of a number: the two of `0x`, and the digits. -/
theorem ofText_bytes_toHex (x : U256) :
    Bytes.ofText x.toHex = 48 :: 120 :: digitBytes 64 x.toNat := by
  have hx : "0x".toList = ['0', 'x'] := rfl
  rw [toHex, Bytes.ofText, String.toList_append, hx, String.toList_ofList, List.flatMap_append]
  rfl

/-- **A number is read back from its text.** -/
theorem ofText_toHex (x : U256) : ofText (Bytes.ofText x.toHex) = .ok x := by
  have hlen : 0 < (digitBytes 64 x.toNat).length ∧ (digitBytes 64 x.toNat).length ≤ 64 :=
    length_digitBytes 63 x.toNat
  have hread (offset : Nat) : readDigits offset 0 (digitBytes 64 x.toNat) = .ok x.toNat :=
    readDigits_digitBytes offset (Nat.lt_of_lt_of_eq x.toNat_lt (by decide))
  have hx : ofNat x.toNat = x := U256.ext (Nat.mod_eq_of_lt x.toNat_lt)
  rw [ofText_bytes_toHex, ofText, Hex.trim]
  simp only [hread]
  rw [if_neg (by omega)]
  exact congrArg Except.ok hx

end U256

end Settlement
