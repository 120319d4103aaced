import Mathlib.Data.List.Basic
import Settlement.Hex

/-!
# What hexadecimal text is read as

A text spells a byte string if it is the text of the byte string up to the case of its digits
(`Settlement.Hex.Spells`). Reading gives a byte string exactly if the text spells it
(`Settlement.Hex.decode_eq_ok_iff`), and that happens exactly if the text consists of an even
number of digits (`Settlement.Hex.exists_spells_iff`). Neither condition mentions the reader.
-/

namespace Settlement

namespace Hex

/-! ### Digits of either case -/

/-- The bytes of the digits `0` to `9`, `a` to `f` and `A` to `F`. -/
def IsDigit (b : UInt8) : Prop :=
  (48 ≤ b ∧ b ≤ 57) ∨ (97 ≤ b ∧ b ≤ 102) ∨ (65 ≤ b ∧ b ≤ 70)

instance : DecidablePred IsDigit := fun _ => inferInstanceAs (Decidable (_ ∨ _))

/-- A byte of text, where a capital digit is made a small one. -/
def lower (b : UInt8) : UInt8 :=
  if 65 ≤ b ∧ b ≤ 70 then b + 32 else b

theorem forall_byte {P : UInt8 → Prop} (h : ∀ n < 256, P (UInt8.ofNat n)) (b : UInt8) : P b := by
  rw [← UInt8.ofNat_toNat (x := b)]
  exact h b.toNat b.toNat_lt

/-- A byte stands for a number if, made small, it is the digit of the number. -/
theorem value?_eq_some_iff {b : UInt8} {n : Nat} :
    value? b = some n ↔ n < 16 ∧ lower b = UInt8.ofNat (digit n).toNat := by
  have hread : ∀ b, ∀ n ∈ value? b, n < 16 ∧ lower b = UInt8.ofNat (digit n).toNat :=
    forall_byte (by decide +kernel)
  have hlower : ∀ b, value? (lower b) = value? b := forall_byte (by decide +kernel)
  refine ⟨hread b n, ?_⟩
  rintro ⟨hn, hb⟩
  rw [← hlower, hb]
  exact (value?_digit n hn).2

theorem isDigit_iff {b : UInt8} : IsDigit b ↔ ∃ n, value? b = some n := by
  rw [← Option.isSome_iff_exists]
  exact forall_byte (P := fun b => IsDigit b ↔ (value? b).isSome) (by decide +kernel) b

/-! ### Spelled byte strings -/

/-- A text, given as bytes, is the text of a byte string up to the case of its digits. -/
def Spells (text bs : Bytes) : Prop :=
  text.map lower = Bytes.ofText (encode bs)

theorem ofText_encode_cons (b : UInt8) (bs : Bytes) :
    Bytes.ofText (encode (b :: bs)) = UInt8.ofNat (digit (b.toNat / 16)).toNat
      :: UInt8.ofNat (digit (b.toNat % 16)).toNat :: Bytes.ofText (encode bs) := by
  have hb : b.toNat < 256 := b.toNat_lt
  simp only [Bytes.ofText, encode, String.toList_ofList, digits, List.flatMap_cons,
    (value?_digit (b.toNat / 16) (by omega)).1, (value?_digit (b.toNat % 16) (by omega)).1]
  rfl

theorem Spells.length_eq {text bs : Bytes} (h : Spells text bs) :
    text.length = 2 * bs.length := by
  rw [← List.length_map lower, h, Bytes.ofText, encode, String.toList_ofList, length_digits_bytes]

theorem Spells.even {text bs : Bytes} (h : Spells text bs) : text.length % 2 = 0 := by
  rw [h.length_eq, Nat.mul_mod_right]

theorem spells_nil_iff {bs : Bytes} : Spells [] bs ↔ bs = [] := by
  constructor
  · intro h
    have hlength : 0 = 2 * bs.length := h.length_eq
    exact List.eq_nil_of_length_eq_zero (by omega)
  · rintro rfl
    rfl

/-- Two digits spell a byte if they stand for its halves. -/
theorem spells_cons_cons_iff {high low b : UInt8} {rest bs : Bytes} :
    Spells (high :: low :: rest) (b :: bs) ↔
      value? high = some (b.toNat / 16) ∧ value? low = some (b.toNat % 16) ∧ Spells rest bs := by
  have hb : b.toNat < 256 := b.toNat_lt
  have hhigh : b.toNat / 16 < 16 := by omega
  have hlow : b.toNat % 16 < 16 := by omega
  simp only [Spells, ofText_encode_cons, List.map_cons, List.cons.injEq, value?_eq_some_iff, hhigh,
    hlow, true_and]

/-- What a text of two digits and a rest spells. -/
theorem spells_cons_iff {high low : UInt8} {rest bs : Bytes} :
    Spells (high :: low :: rest) bs ↔ ∃ h l bs', value? high = some h ∧ value? low = some l ∧
      Spells rest bs' ∧ bs = UInt8.ofNat (16 * h + l) :: bs' := by
  constructor
  · intro hspells
    cases bs with
    | nil => cases hspells
    | cons b bs =>
      obtain ⟨hhigh, hlow, hrest⟩ := spells_cons_cons_iff.1 hspells
      refine ⟨_, _, bs, hhigh, hlow, hrest, ?_⟩
      rw [Nat.div_add_mod, UInt8.ofNat_toNat]
  · rintro ⟨h, l, bs', hhigh, hlow, hrest, rfl⟩
    have hh : h < 16 := (value?_eq_some_iff.1 hhigh).1
    have hl : l < 16 := (value?_eq_some_iff.1 hlow).1
    have hbyte : (UInt8.ofNat (16 * h + l)).toNat = 16 * h + l := by
      rw [UInt8.toNat_ofNat']
      exact Nat.mod_eq_of_lt (by omega)
    rw [spells_cons_cons_iff, hbyte, hhigh, hlow]
    exact ⟨congrArg some (by omega), congrArg some (by omega), hrest⟩

/-- Which texts spell something. -/
theorem exists_spells_iff : ∀ {text : Bytes},
    (∃ bs, Spells text bs) ↔ text.length % 2 = 0 ∧ ∀ b ∈ text, IsDigit b
  | [] => ⟨fun _ => ⟨rfl, nofun⟩, fun _ => ⟨[], rfl⟩⟩
  | [_] => ⟨fun ⟨_, h⟩ => absurd h.even (by simp), fun h => absurd h.1 (by simp)⟩
  | high :: low :: rest => by
    have hlength : (high :: low :: rest).length % 2 = rest.length % 2 := by
      rw [List.length_cons, List.length_cons, Nat.add_assoc, Nat.add_mod_right]
    rw [hlength, List.forall_mem_cons, List.forall_mem_cons, isDigit_iff, isDigit_iff]
    simp only [spells_cons_iff]
    constructor
    · rintro ⟨_, h, l, bs, hhigh, hlow, hrest, -⟩
      obtain ⟨heven, hall⟩ := exists_spells_iff.1 ⟨bs, hrest⟩
      exact ⟨heven, ⟨h, hhigh⟩, ⟨l, hlow⟩, hall⟩
    · rintro ⟨heven, ⟨h, hhigh⟩, ⟨l, hlow⟩, hall⟩
      obtain ⟨bs, hrest⟩ := exists_spells_iff.2 ⟨heven, hall⟩
      exact ⟨_, h, l, bs, hhigh, hlow, hrest, rfl⟩

/-! ### Reading -/

theorem decodeFrom_cons_eq_ok_iff {offset : Nat} {high low : UInt8} {rest bs : Bytes} :
    decodeFrom offset (high :: low :: rest) = .ok bs ↔
      ∃ h l bs', value? high = some h ∧ value? low = some l ∧
        decodeFrom (offset + 2) rest = .ok bs' ∧ bs = UInt8.ofNat (16 * h + l) :: bs' := by
  rw [decodeFrom]
  cases value? high with
  | none => simp
  | some h =>
    cases value? low with
    | none => simp
    | some l => cases decodeFrom (offset + 2) rest <;> simp [Except.map, eq_comm]

theorem decodeFrom_eq_ok_iff : ∀ {offset : Nat} {text bs : Bytes},
    decodeFrom offset text = .ok bs ↔ Spells text bs
  | _, [], bs => by rw [decodeFrom, spells_nil_iff, Except.ok.injEq, eq_comm]
  | _, [_], _ => ⟨nofun, fun h => absurd h.even (by simp)⟩
  | offset, high :: low :: rest, bs => by
    rw [decodeFrom_cons_eq_ok_iff, spells_cons_iff]
    simp only [@decodeFrom_eq_ok_iff _ rest]

/-- **A text is read as the byte string that it spells**, and as nothing else. -/
theorem decode_eq_ok_iff {text bs : Bytes} : decode text = .ok bs ↔ Spells text bs := by
  rw [decode]
  split
  · next hodd =>
    constructor
    · intro h
      cases h
    · intro h
      have := h.even
      omega
  · exact decodeFrom_eq_ok_iff

/-! ### The prefix -/

theorem trim_append (rest : Bytes) : trim (Bytes.ofText "0x" ++ rest) = rest :=
  rfl

theorem trim_of_not_isPrefix {text : Bytes} (h : ¬Bytes.ofText "0x" <+: text) :
    trim text = text := by
  rw [trim.eq_def]
  split
  · next rest => exact absurd ⟨rest, rfl⟩ h
  · rfl

end Hex

end Settlement
