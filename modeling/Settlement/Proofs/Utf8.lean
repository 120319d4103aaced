import Settlement.Utf8

/-!
# Texts read back

The bytes of a text are read back as the text (`Settlement.Utf8.decode_ofText`), so no two texts
have the same bytes (`Settlement.Bytes.ofText_injective`). Stored records and storage keys rest
on these two facts.

A character is written in one to four bytes. The first of them decides how many follow and
between which bounds the second has to lie; the bytes after the first carry six bits each.
-/

namespace Settlement

namespace Utf8

/-! ### One byte -/

section Byte

variable {offset left : Nat} {b : UInt8} {p : Partial} (bs : Bytes)

theorem charsFrom_ascii (hb : b.toNat < 0x80) :
    charsFrom offset none (b :: bs)
      = (charsFrom (offset + 1) none bs).map (Char.ofNat b.toNat :: ·) := by
  rw [charsFrom, if_pos hb]

theorem charsFrom_start (hb : 0x80 ≤ b.toNat) (hp : start? b.toNat = some p) :
    charsFrom offset none (b :: bs) = charsFrom offset (some p) bs := by
  rw [charsFrom, if_neg (by omega), hp]

theorem charsFrom_last (hb : p.low ≤ b.toNat ∧ b.toNat ≤ p.high) (hp : p.after = 0) :
    charsFrom offset (some p) (b :: bs) = (charsFrom (offset + p.seen + 1) none bs).map
      (Char.ofNat (64 * p.value + (b.toNat - 0x80)) :: ·) := by
  obtain ⟨seen, after, low, high, value⟩ := p
  subst hp
  rw [charsFrom, if_pos hb]

theorem charsFrom_next (hb : p.low ≤ b.toNat ∧ b.toNat ≤ p.high) (hp : p.after = left + 1) :
    charsFrom offset (some p) (b :: bs) = charsFrom offset
      (some ⟨p.seen + 1, left, 0x80, 0xBF, 64 * p.value + (b.toNat - 0x80)⟩) bs := by
  obtain ⟨seen, after, low, high, value⟩ := p
  subst hp
  rw [charsFrom, if_pos hb]

end Byte

/-! ### The first byte of several -/

theorem start?_two {n : Nat} (hn : 0xC2 ≤ n ∧ n < 0xE0) :
    start? n = some ⟨1, 0, 0x80, 0xBF, n - 0xC0⟩ := by
  rw [start?, if_neg (by omega), if_pos hn.2]

/-- The first byte of three takes every second byte that neither makes the form overlong nor
spells a surrogate. -/
theorem start?_three {n m : Nat} (hn : 0xE0 ≤ n ∧ n < 0xF0)
    (hsecond : 0x80 ≤ m ∧ m ≤ 0xBF) (hlong : n = 0xE0 → 0xA0 ≤ m)
    (hsurrogate : n = 0xED → m ≤ 0x9F) :
    ∃ low high, start? n = some ⟨1, 1, low, high, n - 0xE0⟩ ∧ low ≤ m ∧ m ≤ high := by
  rw [start?, if_neg (by omega), if_neg (by omega)]
  split
  · next h => exact ⟨0xA0, 0xBF, by rw [h], hlong h, hsecond.2⟩
  · split
    · next h => exact ⟨0x80, 0x9F, by rw [h], hsecond.1, hsurrogate h⟩
    · exact ⟨0x80, 0xBF, by rw [if_pos hn.2], hsecond⟩

/-- The first byte of four takes every second byte that neither makes the form overlong nor
leads above the last character. -/
theorem start?_four {n m : Nat} (hn : 0xF0 ≤ n ∧ n ≤ 0xF4)
    (hsecond : 0x80 ≤ m ∧ m ≤ 0xBF) (hlong : n = 0xF0 → 0x90 ≤ m)
    (hlarge : n = 0xF4 → m ≤ 0x8F) :
    ∃ low high, start? n = some ⟨1, 2, low, high, n - 0xF0⟩ ∧ low ≤ m ∧ m ≤ high := by
  rw [start?, if_neg (by omega), if_neg (by omega), if_neg (by omega), if_neg (by omega),
    if_neg (by omega)]
  split
  · next h => exact ⟨0x90, 0xBF, by rw [h], hlong h, hsecond.2⟩
  · split
    · exact ⟨0x80, 0xBF, rfl, hsecond⟩
    · have h : n = 0xF4 := by omega
      exact ⟨0x80, 0x8F, by rw [if_pos h, h], hsecond.1, hlarge h⟩

/-! ### Whole characters -/

/-- A byte that is made of a number below 256 has this number. -/
theorem toNat_ofNat {n : Nat} (h : n < 256) : (UInt8.ofNat n).toNat = n :=
  Nat.mod_eq_of_lt h

/-- **The bytes of a character are read as the character**, and reading goes on after them. -/
theorem charsFrom_utf8EncodeChar (offset : Nat) (c : Char) (bs : Bytes) :
    ∃ offset', charsFrom offset none (String.utf8EncodeChar c ++ bs)
      = (charsFrom offset' none bs).map (c :: ·) := by
  have hc : Char.ofNat c.val.toNat = c := Char.ofNat_toNat c
  have hvalid : c.val.toNat < 0xd800 ∨ 0xdfff < c.val.toNat ∧ c.val.toNat < 0x110000 := c.valid
  rw [String.utf8EncodeChar]
  generalize c.val.toNat = v at hc hvalid ⊢
  have tail (n : Nat) : (UInt8.ofNat (n % 64 + 0x80)).toNat = n % 64 + 0x80 :=
    toNat_ofNat (by omega)
  -- One byte: the number itself.
  split
  · have hb : (UInt8.ofNat v).toNat = v := toNat_ofNat (by omega)
    exact ⟨offset + 1, by rw [List.singleton_append, charsFrom_ascii _ (by omega), hb, hc]⟩
  -- Two bytes: five bits in the first one.
  split
  · have hb : (UInt8.ofNat (v / 64 % 0x20 + 0xc0)).toNat = v / 64 % 0x20 + 0xc0 :=
      toNat_ofNat (by omega)
    have hstart := start?_two (n := v / 64 % 0x20 + 0xc0) (by omega)
    have hv : 64 * (v / 64 % 0x20 + 0xc0 - 0xC0) + (v % 64 + 0x80 - 0x80) = v := by omega
    refine ⟨offset + 1 + 1, ?_⟩
    rw [List.cons_append, charsFrom_start _ (by omega) (by rw [hb]; exact hstart),
      List.singleton_append, charsFrom_last _ (by simp only [tail]; omega) rfl]
    simp only [tail, hv, hc]
  -- Three bytes: four bits in the first one. The surrogates are left out by the bounds of the
  -- second one, and no character is a surrogate.
  split
  · have hb : (UInt8.ofNat (v / 4096 % 0x10 + 0xe0)).toNat = v / 4096 % 0x10 + 0xe0 :=
      toNat_ofNat (by omega)
    obtain ⟨low, high, hstart, hsecond⟩ := start?_three (n := v / 4096 % 0x10 + 0xe0)
      (m := v / 64 % 64 + 0x80) (by omega) (by omega) (by omega) (by omega)
    have hv : 64 * (64 * (v / 4096 % 0x10 + 0xe0 - 0xE0) + (v / 64 % 64 + 0x80 - 0x80))
        + (v % 64 + 0x80 - 0x80) = v := by omega
    refine ⟨offset + 2 + 1, ?_⟩
    rw [List.cons_append, charsFrom_start _ (by omega) (by rw [hb]; exact hstart),
      List.cons_append, charsFrom_next _ (by rw [tail]; exact hsecond) rfl,
      List.singleton_append, charsFrom_last _ (by simp only [tail]; omega) rfl]
    simp only [tail, hv, hc]
  -- Four bytes: three bits in the first one.
  · have hb : (UInt8.ofNat (v / 262144 % 0x08 + 0xf0)).toNat = v / 262144 % 0x08 + 0xf0 :=
      toNat_ofNat (by omega)
    obtain ⟨low, high, hstart, hsecond⟩ := start?_four (n := v / 262144 % 0x08 + 0xf0)
      (m := v / 4096 % 64 + 0x80) (by omega) (by omega) (by omega) (by omega)
    have hv : 64 * (64 * (64 * (v / 262144 % 0x08 + 0xf0 - 0xF0)
        + (v / 4096 % 64 + 0x80 - 0x80)) + (v / 64 % 64 + 0x80 - 0x80))
        + (v % 64 + 0x80 - 0x80) = v := by omega
    refine ⟨offset + 3 + 1, ?_⟩
    rw [List.cons_append, charsFrom_start _ (by omega) (by rw [hb]; exact hstart),
      List.cons_append, charsFrom_next _ (by rw [tail]; exact hsecond) rfl,
      List.cons_append, charsFrom_next _ (by simp only [tail]; omega) rfl,
      List.singleton_append, charsFrom_last _ (by simp only [tail]; omega) rfl]
    simp only [tail, hv, hc]

/-! ### Texts -/

theorem charsFrom_flatMap (offset : Nat) (cs : List Char) :
    charsFrom offset none (cs.flatMap String.utf8EncodeChar) = .ok cs := by
  induction cs generalizing offset with
  | nil => rfl
  | cons c cs ih =>
    obtain ⟨offset', h⟩ :=
      charsFrom_utf8EncodeChar offset c (cs.flatMap String.utf8EncodeChar)
    rw [List.flatMap_cons, h, ih]
    rfl

/-- **A text is read back from its bytes.** -/
theorem decode_ofText (s : String) : decode (Bytes.ofText s) = .ok s := by
  rw [decode, Bytes.ofText, charsFrom_flatMap]
  exact congrArg Except.ok (String.ofList_toList (s := s))

end Utf8

/-- Different texts have different bytes. -/
theorem Bytes.ofText_injective {s t : String} (h : ofText s = ofText t) : s = t := by
  have hs := Utf8.decode_ofText s
  rw [h, Utf8.decode_ofText] at hs
  exact (Except.ok.inj hs).symm

end Settlement
