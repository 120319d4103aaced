import Settlement.Layout
import Settlement.Proofs.U256
import Settlement.Proofs.Utf8

/-!
# Layouts read back

What is written in a layout is read back, whatever follows it (`Settlement.LawfulLayout`). The
only condition is that the lengths in the value are words, since a length is written in eight
bytes (`Settlement.LawfulLayout.Fits`); a value that is written in fewer bytes than there are
words meets it by itself.
-/

namespace Settlement

/-- A layout from which written values are read back. -/
class LawfulLayout (α : Type) [Layout α] where
  /-- The lengths of the texts, lists and sets inside a value are words. -/
  Fits : α → Prop
  /-- A value is read back, and reading stops at its end. -/
  read_write : ∀ a, Fits a → ∀ rest, (Layout.read : Reader α) (Layout.write a ++ rest)
    = .ok (a, rest)
  /-- In a value of less than a word of bytes, every length is a word. -/
  fits_of_length_lt : ∀ a, (Layout.write a).length < UInt64.size → Fits a
  /-- No value is written in no bytes. -/
  length_pos : ∀ a : α, 0 < (Layout.write a).length

export LawfulLayout (Fits)

/-! ### Readers -/

namespace Reader

variable {α : Type}

theorem take_append {n : Nat} {bs : Bytes} (rest : Bytes) (h : bs.length = n) :
    take n (bs ++ rest) = .ok (bs, rest) := by
  subst h
  simp [take]

/-- A number is read back if its width has room for it. -/
theorem number_little {width n : Nat} (rest : Bytes) (h : n < Bytes.capacity width) :
    number width (Bytes.little width n ++ rest) = .ok (n, rest) := by
  rw [number, Reader.map, take_append rest (Bytes.length_little width n)]
  simp only [Except.map, Bytes.toNatLittle_little, Nat.mod_eq_of_lt h]

/-- A text is read back if its length is a word. -/
theorem text_append (s : String) (rest : Bytes) (h : (Bytes.ofText s).length < UInt64.size) :
    text (Bytes.little 8 (Bytes.ofText s).length ++ Bytes.ofText s ++ rest) = .ok (s, rest) := by
  rw [text, List.append_assoc, number_little _ h]
  simp [Utf8.decode_ofText]

theorem times_append [Layout α] [LawfulLayout α] (as : List α) (h : ∀ a ∈ as, Fits a)
    (rest : Bytes) :
    times Layout.read as.length (as.flatMap Layout.write ++ rest) = .ok (as, rest) := by
  induction as with
  | nil => rfl
  | cons a as ih =>
    rw [List.flatMap_cons, List.append_assoc, List.length_cons, times, andThen,
      LawfulLayout.read_write a (h a List.mem_cons_self)]
    simp only [Reader.map, ih fun b hb => h b (List.mem_cons_of_mem a hb), Except.map]

end Reader

namespace LawfulLayout

variable {α β : Type}

/-! ### Layouts from others -/

/-- A type that is written as another one is read back if that one is. -/
@[reducible]
def via [Layout β] [LawfulLayout β] (forth : α → β) (back : β → α)
    (h : ∀ a, back (forth a) = a) : @LawfulLayout α (.via forth back) :=
  letI : Layout α := .via forth back
  { Fits := fun a => Fits (forth a)
    read_write := fun a ha rest => by
      change Reader.map back Layout.read (Layout.write (forth a) ++ rest) = _
      rw [Reader.map, read_write (forth a) ha rest]
      simp only [Except.map, h]
    fits_of_length_lt := fun a => fits_of_length_lt (forth a)
    length_pos := fun a => length_pos (forth a) }

/-- A record is read back if the tuple of its fields is. -/
@[reducible]
def ofFields [Fields α β] [Layout β] [LawfulLayout β] : @LawfulLayout α .ofFields :=
  via Fields.split Fields.join Fields.join_split

/-- A type whose values are all listed is read back. -/
@[reducible]
def ofAlternatives [DecidableEq α] (all : List α) (complete : ∀ a, a ∈ all)
    (few : all.length ≤ Bytes.capacity 4) : @LawfulLayout α (.ofAlternatives all) :=
  letI : Layout α := .ofAlternatives all
  { Fits := fun _ => True
    read_write := fun a _ rest => by
      have hlt : all.idxOf a < all.length := List.idxOf_lt_length_iff.2 (complete a)
      have hnumber : Reader.number 4 (Layout.write a ++ rest) = .ok (all.idxOf a, rest) :=
        Reader.number_little rest (Nat.lt_of_lt_of_le hlt few)
      simp only [Layout.read, hnumber, List.getElem?_eq_getElem hlt, List.getElem_idxOf]
    fits_of_length_lt := fun _ _ => trivial
    length_pos := fun a => by
      change 0 < (Bytes.little 4 (all.idxOf a)).length
      rw [Bytes.length_little]
      decide }

end LawfulLayout

/-! ### Numbers, flags and texts -/

instance : LawfulLayout UInt8 where
  Fits _ := True
  read_write _ _ _ := rfl
  fits_of_length_lt _ _ := trivial
  length_pos _ := Nat.one_pos

instance : LawfulLayout UInt64 where
  Fits _ := True
  read_write n _ rest := by
    change Reader.map _ (Reader.number 8) (Bytes.little 8 n.toNat ++ rest) = _
    rw [Reader.map, Reader.number_little rest n.toNat_lt]
    simp only [Except.map, UInt64.ofNat_toNat]
  fits_of_length_lt _ _ := trivial
  length_pos n := by
    change 0 < (Bytes.little 8 n.toNat).length
    rw [Bytes.length_little]
    decide

instance : LawfulLayout Int64 :=
  .via Int64.toUInt64 UInt64.toInt64 fun _ => rfl

instance : LawfulLayout Bool where
  Fits _ := True
  read_write b _ _ := by cases b <;> rfl
  fits_of_length_lt _ _ := trivial
  length_pos _ := Nat.one_pos

instance : LawfulLayout String where
  Fits s := (Bytes.ofText s).length < UInt64.size
  read_write s h rest := Reader.text_append s rest h
  fits_of_length_lt s h := by
    change (Bytes.little 8 (Bytes.ofText s).length ++ Bytes.ofText s).length < _ at h
    rw [List.length_append] at h
    omega
  length_pos s := by
    change 0 < (Bytes.little 8 (Bytes.ofText s).length ++ Bytes.ofText s).length
    rw [List.length_append, Bytes.length_little]
    omega

/-- The text of a number has at most sixty-six bytes. -/
theorem U256.fits_toHex (x : U256) : Fits x.toHex := by
  have hlen : 0 < (digitBytes 64 x.toNat).length ∧ (digitBytes 64 x.toNat).length ≤ 64 :=
    length_digitBytes 63 x.toNat
  change (Bytes.ofText x.toHex).length < UInt64.size
  rw [ofText_bytes_toHex, List.length_cons, List.length_cons]
  have : 66 < UInt64.size := by decide
  omega

instance : LawfulLayout U256 where
  Fits _ := True
  read_write x _ rest := by
    change Reader.andThen Reader.text _ (Layout.write x.toHex ++ rest) = _
    have htext : Reader.text (Layout.write x.toHex ++ rest) = .ok (x.toHex, rest) :=
      LawfulLayout.read_write x.toHex x.fits_toHex rest
    rw [Reader.andThen, htext]
    simp only [U256.ofText_toHex]
  fits_of_length_lt _ _ := trivial
  length_pos x := LawfulLayout.length_pos x.toHex

instance : LawfulLayout Digest where
  Fits _ := True
  read_write d _ rest := by
    obtain ⟨bs, hbs⟩ := d
    change (if h : 32 ≤ (bs ++ rest).length then
      Except.ok (Digest.mk ((bs ++ rest).take 32) _, (bs ++ rest).drop 32) else _) = _
    rw [dif_pos (by rw [List.length_append]; omega)]
    simp only [← hbs, List.take_left, List.drop_left]
  fits_of_length_lt _ _ := trivial
  length_pos d := by
    change 0 < d.bytes.length
    rw [d.length_bytes]
    decide

instance : LawfulLayout ChainId :=
  .via ChainId.number ChainId.mk fun _ => rfl

/-! ### Options, lists and tuples -/

section Compound

variable {α β : Type} [Layout α] [LawfulLayout α] [Layout β] [LawfulLayout β]

instance : LawfulLayout (Option α) where
  Fits o := ∀ a ∈ o, Fits a
  read_write o h rest := by
    cases o with
    | none => rfl
    | some a =>
      change Reader.map some Layout.read (Layout.write a ++ rest) = _
      rw [Reader.map, LawfulLayout.read_write a (h a rfl) rest]
      rfl
  fits_of_length_lt o h := by
    rintro a rfl
    change (1 :: Layout.write a).length < _ at h
    rw [List.length_cons] at h
    exact LawfulLayout.fits_of_length_lt a (by omega)
  length_pos o := by
    cases o with
    | none => exact Nat.one_pos
    | some a => exact Nat.succ_pos _

omit [LawfulLayout α] in
theorem length_write_le_flatMap {a : α} {as : List α} (h : a ∈ as) :
    (Layout.write a).length ≤ (as.flatMap Layout.write).length := by
  obtain ⟨front, back, rfl⟩ := List.append_of_mem h
  rw [List.flatMap_append, List.flatMap_cons, List.length_append, List.length_append]
  omega

theorem length_le_flatMap (as : List α) : as.length ≤ (as.flatMap Layout.write).length := by
  induction as with
  | nil => exact Nat.le_refl _
  | cons a as ih =>
    have ha := LawfulLayout.length_pos a
    rw [List.flatMap_cons, List.length_append, List.length_cons]
    omega

instance : LawfulLayout (List α) where
  Fits as := as.length < UInt64.size ∧ ∀ a ∈ as, Fits a
  read_write as h rest := by
    change Reader.andThen (Reader.number 8) _
      (Bytes.little 8 as.length ++ as.flatMap Layout.write ++ rest) = _
    rw [Reader.andThen, List.append_assoc, Reader.number_little _ h.1]
    exact Reader.times_append as h.2 rest
  fits_of_length_lt as h := by
    change (Bytes.little 8 as.length ++ as.flatMap Layout.write).length < _ at h
    rw [List.length_append] at h
    have hlen := length_le_flatMap as
    refine ⟨by omega, fun a ha => LawfulLayout.fits_of_length_lt a ?_⟩
    have := length_write_le_flatMap ha
    omega
  length_pos as := by
    change 0 < (Bytes.little 8 as.length ++ as.flatMap Layout.write).length
    rw [List.length_append, Bytes.length_little]
    omega

instance : LawfulLayout (α × β) where
  Fits x := Fits x.1 ∧ Fits x.2
  read_write x h rest := by
    change Reader.andThen Layout.read _ (Layout.write x.1 ++ Layout.write x.2 ++ rest) = _
    rw [Reader.andThen, List.append_assoc, LawfulLayout.read_write x.1 h.1]
    simp only [Reader.map, LawfulLayout.read_write x.2 h.2, Except.map]
  fits_of_length_lt x h := by
    change (Layout.write x.1 ++ Layout.write x.2).length < _ at h
    rw [List.length_append] at h
    exact ⟨LawfulLayout.fits_of_length_lt x.1 (by omega),
      LawfulLayout.fits_of_length_lt x.2 (by omega)⟩
  length_pos x := by
    have hx := LawfulLayout.length_pos x.1
    change 0 < (Layout.write x.1 ++ Layout.write x.2).length
    rw [List.length_append]
    omega

end Compound

end Settlement
