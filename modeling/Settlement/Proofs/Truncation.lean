import Settlement.Proofs.RoundTrip

/-!
# Records that are cut off

A reader is local (`Settlement.Reader.IsLocal`) if its answer depends only on the bytes that it
has taken: either it reports that bytes are missing, or it answers the same when more bytes
follow, and leaves these over. The readers of the parts are local and the ways of combining them
keep it, so that every layout is local (`Settlement.LocalLayout`).

Such a reader cannot find a value in what a cut leaves of a record. From the whole record it takes
every byte, so that none is left over; a value found before the cut would leave over what was cut
off. For the same reason it finds no other fault there than that bytes are missing
(`Settlement.Record.truncated`).
-/

namespace Settlement

/-- Whether a fault says that bytes are missing at the end. -/
def ReadFault.IsShort (fault : ReadFault) : Prop :=
  fault = .endOfBytes ∨ fault = .textTooLong

/-! ### Local readers -/

namespace Reader

variable {α β : Type}

/-- Either bytes are missing, or the answer is the same when more bytes follow, which are left
over. -/
def IsLocal (read : Reader α) : Prop :=
  ∀ bs more, (∃ fault, read bs = .error fault ∧ fault.IsShort) ∨
    read (bs ++ more) = (read bs).map fun (a, rest) => (a, rest ++ more)

/-- Taking nothing is local. -/
theorem isLocal_ok (a : α) : IsLocal fun bs => .ok (a, bs) :=
  fun _ _ => .inr rfl

theorem isLocal_error (fault : ReadFault) : IsLocal (fun _ => .error fault : Reader α) :=
  fun _ _ => .inr rfl

theorem IsLocal.ite {c : Prop} [Decidable c] {r s : Reader α} (hr : r.IsLocal) (hs : s.IsLocal) :
    IsLocal fun bs => if c then r bs else s bs := by
  by_cases h : c
  · simpa only [if_pos h] using hr
  · simpa only [if_neg h] using hs

theorem IsLocal.map {read : Reader α} (hread : read.IsLocal) (f : α → β) :
    (Reader.map f read).IsLocal := by
  intro bs more
  obtain ⟨fault, herror, hshort⟩ | hsame := hread bs more
  · exact .inl ⟨fault, by rw [Reader.map, herror]; rfl, hshort⟩
  · refine .inr ?_
    rw [Reader.map, Reader.map, hsame]
    cases read bs <;> rfl

/-- What the first reader leaves is where the second one starts, with or without more bytes. -/
theorem IsLocal.andThen {read : Reader α} {next : α → Reader β} (hread : read.IsLocal)
    (hnext : ∀ a, (next a).IsLocal) : (Reader.andThen read next).IsLocal := by
  intro bs more
  obtain ⟨fault, herror, hshort⟩ | hsame := hread bs more
  · exact .inl ⟨fault, by rw [Reader.andThen, herror], hshort⟩
  · rw [Reader.andThen, Reader.andThen, hsame]
    cases read bs with
    | error fault => exact .inr rfl
    | ok found =>
      obtain ⟨a, rest⟩ := found
      exact hnext a rest more

theorem isLocal_byte : byte.IsLocal := by
  intro bs more
  cases bs with
  | nil => exact .inl ⟨.endOfBytes, rfl, .inl rfl⟩
  | cons b bs => exact .inr rfl

/-- A reader of a given number of bytes: it reports if they are not all there, and otherwise its
answer depends on nothing else. -/
theorem IsLocal.of_length {read : Reader α} {n : Nat} {fault : ReadFault} (hshort : fault.IsShort)
    (hmissing : ∀ bs, bs.length < n → read bs = .error fault) (f : Bytes → Except ReadFault α)
    (hread : ∀ bs, n ≤ bs.length → read bs = (f (bs.take n)).map fun a => (a, bs.drop n)) :
    read.IsLocal := by
  intro bs more
  obtain hlt | hle := Nat.lt_or_ge bs.length n
  · exact .inl ⟨fault, hmissing bs hlt, hshort⟩
  · refine .inr ?_
    rw [hread bs hle, hread (bs ++ more) (by rw [List.length_append]; omega),
      List.take_append_of_le_length hle, List.drop_append_of_le_length hle]
    cases f (bs.take n) <;> rfl

theorem isLocal_take (n : Nat) : (take n).IsLocal :=
  .of_length (.inl rfl) (fun _ hlt => if_pos hlt) .ok fun _ hle => if_neg (Nat.not_lt.2 hle)

theorem isLocal_number (width : Nat) : (number width).IsLocal :=
  (isLocal_take width).map _

theorem isLocal_times {read : Reader α} (hread : read.IsLocal) (n : Nat) :
    (times read n).IsLocal := by
  induction n with
  | zero => exact isLocal_ok []
  | succ n ih => exact hread.andThen fun a => ih.map _

/-- Takes a text of the given number of bytes. -/
def textOf (n : Nat) : Reader String := fun bs =>
  if bs.length < n then .error .textTooLong
  else
    match Utf8.decode (bs.take n) with
    | .error fault => .error (.badText fault)
    | .ok s => .ok (s, bs.drop n)

theorem text_eq_andThen : text = (number 8).andThen textOf := by
  funext bs
  rw [text, andThen]
  cases number 8 bs <;> rfl

theorem isLocal_textOf (n : Nat) : (textOf n).IsLocal := by
  refine .of_length (.inr rfl) (fun bs hlt => if_pos hlt)
    (fun bs => (Utf8.decode bs).mapError .badText) fun bs hle => ?_
  rw [textOf, if_neg (Nat.not_lt.2 hle)]
  cases Utf8.decode (bs.take n) <;> rfl

theorem isLocal_text : text.IsLocal :=
  text_eq_andThen ▸ (isLocal_number 8).andThen isLocal_textOf

end Reader

/-! ### Local layouts -/

/-- A layout with a local reader. -/
class LocalLayout (α : Type) [Layout α] : Prop where
  /-- The reader is local. -/
  isLocal : (Layout.read : Reader α).IsLocal

namespace LocalLayout

open Reader

variable {α β : Type}

/-- A type that is read as another one is local if that one is; so are the records, which are read
as the tuples of their fields. -/
instance via [Layout β] [LocalLayout β] (forth : α → β) (back : β → α) :
    @LocalLayout α (.via forth back) :=
  letI : Layout α := .via forth back
  ⟨isLocal.map back⟩

/-- The number says which of the alternatives it is, and nothing follows. -/
instance ofAlternatives [DecidableEq α] (all : List α) : @LocalLayout α (.ofAlternatives all) := by
  have hread : (Layout.ofAlternatives all).read = (number 4).andThen fun n bs =>
      match all[n]? with
      | none => .error (.badAlternative n all.length)
      | some a => .ok (a, bs) := by
    funext bs
    simp only [Layout.read, andThen]
    cases number 4 bs <;> rfl
  refine @LocalLayout.mk α (.ofAlternatives all) (hread ▸ (isLocal_number 4).andThen fun n => ?_)
  cases all[n]? with
  | none => exact isLocal_error _
  | some a => exact isLocal_ok a

instance : LocalLayout UInt8 :=
  ⟨isLocal_byte⟩

instance : LocalLayout UInt32 :=
  ⟨(isLocal_number 4).map _⟩

instance : LocalLayout UInt64 :=
  ⟨(isLocal_number 8).map _⟩

instance : LocalLayout Bool :=
  ⟨isLocal_byte.andThen fun b =>
    .ite (isLocal_ok false) (.ite (isLocal_ok true) (isLocal_error (.badFlag b)))⟩

instance : LocalLayout String :=
  ⟨isLocal_text⟩

instance : LocalLayout U256 :=
  ⟨isLocal_text.andThen fun s => by
    cases h : U256.ofText (Bytes.ofText s) with
    | error fault => exact isLocal_error (.badNumber fault)
    | ok x => exact isLocal_ok x⟩

instance : LocalLayout Digest := by
  refine ⟨.of_length (.inl rfl) (fun bs hlt => dif_neg (Nat.not_le.2 hlt))
    (fun bs => if h : bs.length = 32 then .ok ⟨bs, h⟩ else .error .endOfBytes) fun bs hle => ?_⟩
  have hlength : (bs.take 32).length = 32 := List.length_take_of_le hle
  simp only [Layout.read, dif_pos hle, dif_pos hlength, Except.map]

section Compound

variable [Layout α] [LocalLayout α] [Layout β] [LocalLayout β]

instance : LocalLayout (Option α) :=
  ⟨isLocal_byte.andThen fun b =>
    .ite (isLocal_ok none) (.ite (isLocal.map some) (isLocal_error (.badOption b)))⟩

/-- A list whose announced elements are not all there is reported, however many are missing. -/
instance : LocalLayout (List α) :=
  ⟨(isLocal_number 8).andThen (isLocal_times isLocal)⟩

instance : LocalLayout (α × β) :=
  ⟨isLocal.andThen fun a => isLocal.map (a, ·)⟩

end Compound

/-- The number of the alternative says which fields follow. -/
theorem isLocal_readFields (number : Nat) : (Event.readFields number).IsLocal := by
  unfold Event.readFields
  split <;> first | exact isLocal.map _ | exact isLocal_error _

instance : LocalLayout Event :=
  ⟨(isLocal_number 4).andThen isLocal_readFields⟩

/-- Every type of records is local. -/
theorem of_recordType (t : RecordType) : LocalLayout t.Value := by
  induction t with
  | option t ih => exact inferInstanceAs (LocalLayout (Option t.Value))
  | list t ih => exact inferInstanceAs (LocalLayout (List t.Value))
  | pair t u iht ihu => exact inferInstanceAs (LocalLayout (t.Value × u.Value))
  | _ => infer_instance

end LocalLayout

/-! ### Cut records -/

namespace Record

/-- What is written for a value is found to lack bytes if it is cut off. -/
theorem read_of_append_eq {α : Type} [Layout α] [LawfulLayout α] [LocalLayout α] {a : α}
    (ha : Fits a) {front cut : Bytes} (happend : front ++ cut = Layout.write a) (hcut : cut ≠ []) :
    ∃ fault, (Layout.read : Reader α) front = .error fault ∧ fault.IsShort := by
  obtain hshort | hsame := (LocalLayout.isLocal : (Layout.read : Reader α).IsLocal) front cut
  · exact hshort
  · -- From the whole, the value would leave over what is cut off, and a fault would stay one.
    have hwhole := LawfulLayout.read_write a ha []
    rw [List.append_nil, ← happend, hsame] at hwhole
    cases hread : (Layout.read : Reader α) front with
    | error fault => rw [hread] at hwhole; cases hwhole
    | ok found =>
      rw [hread] at hwhole
      have hrest : found.2 ++ cut = [] := congrArg Prod.snd (Except.ok.inj hwhole)
      exact absurd (List.append_eq_nil_iff.1 hrest).2 hcut

/-- **A record that is cut off is reported.** Of the record of a value of any type, let the bytes
from some place on be missing. If nothing is left of it, then it is reported as empty; otherwise
it is reported that bytes are missing. It is never read as a value. -/
theorem truncated (t : RecordType) (v : t.Value) (hv : Fits v) (front : Bytes)
    (hfront : front <+: encode v) (hne : front ≠ encode v) :
    (front = [] → decode front = (.error .empty : Except RecordError t.Value)) ∧
    (front ≠ [] → ∃ fault, fault.IsShort ∧
      decode front = (.error (.unreadable fault) : Except RecordError t.Value)) := by
  refine ⟨fun h => by rw [h, decode], fun h => ?_⟩
  obtain ⟨cut, happend⟩ := hfront
  have hcut : cut ≠ [] := by
    rintro rfl
    exact hne (by rw [← happend, List.append_nil])
  cases front with
  | nil => exact absurd rfl h
  | cons b front =>
    rw [encode, List.cons_append, List.cons.injEq] at happend
    obtain ⟨rfl, happend⟩ := happend
    have := LocalLayout.of_recordType t
    obtain ⟨fault, herror, hshort⟩ := read_of_append_eq hv happend hcut
    exact ⟨fault, hshort, by rw [decode, if_pos rfl, herror]⟩

end Record

namespace Sample

/-- A tracker that lacks its last byte is reported: two hashes are announced, and the second one
is not all there. -/
theorem tracker_without_last_byte :
    ∃ fault, fault.IsShort ∧ Record.decode (Record.encode tracker).dropLast
      = (.error (.unreadable fault) : Except RecordError OutboundTracker) :=
  (Record.truncated .outboundTracker tracker (Record.fits_of_length_lt (by decide)) _
    (List.dropLast_prefix _) (by decide)).2 (by decide)

end Sample

end Settlement
