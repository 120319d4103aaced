import Mathlib.Data.List.Nodup
import Settlement.Proofs.Key
import Settlement.Proofs.Record
import Settlement.Proofs.Store
import Settlement.Registry.Governance
import Settlement.Registry.Nonces

/-!
# The ledger

A store holds bytes under bytes. The ledger is the same with types: under every key there is a
value of the type that belongs to the family of the key (`Settlement.Key.Value`), or nothing. A
store *records* a ledger (`Settlement.Records`) if under the bytes of every key it holds the
record of the value. Reads and writes of the store are then reads and updates of the ledger, and
nothing that follows has to speak of bytes again.

A record is only read back if the lengths in it are words. No store holds more than a word of
bytes under a key, nor more than a word of entries (`Settlement.Backend.Addressable`), since it
could not address them; that is all that is asked of the committed store.

Main statements: what is read (`Settlement.getRecord_of_records`), what a write leaves
(`Settlement.Records.put`, `Settlement.Records.delete`), and that the ledger can be read off an
addressable store (`Settlement.Records.ledger_eq`).
-/

namespace Settlement

/-! ### Values -/

/-- The type of what is stored under a key. -/
@[reducible]
def Key.Value : Key → Type
  | .ballot _ => Ballot
  | .ballotByHeight _ _ => Digest
  | .observerSet => ObserverSet
  | .chain _ => Chain
  | .chainParams _ => ChainParams
  | .switches => Switches
  | .currentKey => SigningKey
  | .keyHistory _ _ => SigningKey
  | .nonces _ _ => NonceRecord
  | .nonceOwner _ _ _ => NonceOwner
  | .fundMigration _ => FundMigration
  | .cctx _ => Cctx
  | .outboundTracker _ _ _ => OutboundTracker
  | .inboundTracker _ _ => InboundTracker
  | .finalizedInbound _ _ _ => FinalizedInbound

instance Key.layout : (k : Key) → Layout k.Value
  | .ballot _ => inferInstanceAs (Layout Ballot)
  | .ballotByHeight _ _ => inferInstanceAs (Layout Digest)
  | .observerSet => inferInstanceAs (Layout ObserverSet)
  | .chain _ => inferInstanceAs (Layout Chain)
  | .chainParams _ => inferInstanceAs (Layout ChainParams)
  | .switches => inferInstanceAs (Layout Switches)
  | .currentKey => inferInstanceAs (Layout SigningKey)
  | .keyHistory _ _ => inferInstanceAs (Layout SigningKey)
  | .nonces _ _ => inferInstanceAs (Layout NonceRecord)
  | .nonceOwner _ _ _ => inferInstanceAs (Layout NonceOwner)
  | .fundMigration _ => inferInstanceAs (Layout FundMigration)
  | .cctx _ => inferInstanceAs (Layout Cctx)
  | .outboundTracker _ _ _ => inferInstanceAs (Layout OutboundTracker)
  | .inboundTracker _ _ => inferInstanceAs (Layout InboundTracker)
  | .finalizedInbound _ _ _ => inferInstanceAs (Layout FinalizedInbound)

instance Key.lawfulLayout : (k : Key) → LawfulLayout k.Value
  | .ballot _ => inferInstanceAs (LawfulLayout Ballot)
  | .ballotByHeight _ _ => inferInstanceAs (LawfulLayout Digest)
  | .observerSet => inferInstanceAs (LawfulLayout ObserverSet)
  | .chain _ => inferInstanceAs (LawfulLayout Chain)
  | .chainParams _ => inferInstanceAs (LawfulLayout ChainParams)
  | .switches => inferInstanceAs (LawfulLayout Switches)
  | .currentKey => inferInstanceAs (LawfulLayout SigningKey)
  | .keyHistory _ _ => inferInstanceAs (LawfulLayout SigningKey)
  | .nonces _ _ => inferInstanceAs (LawfulLayout NonceRecord)
  | .nonceOwner _ _ _ => inferInstanceAs (LawfulLayout NonceOwner)
  | .fundMigration _ => inferInstanceAs (LawfulLayout FundMigration)
  | .cctx _ => inferInstanceAs (LawfulLayout Cctx)
  | .outboundTracker _ _ _ => inferInstanceAs (LawfulLayout OutboundTracker)
  | .inboundTracker _ _ => inferInstanceAs (LawfulLayout InboundTracker)
  | .finalizedInbound _ _ _ => inferInstanceAs (LawfulLayout FinalizedInbound)

/-- What is stored under every key. Only the folded keys count
(`Settlement.Key.folded`). -/
abbrev Ledger : Type :=
  (k : Key) → Option k.Value

namespace Ledger

/-- The ledger without a value. -/
def empty : Ledger := fun _ => none

/-- The ledger with a value under a key. -/
def set (l : Ledger) (k : Key) (v : k.Value) : Ledger :=
  Function.update l k (some v)

/-- The ledger without the value under a key. -/
def clear (l : Ledger) (k : Key) : Ledger :=
  Function.update l k none

@[simp]
theorem set_self (l : Ledger) (k : Key) (v : k.Value) : l.set k v k = some v :=
  Function.update_self _ _ _

theorem set_of_ne (l : Ledger) {k j : Key} (v : k.Value) (h : j ≠ k) : l.set k v j = l j :=
  Function.update_of_ne h _ _

@[simp]
theorem clear_self (l : Ledger) (k : Key) : l.clear k k = none :=
  Function.update_self _ _ _

theorem clear_of_ne (l : Ledger) {k j : Key} (h : j ≠ k) : l.clear k j = l j :=
  Function.update_of_ne h _ _

/-- Every record of the ledger has less than a word of bytes. -/
def Legible (l : Ledger) : Prop :=
  ∀ (k : Key) (v : k.folded.Value), l k.folded = some v → (Record.encode v).length < UInt64.size

theorem Legible.fits {l : Ledger} (h : l.Legible) (k : Key) (v : k.folded.Value)
    (hv : l k.folded = some v) : Fits v :=
  Record.fits_of_length_lt (h k v hv)

end Ledger

/-! ### Records of a ledger -/

section Records

variable {σ : Type} [WritableStore σ] [LawfulStore σ] {s s' : σ} {l : Ledger}

/-- Under the bytes of every key the store holds the record of what the ledger has there. -/
def Records (s : σ) (l : Ledger) : Prop :=
  ∀ k : Key, contents s k.bytes = (l k.folded).map Record.encode

/-- What is read is the value whose record is held, if its lengths are words. -/
theorem getRecord_of_contents {α : Type} [Layout α] [LawfulLayout α] {bs : Bytes}
    {held value : Option α} (hheld : contents s bs = held.map Record.encode)
    (hfits : ∀ v, held = some v → Fits v) (hget : getRecord s bs = .ok value) : value = held := by
  rw [getRecord] at hget
  split at hget
  · cases hget
  · next hnone =>
    rw [← LawfulStore.eq_of_get hnone] at hheld
    cases hget
    exact (Option.map_eq_none_iff.1 hheld.symm).symm
  · next bs hsome =>
    rw [← LawfulStore.eq_of_get hsome] at hheld
    obtain ⟨v, hv, rfl⟩ := Option.map_eq_some_iff.1 hheld.symm
    rw [Record.decode_encode (hfits v hv)] at hget
    cases hget
    exact hv.symm

/-- What is read is what bytes that are held decode to. -/
theorem exists_of_getRecord {α : Type} [Layout α] {bs : Bytes} {v : α}
    (hget : getRecord s bs = .ok (some v)) :
    ∃ held, contents s bs = some held ∧ Record.decode held = .ok v := by
  rw [getRecord] at hget
  split at hget
  · cases hget
  · cases hget
  · next held hsome =>
    split at hget
    · cases hget
    · next hdecode =>
      cases hget
      exact ⟨held, (LawfulStore.eq_of_get hsome).symm, hdecode⟩

/-- **What is read is what the ledger has**, if its lengths are words. -/
theorem getRecord_of_records (h : Records s l) (k : Key)
    (hfits : ∀ v, l k.folded = some v → Fits v) {value : Option k.folded.Value}
    (hget : getRecord s k.bytes = .ok value) : value = l k.folded :=
  getRecord_of_contents (h k) hfits hget

/-- The value whose record is held can be read, as soon as the store answers and its lengths are
words. -/
theorem getRecord_eq_of_contents {α : Type} [Layout α] [LawfulLayout α] {bs : Bytes}
    {held : Option α} (hheld : contents s bs = held.map Record.encode)
    (hfits : ∀ v, held = some v → Fits v) (hget : ReadableStore.get s bs = .ok (contents s bs)) :
    getRecord s bs = .ok held := by
  rw [getRecord, hget, hheld]
  cases hv : held with
  | none => rfl
  | some v =>
    rw [Option.map_some]
    simp only [Record.decode_encode (hfits v hv)]

/-- **What the ledger has can be read**, as soon as the store answers and the lengths are
words. -/
theorem getRecord_eq_of_records (h : Records s l) (k : Key)
    (hfits : ∀ v, l k.folded = some v → Fits v)
    (hget : ReadableStore.get s k.bytes = .ok (contents s k.bytes)) :
    getRecord s k.bytes = .ok (l k.folded) :=
  getRecord_eq_of_contents (h k) hfits hget

/-- Whether there is something under a key is asked of the ledger as well. -/
theorem containsKey_of_records (h : Records s l) (k : Key) {found : Bool}
    (hfound : containsKey s k.bytes = .ok found) : found = (l k.folded).isSome := by
  rw [LawfulStore.eq_of_contains (mapError_eq_ok_iff.1 hfound), h k, Option.isSome_map]

/-- **A record that is put into the store is put into the ledger.** -/
theorem Records.put (h : Records s l) (k : Key) {v : k.folded.Value}
    (hput : putRecord s k.bytes v = .ok s') : Records s' (l.set k.folded v) := by
  intro j
  rw [contents_putRecord hput]
  by_cases hj : j.folded = k.folded
  · rw [Key.bytes_eq_iff.2 hj, Function.update_self, hj, Ledger.set_self]
    rfl
  · rw [Function.update_of_ne fun hb => hj (Key.bytes_eq_iff.1 hb), Ledger.set_of_ne l v hj]
    exact h j

/-- **A key that is deleted from the store is cleared in the ledger.** -/
theorem Records.delete (h : Records s l) (k : Key) (hdelete : deleteRecord s k.bytes = .ok s') :
    Records s' (l.clear k.folded) := by
  intro j
  rw [contents_deleteRecord hdelete]
  by_cases hj : j.folded = k.folded
  · rw [Key.bytes_eq_iff.2 hj, Function.update_self, hj, Ledger.clear_self]
    rfl
  · rw [Function.update_of_ne fun hb => hj (Key.bytes_eq_iff.1 hb), Ledger.clear_of_ne l hj]
    exact h j

/-- A ledger is recorded by every store with the same contents. -/
theorem Records.congr {τ : Type} [WritableStore τ] [LawfulStore τ] {t : τ} (h : Records s l)
    (ht : contents t = contents s) : Records t l := fun k => by
  rw [ht]
  exact h k

end Records

/-! ### What stays as it is -/

section Keeps

variable {σ : Type} [WritableStore σ] [LawfulStore σ] {P : Key → Prop} {s s' : σ}

/-- From the first store to the second, nothing changes under the keys of some families. -/
def Keeps (P : Key → Prop) (s s' : σ) : Prop :=
  ∀ l, Records s l → ∃ l', Records s' l' ∧ ∀ k, P k → l' k.folded = l k.folded

theorem Keeps.refl (s : σ) : Keeps P s s :=
  fun l h => ⟨l, h, fun _ _ => rfl⟩

theorem Keeps.mono {P' : Key → Prop} (h : Keeps P s s') (hP : ∀ k, P' k → P k) :
    Keeps P' s s' := by
  intro l hl
  obtain ⟨l', hl', hsame⟩ := h l hl
  exact ⟨l', hl', fun k hk => hsame k (hP k hk)⟩

theorem keeps_put (k : Key) {v : k.folded.Value} (hk : ∀ j, P j → j.folded ≠ k.folded)
    (h : putRecord s k.bytes v = .ok s') : Keeps P s s' :=
  fun l hl => ⟨l.set k.folded v, hl.put k h, fun j hj => l.set_of_ne v (hk j hj)⟩

theorem keeps_delete {bs : Bytes} (hbs : ∀ j, P j → j.bytes ≠ bs)
    (h : deleteRecord s bs = .ok s') : Keeps P s s' := by
  intro l hl
  by_cases hk : ∃ k : Key, k.bytes = bs
  · obtain ⟨k, rfl⟩ := hk
    refine ⟨l.clear k.folded, hl.delete k h, fun j hj => l.clear_of_ne fun heq => ?_⟩
    exact hbs j hj (Key.bytes_eq_iff.2 heq)
  -- Bytes that are no key of any family are nowhere in the ledger.
  · refine ⟨l, fun k => ?_, fun _ _ => rfl⟩
    rw [contents_deleteRecord h, Function.update_of_ne fun heq => hk ⟨k, heq⟩]
    exact hl k

end Keeps

/-! ### The committed store -/

namespace Backend

/-- A store whose entries, and the bytes of each of them, are fewer than there are words. -/
structure Addressable (b : Backend) : Prop where
  length_lt : b.entries.entries.length < UInt64.size
  value_lt : ∀ e ∈ b.entries.entries, e.2.length < UInt64.size

instance (b : Backend) : Decidable b.Addressable :=
  decidable_of_iff (b.entries.entries.length < UInt64.size ∧
    ∀ e ∈ b.entries.entries, e.2.length < UInt64.size)
    ⟨fun ⟨hlength, hvalue⟩ => ⟨hlength, hvalue⟩, fun h => ⟨h.length_lt, h.value_lt⟩⟩

/-- The ledger that can be read off a store. -/
def ledger (b : Backend) : Ledger := fun k =>
  (b.entries.find? k.bytes).bind fun bs => (Record.decode bs).toOption

variable {b b' : Backend} {l : Ledger}

/-- The ledger of an addressable store can be read. -/
theorem Addressable.legible (hb : b.Addressable) (h : Records b l) : l.Legible := by
  intro k v hv
  have hfound : b.entries.find? k.bytes = some (Record.encode v) := by
    rw [← Option.map_some, ← hv]
    exact h k
  exact hb.value_lt _ (ByteMap.find?_eq_some_iff.1 hfound)

/-- If under different keys there is always something, then the keys are fewer than there are
words. -/
theorem Addressable.count_lt (hb : b.Addressable) {n : Nat} {f : Nat → Key}
    (hinj : ∀ i < n, ∀ j < n, (f i).bytes = (f j).bytes → i = j)
    (hfound : ∀ i < n, (b.entries.find? (f i).bytes).isSome) : n < UInt64.size := by
  -- The keys are a list without repetitions among the entries, so it is no longer than they are.
  have hnodup : ((List.range n).map fun i => (f i).bytes).Nodup :=
    List.nodup_range.map_on fun i hi j hj h =>
      hinj i (List.mem_range.1 hi) j (List.mem_range.1 hj) h
  have hsubset : ((List.range n).map fun i => (f i).bytes) ⊆ b.entries.entries.map Prod.fst := by
    intro bs hbs
    obtain ⟨i, hi, rfl⟩ := List.mem_map.1 hbs
    obtain ⟨v, hv⟩ := Option.isSome_iff_exists.1 (hfound i (List.mem_range.1 hi))
    exact List.mem_map.2 ⟨_, ByteMap.find?_eq_some_iff.1 hv, rfl⟩
  have hle := hnodup.length_le_of_subset hsubset
  rw [List.length_map, List.length_range, List.length_map] at hle
  exact Nat.lt_of_le_of_lt hle hb.length_lt

end Backend

/-- **The ledger that an addressable store records is the one that can be read off it.** -/
theorem Records.ledger_eq {b : Backend} {l : Ledger} (h : Records b l) (hb : b.Addressable)
    (k : Key) : b.ledger k.folded = l k.folded := by
  rw [Backend.ledger, Key.bytes_folded]
  have hheld := h k
  change b.entries.find? k.bytes = _ at hheld
  rw [hheld]
  cases hv : l k.folded with
  | none => rfl
  | some v =>
    rw [Option.map_some, Option.bind_some, Record.decode_encode ((hb.legible h).fits k v hv)]
    rfl

theorem Records.ledger {b : Backend} {l : Ledger} (h : Records b l) (hb : b.Addressable) :
    Records b b.ledger := fun k => by
  rw [h.ledger_eq hb]
  exact h k

end Settlement
