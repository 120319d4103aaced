import Settlement.Proofs.Failure
import Settlement.Proofs.Footprint
import Settlement.Proofs.KeySpace

/-!
# Stores that read back

A store is intact (`Settlement.Intact`) if all that it holds is held under the bytes of a key, and
is a record of the type that belongs to the key. Which type that is, a reader knows from the key
that it asks for, or from the range of keys that it lists: the bytes of a key say of which family
it is.

Main statements: on an intact store no reader finds a record that does not decode, neither under a
key (`Settlement.Intact.failsWith_getRecord`) nor in a listing
(`Settlement.Intact.failsWith_scanRecords`). All that can go wrong is that the store does not
answer.
-/

namespace Settlement

/-! ### Ranges of keys -/

namespace KeyRange

/-- The type of what is listed. -/
@[reducible]
def Value : KeyRange → Type
  | .ballotsByHeight => Digest
  | .ballotsAt _ => Digest
  | .chains => Chain
  | .keyHistory => SigningKey
  | .fundMigrations => FundMigration
  | .cctxs => Cctx
  | .outboundTrackers _ _ => OutboundTracker
  | .inboundTrackers _ => InboundTracker

instance layout : (r : KeyRange) → Layout r.Value
  | .ballotsByHeight => inferInstanceAs (Layout Digest)
  | .ballotsAt _ => inferInstanceAs (Layout Digest)
  | .chains => inferInstanceAs (Layout Chain)
  | .keyHistory => inferInstanceAs (Layout SigningKey)
  | .fundMigrations => inferInstanceAs (Layout FundMigration)
  | .cctxs => inferInstanceAs (Layout Cctx)
  | .outboundTrackers _ _ => inferInstanceAs (Layout OutboundTracker)
  | .inboundTrackers _ => inferInstanceAs (Layout InboundTracker)

instance lawfulLayout : (r : KeyRange) → LawfulLayout r.Value
  | .ballotsByHeight => inferInstance
  | .ballotsAt _ => inferInstance
  | .chains => inferInstance
  | .keyHistory => inferInstance
  | .fundMigrations => inferInstance
  | .cctxs => inferInstance
  | .outboundTrackers _ _ => inferInstance
  | .inboundTrackers _ => inferInstance

variable {r : KeyRange} {k : Key}

/-- **What is under a key of a range has the type that is listed.** -/
theorem exists_encode_eq (h : r.bytes <+: k.bytes) (v : k.folded.Value) :
    ∃ w : r.Value, Record.encode w = Record.encode v := by
  have htag := tag_eq h
  cases r <;> cases k <;> first | exact ⟨v, rfl⟩ | simp [tag, Key.tag] at htag

end KeyRange

/-! ### Intact stores -/

section Intact

variable {σ : Type} [WritableStore σ] [LawfulStore σ] {s s' : σ}

/-- A record whose lengths are words can be read, unless the store does not answer. -/
theorem failsWith_getRecord_of_contents {F : StoreFault → Prop} (hσ : FaultsWith F σ) {α : Type}
    [Layout α] [LawfulLayout α] {bs : Bytes} {held : Option α}
    (hheld : contents s bs = held.map Record.encode) (hfits : ∀ v, held = some v → Fits v) :
    FailsWith (StoreError.IsFault F) (getRecord s bs : Except StoreError (Option α)) := by
  rw [getRecord]
  split
  · next fault hget => exact .error (hσ.get s bs fault hget)
  · exact .ok none
  · next record hget =>
    rw [← LawfulStore.eq_of_get hget] at hheld
    obtain ⟨v, hv, rfl⟩ := Option.map_eq_some_iff.1 hheld.symm
    rw [Record.decode_encode (hfits v hv)]
    exact .ok _

/-- All that a store holds is held under the bytes of a key, as a record of the type of the key in
less than a word of bytes. -/
def Intact (s : σ) : Prop :=
  ∀ bs held, contents s bs = some held → held.length < UInt64.size ∧
    ∃ (k : Key) (v : k.folded.Value), k.bytes = bs ∧ held = Record.encode v

namespace Intact

/-- Only the contents matter. -/
theorem congr {τ : Type} [WritableStore τ] [LawfulStore τ] {t : τ} (h : Intact s)
    (ht : contents t = contents s) : Intact t := by
  intro bs held hheld
  rw [ht] at hheld
  exact h bs held hheld

/-- In a place that is no key there is nothing. -/
theorem contents_eq_none (h : Intact s) {bs : Bytes} (hbs : ∀ k : Key, k.bytes ≠ bs) :
    contents s bs = none := by
  refine Option.eq_none_iff_forall_ne_some.2 fun held hheld => ?_
  obtain ⟨-, k, v, hk, -⟩ := h bs held hheld
  exact hbs k hk

/-- Where something has changed there is a key under which it was written. -/
theorem exists_key (h : Intact s) {W : Key → Prop} (htouches : Touches W s s') {bs : Bytes}
    (hne : contents s' bs ≠ contents s bs) : ∃ k : Key, k.bytes = bs ∧ W k := by
  by_contra hnot
  have hbs (k : Key) : k.bytes ≠ bs := fun hk =>
    have hwritten := ((htouches bs).resolve_left hne).1 k hk
    hnot ⟨k.folded, k.bytes_folded.trans hk, hwritten⟩
  have hnone := h.contents_eq_none hbs
  exact hne ((htouches.contents_eq_none hbs hnone).trans hnone.symm)

/-- What is left when something is removed reads back as before. -/
theorem delete (h : Intact s) {bs : Bytes} (hdelete : deleteRecord s bs = .ok s') : Intact s' := by
  intro bs' held hheld
  rw [contents_deleteRecord hdelete, Function.update_apply] at hheld
  split at hheld
  · cases hheld
  · exact h bs' held hheld

/-- What is held under the bytes of a key is a record of its type. -/
theorem exists_encode (h : Intact s) {k : Key} {held : Bytes}
    (hheld : contents s k.bytes = some held) :
    ∃ v : k.folded.Value, held = Record.encode v ∧ Fits v := by
  obtain ⟨hlength, j, v, hj, rfl⟩ := h _ held hheld
  obtain ⟨w, hw⟩ := Settlement.exists_encode_eq (Key.bytes_eq_iff.1 hj) v
  rw [← hw] at hlength ⊢
  exact ⟨w, rfl, Record.fits_of_length_lt hlength⟩

/-- What is held under bytes that start as those of a range is a record of the type that is
listed. -/
theorem exists_encode_of_range (h : Intact s) {r : KeyRange} {bs held : Bytes}
    (hbs : r.bytes <+: bs) (hheld : contents s bs = some held) :
    ∃ v : r.Value, held = Record.encode v ∧ Fits v := by
  obtain ⟨hlength, k, v, rfl, rfl⟩ := h _ held hheld
  obtain ⟨w, hw⟩ := KeyRange.exists_encode_eq hbs v
  rw [← hw] at hlength ⊢
  exact ⟨w, rfl, Record.fits_of_length_lt hlength⟩

/-- **A read fails only if the store does not answer.** -/
theorem failsWith_getRecord (h : Intact s) (k : Key) :
    FailsWith (fun e => e.isInternal = false)
      (getRecord s k.bytes : Except StoreError (Option k.folded.Value)) := by
  obtain ⟨o, ho, hfits⟩ : ∃ o : Option k.folded.Value,
      contents s k.bytes = o.map Record.encode ∧ ∀ v, o = some v → Fits v := by
    cases hheld : contents s k.bytes with
    | none => exact ⟨none, rfl, nofun⟩
    | some held =>
      obtain ⟨v, rfl, hfits⟩ := h.exists_encode hheld
      refine ⟨some v, rfl, ?_⟩
      rintro _ ⟨⟩
      exact hfits
  exact (failsWith_getRecord_of_contents (.any σ) ho hfits).mono fun _ =>
    StoreError.IsFault.isInternal_eq

end Intact

/-- A list of records of one type is read as a whole. -/
theorem exists_decodeAll {α : Type} [Layout α] [LawfulLayout α] {records : List Bytes}
    (h : ∀ bs ∈ records, ∃ v : α, bs = Record.encode v ∧ Fits v) :
    ∃ values : List α, decodeAll records = .ok values := by
  induction records with
  | nil => exact ⟨[], rfl⟩
  | cons bs rest ih =>
    obtain ⟨v, rfl, hfits⟩ := h bs List.mem_cons_self
    obtain ⟨values, hvalues⟩ := ih fun bs hbs => h bs (List.mem_cons_of_mem _ hbs)
    refine ⟨v :: values, ?_⟩
    rw [decodeAll, Record.decode_encode hfits, hvalues]
    rfl

/-- **A listing fails only if the store does not answer.** -/
theorem Intact.failsWith_scanRecords (h : Intact s) (r : KeyRange) :
    FailsWith (fun e => e.isInternal = false)
      (scanRecords s r.bytes : Except StoreError (List r.Value)) := by
  rw [scanRecords]
  split
  · exact .error rfl
  · next entries hscan =>
    obtain ⟨values, hvalues⟩ :
        ∃ values : List r.Value, decodeAll (entries.map Prod.snd) = .ok values := by
      refine exists_decodeAll fun bs hbs => ?_
      obtain ⟨e, he, rfl⟩ := List.mem_map.1 hbs
      obtain ⟨hstem, hheld⟩ := (LawfulStore.mem_scan_iff hscan e).1 he
      exact h.exists_encode_of_range hstem hheld
    rw [hvalues]
    exact .ok values

omit [LawfulStore σ] in
/-- Whether there is something under a key is told without a look at it. -/
theorem failsWith_containsKey (s : σ) (bs : Bytes) :
    FailsWith (fun e => e.isInternal = false) (containsKey s bs) :=
  .mapError_of_forall _ fun _ => rfl

end Intact

end Settlement
