import Mathlib.Logic.Relation
import Settlement.Proofs.Bookkeeping
import Settlement.Proofs.KeySpace
import Settlement.Service

/-!
# What is removed

Trackers and ballots are there for a while only. They are stored under keys of their own, so that
removing them leaves the accounts alone. Pruning goes over the height entries, and is one removal
after another, each of a ballot or of an entry (`Settlement.Registry.removes_of_pruneBallots`);
whatever is found among the height entries has a key that starts as theirs do. No ballot is new
after it (`Settlement.Registry.prunes_pruneBallots`).
-/

namespace Settlement

variable {σ : Type} [WritableStore σ] [LawfulStore σ] {s s' : σ}

/-! ### Writes elsewhere -/

theorem Key.isBooked_folded (k : Key) : k.folded.IsBooked ↔ k.IsBooked := by
  cases k <;> rfl

theorem Key.isAccount_folded (k : Key) : k.folded.IsAccount ↔ k.IsAccount := by
  cases k <;> rfl

theorem keeps_booked_put (k : Key) (hk : ¬k.IsBooked) {v : k.folded.Value}
    (h : putRecord s k.bytes v = .ok s') : Keeps Key.IsBooked s s' := by
  refine keeps_put k (fun j hj heq => hk ?_) h
  rw [← Key.isBooked_folded, ← heq, Key.isBooked_folded]
  exact hj

theorem keeps_booked_delete (k : Key) (hk : ¬k.IsBooked)
    (h : deleteRecord s k.bytes = .ok s') : Keeps Key.IsBooked s s' := by
  refine keeps_delete (fun j hj heq => hk ?_) h
  rw [← Key.isBooked_folded, ← Key.bytes_eq_iff.1 heq, Key.isBooked_folded]
  exact hj

/-! ### Pruning -/

namespace Registry

/-- From the first store to the second the accounts stay as they are, and ballots are removed at
most. -/
def Prunes (s s' : σ) : Prop :=
  ∀ a ballots, Books s a ballots → ∃ ballots', Books s' a ballots' ∧
    ∀ index b, ballots' index = some b → ballots index = some b

theorem Prunes.of_keeps (h : Keeps Key.IsBooked s s') : Prunes s s' :=
  fun _ ballots hbooks => ⟨ballots, h.books hbooks, fun _ _ => id⟩

theorem Prunes.trans {s'' : σ} (h : Prunes s s') (h' : Prunes s' s'') : Prunes s s'' := by
  intro a ballots hbooks
  obtain ⟨ballots', hbooks', hfewer⟩ := h a ballots hbooks
  obtain ⟨ballots'', hbooks'', hfewer'⟩ := h' a ballots' hbooks'
  exact ⟨ballots'', hbooks'', fun index b hb => hfewer index b (hfewer' index b hb)⟩

theorem prunes_deleteBallot {index : Digest}
    (h : deleteRecord s (Key.ballot index).bytes = .ok s') : Prunes s s' := by
  rintro a ballots ⟨l, hl, rfl, rfl⟩
  refine ⟨_, ⟨_, hl.delete (.ballot index) h, Ledger.accounts_congr fun k hk => ?_, rfl⟩, ?_⟩
  · refine l.clear_of_ne fun heq => ?_
    rw [← Key.isAccount_folded, heq] at hk
    exact hk
  · intro index' b hb
    by_cases heq : index' = index
    · subst heq
      cases (l.clear_self _).symm.trans hb
    · exact (l.clear_of_ne fun hkey => heq (Key.ballot.inj hkey)).symm.trans hb

/-- Under a key of the height entries there is no account and no ballot. -/
theorem keeps_deleteHeightEntry {bs : Bytes} (hbs : KeyRange.ballotsByHeight.bytes <+: bs)
    (h : deleteRecord s bs = .ok s') : Keeps Key.IsBooked s s' := by
  refine keeps_delete (fun k hk heq => ?_) h
  obtain ⟨height, index, rfl⟩ := KeyRange.exists_ballotByHeight (heq ▸ hbs)
  exact hk

omit [LawfulStore σ] in
/-- One removal of a pruning: that of a ballot, or that of what is found among the height
entries. -/
inductive Removes (s s' : σ) : Prop
  | ballot {index : Digest} (h : deleteRecord s (Key.ballot index).bytes = .ok s') : Removes s s'
  | entry {bs : Bytes} (hbs : KeyRange.ballotsByHeight.bytes <+: bs)
      (h : deleteRecord s bs = .ok s') : Removes s s'

theorem Removes.prunes (h : Removes s s') : Prunes s s' := by
  cases h with
  | ballot h => exact prunes_deleteBallot h
  | entry hbs h => exact .of_keeps (keeps_deleteHeightEntry hbs h)

/-- What is true of one removal is true of several. -/
theorem prunes_of_removes (h : Relation.ReflTransGen Removes s s') : Prunes s s' := by
  induction h with
  | refl => exact .of_keeps (.refl _)
  | tail _ hremoves ih => exact ih.trans hremoves.prunes

omit [LawfulStore σ] in
/-- Going over height entries is one removal after another. -/
theorem removes_of_pruneEntries {maxHeight : UInt64} {keys : List Bytes} {pruned n : Nat}
    (hkeys : ∀ bs ∈ keys, KeyRange.ballotsByHeight.bytes <+: bs)
    (h : pruneEntries maxHeight keys pruned s = .ok (n, s')) :
    Relation.ReflTransGen Removes s s' := by
  induction keys generalizing pruned s with
  | nil =>
    cases h
    exact .refl
  | cons bs rest ih =>
    obtain ⟨hbs, hrest⟩ := List.forall_mem_cons.1 hkeys
    rw [pruneEntries] at h
    -- A key that cannot be parsed is passed over.
    split at h
    · exact ih hrest h
    rcases ite_eq_ok_iff.1 h with ⟨-, h⟩ | ⟨-, h⟩
    · cases h
      exact .refl
    obtain ⟨stored, -, h⟩ := bind_eq_ok_iff.1 h
    -- The entry of a ballot that is gone is removed, as is a decided ballot with its entry.
    split at h
    · obtain ⟨s₁, hdelete, h⟩ := bind_eq_ok_iff.1 h
      exact .head (.entry hbs (storeError_lift_eq_ok_iff.1 hdelete)) (ih hrest h)
    rcases ite_eq_ok_iff.1 h with ⟨-, h⟩ | ⟨-, h⟩
    · obtain ⟨s₁, hballot, h⟩ := bind_eq_ok_iff.1 h
      obtain ⟨s₂, hdelete, h⟩ := bind_eq_ok_iff.1 h
      exact .head (.ballot (storeError_lift_eq_ok_iff.1 hballot))
        (.head (.entry hbs (storeError_lift_eq_ok_iff.1 hdelete)) (ih hrest h))
    · exact ih hrest h

/-- **Pruning is one removal after another.** -/
theorem removes_of_pruneBallots {maxHeight : UInt64} {n : Nat}
    (h : pruneBallots s maxHeight = .ok (n, s')) : Relation.ReflTransGen Removes s s' := by
  obtain ⟨entries, hentries, h⟩ := bind_eq_ok_iff.1 h
  refine removes_of_pruneEntries (fun bs hbs => ?_) h
  obtain ⟨e, he, rfl⟩ := List.mem_map.1 hbs
  exact ((LawfulStore.mem_scan_iff (mapError_eq_ok_iff.1 hentries) e).1 he).1

/-- **Pruning leaves the accounts alone, and no ballot is new after it.** -/
theorem prunes_pruneBallots {maxHeight : UInt64} {n : Nat}
    (h : pruneBallots s maxHeight = .ok (n, s')) : Prunes s s' :=
  prunes_of_removes (removes_of_pruneBallots h)

end Registry

/-! ### Trackers -/

namespace Journal

theorem keeps_removeOutboundTracker {signingKey : String} {chainId : ChainId} {nonce : UInt64}
    (h : removeOutboundTracker s signingKey chainId nonce = .ok s') : Keeps Key.IsBooked s s' :=
  keeps_booked_delete (.outboundTracker signingKey chainId nonce) id
    (storeError_lift_settlement_eq_ok_iff.1 h)

theorem keeps_removeInboundTracker {chainId : ChainId} {txHash : String}
    (h : removeInboundTracker s chainId txHash = .ok s') : Keeps Key.IsBooked s s' :=
  keeps_booked_delete (.inboundTracker chainId txHash) id (storeError_lift_settlement_eq_ok_iff.1 h)

/-- What the deciding vote on an event does first: the event is marked, and its tracker removed. -/
theorem books_marked {a : Accounts} {ballots : Digest → Option Ballot} {m : InboundVote}
    {height : UInt64} {s₁ s₂ : σ} (h : Books s a ballots)
    (hmark : setFinalized s ⟨m.senderChain, m.inboundHash, m.eventIndex, height⟩ = .ok s₁)
    (hremove : removeInboundTracker s₁ m.senderChain m.inboundHash = .ok s₂) :
    Books s₂ (a.mark m.origin) ballots :=
  (keeps_removeInboundTracker hremove).books (books_setFinalized h hmark)

end Journal

end Settlement
