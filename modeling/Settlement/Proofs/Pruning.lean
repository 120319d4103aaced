import Settlement.Proofs.HeightIndex
import Settlement.Proofs.Quorum

/-!
# How long ballots are kept

Pruning goes by the height at which a ballot was created, not by the height at which it was decided.
So a ballot is kept until the configured number of blocks has passed since its creation, and for
as long as it is undecided.

Main statement: `Settlement.Reachable.ballots_retained`. A ballot that took long to be decided may
go in the block in which it was decided (`Settlement.Sample.pruned_when_decided`).
-/

namespace Settlement

section Runs

variable {γ : Type} [Gateway γ] {service : Service} {w : World γ}

/-- Pruning leaves a ballot as it is, or removes it: then it is decided, and was created up to the
height before which ballots are not kept. -/
theorem Reachable.ballot?_of_pruned (hreach : Reachable service w) {index : Digest} {b : Ballot}
    (hstored : Registry.ballot? w.store.restored index = .ok (some b)) (height : UInt64) :
    let after := (service.execute w (.pruneBallots height)).world
    Registry.ballot? after.store.restored index = .ok (some b) ∨
      Registry.ballot? after.store.restored index = .ok none ∧ b.isFinalized = true ∧
        service.observers.retentionBlocks ≠ 0 ∧ service.observers.retentionBlocks ≤ height ∧
        b.creationHeight ≤ height - service.observers.retentionBlocks := by
  intro after
  have hsound := hreach.sound
  rw [hsound.ballot?_eq, Except.ok.injEq] at hstored
  obtain ⟨l', hl', hdropped⟩ := service.drops_of_execute hsound.records hsound.legible
    hreach.intact hreach.heightIndexed height
  have hread (hlegible : l'.Legible) :
      Registry.ballot? after.store.restored index = .ok (l' (.ballot index)) :=
    storeError_lift_eq_ok_iff.2 (getRecord_restored hl' hlegible (.ballot index))
  rcases hdropped with rfl | ⟨hpruned, hreached, hdrops⟩
  · exact .inl ((hread hsound.legible).trans (congrArg Except.ok hstored))
  · rw [hread (Ledger.legible_of_drops hsound.legible hdrops)]
    rcases Ledger.ballot_eq_or_of_drops hdrops index with hsame | ⟨hnone, b', hb', hdecided, hold⟩
    · exact .inl (congrArg Except.ok (hsame.trans hstored))
    · cases hstored.symm.trans hb'
      exact .inr ⟨congrArg Except.ok hnone, hdecided, hpruned, hreached, hold⟩

/-- **Ballots are kept for the configured number of blocks after their creation.** In a world to
which calls on an empty store lead, pruning at any height leaves a stored ballot as it is or removes
it. It removes only a decided ballot, and only if ballots are pruned at all and their blocks have
passed since the ballot was created. In particular a ballot that was decided before they had passed
is not removed in the block of its decision. -/
theorem Reachable.ballots_retained (hreach : Reachable service w) {index : Digest} {b : Ballot}
    (hstored : Registry.ballot? w.store.restored index = .ok (some b)) :
    (∀ height,
      let blocks := service.observers.retentionBlocks
      let after := (service.execute w (.pruneBallots height)).world
      Registry.ballot? after.store.restored index = .ok (some b) ∨
        Registry.ballot? after.store.restored index = .ok none ∧ b.isFinalized = true ∧
          blocks ≠ 0 ∧ b.creationHeight.toNat + blocks.toNat ≤ height.toNat) ∧
    ∀ decided, b.finalizedHeight = some decided →
      decided.toNat < b.creationHeight.toNat + service.observers.retentionBlocks.toNat →
      Registry.ballot? (service.execute w (.pruneBallots decided)).world.store.restored index
        = .ok (some b) := by
  -- The blocks are counted in numbers, which do not overflow.
  have hpassed {height : UInt64} (hreached : service.observers.retentionBlocks ≤ height)
      (hold : b.creationHeight ≤ height - service.observers.retentionBlocks) :
      b.creationHeight.toNat + service.observers.retentionBlocks.toNat ≤ height.toNat := by
    have hsub := UInt64.toNat_sub_of_le _ _ hreached
    rw [UInt64.le_iff_toNat_le] at hold hreached
    omega
  constructor
  · intro height blocks after
    exact (hreach.ballot?_of_pruned hstored height).imp_right
      fun ⟨hnone, hdecided, hpruned, hreached, hold⟩ =>
        ⟨hnone, hdecided, hpruned, hpassed hreached hold⟩
  · intro decided _ hearly
    exact (hreach.ballot?_of_pruned hstored decided).resolve_right
      fun ⟨_, _, _, hreached, hold⟩ => by have := hpassed hreached hold; omega

end Runs

/-! ### A slow ballot -/

namespace Sample

/-- A service that keeps ballots for two blocks, the shortest time but never to prune. -/
def briefService : Service :=
  { service with
    observers := { service.observers with retentionBlocks := 2 }
    observers_valid := rfl }

/-- Two observers have to agree, and the second one votes two blocks after the first. -/
def slowCalls : List Call := [
  .setObserverSet [⟨"a"⟩, ⟨"b"⟩],
  .registerChain ⟨chainId, "external", .evm⟩ (.ofThreshold chainId 100),
  pollVote chainId "a" .yes 1,
  pollVote chainId "b" .yes 3]

/-- The world in which the ballot is decided. -/
def slowWorld : World ScriptedGateway :=
  briefService.after start slowCalls

/-- The ballot after the second vote. -/
def slowBallot : Ballot :=
  ⟨poll, chainId, .inbound, [⟨⟨"a"⟩, .yes⟩, ⟨⟨"b"⟩, .yes⟩], .success, 1, some 3⟩

theorem evaluation_of_slow :
    (∀ t ∈ briefService.turnsOf start slowCalls,
      (briefService.execute t.world t.call).world.store.Addressable) ∧
    Registry.ballot? slowWorld.store.restored poll = .ok (some slowBallot) ∧
    Registry.ballot? (briefService.execute slowWorld (.pruneBallots 3)).world.store.restored poll
      = .ok none := by
  decide +kernel

theorem reachable_slow : Reachable briefService slowWorld :=
  ⟨start, _, rfl, Run.start.calls slowCalls evaluation_of_slow.1⟩

/-- The ballot may be pruned at the height at which it was decided, but not before. -/
theorem slowBallot_kept :
    Registry.ballot? slowWorld.store.restored poll = .ok (some slowBallot) ∧
    Registry.ballot? (briefService.execute slowWorld (.pruneBallots 2)).world.store.restored poll
      = .ok (some slowBallot) := by
  have hstored := evaluation_of_slow.2.1
  refine ⟨hstored, ((Reachable.ballots_retained reachable_slow hstored).1 2).resolve_right ?_⟩
  rintro ⟨-, -, -, hpassed⟩
  exact absurd hpassed (by decide)

/-- **A ballot may be pruned in the block in which it was decided**, although ballots are kept for
two blocks. -/
theorem pruned_when_decided : briefService.observers.validate = .ok () ∧
    briefService.observers.retentionBlocks = 2 ∧ ∃ w : World ScriptedGateway,
      Reachable briefService w ∧
      Registry.ballot? w.store.restored poll = .ok (some slowBallot) ∧
      slowBallot.isFinalized = true ∧ slowBallot.finalizedHeight = some 3 ∧
      Registry.ballot? (briefService.execute w (.pruneBallots 3)).world.store.restored poll
        = .ok none :=
  ⟨rfl, rfl, slowWorld, reachable_slow, evaluation_of_slow.2.1, rfl, rfl, evaluation_of_slow.2.2⟩

end Sample

end Settlement
