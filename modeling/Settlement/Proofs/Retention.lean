import Settlement.Journal.Outbound
import Settlement.Proofs.Transitions

/-!
# What is retained of a transaction

A transition works on a transaction step by step: what was observed is entered into the attempt in
flight, the attempt is executed, a revert may be put behind it, and the state changes. Each step
retains what was fixed before (`Settlement.Cctx.Retains`): where the transaction comes from, what
its attempts pay and with which nonces, and everything about an attempt that is executed. An
attempt in flight is never executed, which is why it may be written to.

Main statement: settling an attempt retains all of this, and changes the state as states may change
(`Settlement.Journal.movesOn_of_settle`).
-/

namespace Settlement

/-! ### Attempts -/

/-- The second attempt is the first at a later time: it pays the same with the same nonce, and it is
not changed any more once it is executed. -/
structure Attempt.Retains (a b : Attempt) : Prop where
  receiver_eq : b.receiver = a.receiver
  chainId_eq : b.chainId = a.chainId
  amount_eq : b.amount = a.amount
  gasLimit_eq : b.gasLimit = a.gasLimit
  signingKey_eq : b.signingKey = a.signingKey
  nonce_eq : b.nonce = a.nonce
  eq_of_isExecuted : a.isExecuted = true → b = a

namespace Attempt

theorem Retains.refl (a : Attempt) : a.Retains a :=
  ⟨rfl, rfl, rfl, rfl, rfl, rfl, fun _ => rfl⟩

theorem Retains.trans {a b c : Attempt} (h : a.Retains b) (h' : b.Retains c) : a.Retains c := by
  refine ⟨h'.receiver_eq.trans h.receiver_eq, h'.chainId_eq.trans h.chainId_eq,
    h'.amount_eq.trans h.amount_eq, h'.gasLimit_eq.trans h.gasLimit_eq,
    h'.signingKey_eq.trans h.signingKey_eq, h'.nonce_eq.trans h.nonce_eq, fun hexecuted => ?_⟩
  obtain rfl : b = a := h.eq_of_isExecuted hexecuted
  exact h'.eq_of_isExecuted hexecuted

theorem retains_execute (a : Attempt) : a.Retains a.execute := by
  refine ⟨rfl, rfl, rfl, rfl, rfl, rfl, fun hexecuted => ?_⟩
  have hstate : a.state = .executed := eq_of_beq hexecuted
  rw [execute, ← hstate]

/-- What was observed may be entered as long as the outcome is not known. -/
theorem retains_observed {a : Attempt} (h : a.isExecuted = false) (ballot : Digest)
    (m : OutboundVote) : a.Retains (Cctx.observed m { a with ballotIndex := some ballot }) := by
  refine ⟨rfl, rfl, rfl, rfl, rfl, rfl, fun hexecuted => ?_⟩
  rw [h] at hexecuted
  cases hexecuted

end Attempt

/-! ### Transactions -/

/-- The second transaction is the first at a later time: it comes from the same, its attempts are
still there, and a revert may have been put behind the first one. -/
structure Cctx.Retains (c d : Cctx) : Prop where
  index_eq : d.index = c.index
  creator_eq : d.creator = c.creator
  relayedMessage_eq : d.relayedMessage = c.relayedMessage
  inbound_eq : d.inbound = c.inbound
  protocolVersion_eq : d.protocolVersion = c.protocolVersion
  revertOptions_eq : d.revertOptions = c.revertOptions
  createdAt_eq : d.report.createdAt = c.report.createdAt
  outbound : c.outbound.Retains d.outbound
  revert : ∀ a, c.revert = some a → ∃ b, d.revert = some b ∧ a.Retains b

/-- The second transaction is the first at a later time, in a state that may follow. -/
structure Cctx.MovesOn (c d : Cctx) : Prop extends c.Retains d where
  canBecome : c.status.canBecome d.status = true

namespace Cctx

variable {c d e : Cctx}

theorem Retains.refl (c : Cctx) : c.Retains c :=
  ⟨rfl, rfl, rfl, rfl, rfl, rfl, rfl, .refl _, fun a ha => ⟨a, ha, .refl a⟩⟩

theorem Retains.trans (h : c.Retains d) (h' : d.Retains e) : c.Retains e := by
  refine ⟨h'.index_eq.trans h.index_eq, h'.creator_eq.trans h.creator_eq,
    h'.relayedMessage_eq.trans h.relayedMessage_eq, h'.inbound_eq.trans h.inbound_eq,
    h'.protocolVersion_eq.trans h.protocolVersion_eq, h'.revertOptions_eq.trans h.revertOptions_eq,
    h'.createdAt_eq.trans h.createdAt_eq, h.outbound.trans h'.outbound, fun a ha => ?_⟩
  obtain ⟨b, hb, hab⟩ := h.revert a ha
  obtain ⟨b', hb', hbb'⟩ := h'.revert b hb
  exact ⟨b', hb', hab.trans hbb'⟩

/-- A change of state may come after changes that leave the state as it is. -/
theorem Retains.movesOn (h : c.Retains d) (hstatus : d.status = c.status) (h' : d.MovesOn e) :
    c.MovesOn e :=
  ⟨h.trans h'.toRetains, hstatus ▸ h'.canBecome⟩

/-- What is done to the attempt in flight is done to one of the slots. -/
theorem retains_updateCurrent {f : Attempt → Attempt} (h : c.current.Retains (f c.current)) :
    c.Retains (c.updateCurrent f) := by
  cases hrevert : c.revert with
  | none =>
    rw [current_eq_outbound hrevert] at h
    rw [updateCurrent, hrevert]
    exact ⟨rfl, rfl, rfl, rfl, rfl, rfl, rfl, h, by simp [hrevert]⟩
  | some r =>
    rw [current_eq_revert hrevert] at h
    rw [updateCurrent, hrevert]
    refine ⟨rfl, rfl, rfl, rfl, rfl, rfl, rfl, .refl _, fun a ha => ?_⟩
    cases hrevert.symm.trans ha
    exact ⟨_, rfl, h⟩

theorem retains_executeCurrent (c : Cctx) : c.Retains c.executeCurrent :=
  retains_updateCurrent c.current.retains_execute

end Cctx

/-! ### Steps -/

namespace Progress

variable {σ : Type} {p p₁ p' : Progress σ} {block : Block} {message : String}

theorem movesOn_of_advance {next : CctxStatus} (h : p.advance next message block = .ok p') :
    p.cctx.MovesOn p'.cctx := by
  obtain ⟨hnext, rfl⟩ := advance_eq_ok_iff.1 h
  exact ⟨⟨rfl, rfl, rfl, rfl, rfl, rfl, rfl, .refl _, fun a ha => ⟨a, ha, .refl a⟩⟩, hnext⟩

theorem movesOn_of_abort (h : p.abort message block = .ok p') : p.cctx.MovesOn p'.cctx :=
  p.cctx.retains_executeCurrent.movesOn (p.cctx.status_updateCurrent _) (movesOn_of_advance h)

/-- A revert is put behind the first attempt, which is executed. -/
theorem movesOn_of_revert [WritableStore σ] {c : Cctx} {gasLimit : UInt64} {next : CctxStatus}
    (hrevert : p.cctx.addRevert gasLimit = .ok c)
    (hassign : { p with cctx := c }.assignNonce = .ok p₁)
    (hadvance : p₁.advance next message block = .ok p') : p.cctx.MovesOn p'.cctx := by
  obtain ⟨hnone, hc⟩ := Cctx.eq_of_addRevert hrevert
  obtain ⟨nonce, hcctx⟩ := exists_nonce_of_assignNonce hassign
  rw [hc] at hcctx
  have hretains : p.cctx.Retains p₁.cctx := by
    rw [hcctx]
    exact ⟨rfl, rfl, rfl, rfl, rfl, rfl, rfl, p.cctx.outbound.retains_execute, by simp [hnone]⟩
  refine hretains.movesOn ?_ (movesOn_of_advance hadvance)
  rw [hcctx]
  rfl

end Progress

/-! ### Settling -/

namespace Journal

variable {σ : Type} [WritableStore σ] {p p' : Progress σ} {config : SettlementConfig}
  {block : Block}

/-- **Settling an attempt retains what was fixed before**, whichever branch is taken, and goes along
an edge of the graph of states. -/
theorem movesOn_of_settle {ballot : Ballot} (h : settle config p ballot block = .ok p') :
    p.cctx.MovesOn p'.cctx := by
  have hexecuted := p.cctx.retains_executeCurrent
  have hstatus := p.cctx.status_updateCurrent .execute
  rw [settle] at h
  split at h
  · rw [settleSuccess] at h
    rcases ite_eq_ok_iff.1 h with ⟨-, h⟩ | ⟨-, h⟩
    · exact hexecuted.movesOn hstatus (Progress.movesOn_of_advance h)
    · exact hexecuted.movesOn hstatus (Progress.movesOn_of_advance h)
  · rw [settleFailure] at h
    split at h
    · rcases ite_eq_ok_iff.1 h with ⟨-, h⟩ | ⟨-, h⟩
      · exact Progress.movesOn_of_abort h
      · split at h
        · exact Progress.movesOn_of_abort h
        · next c hrevert =>
          obtain ⟨p₁, hassign, hadvance⟩ := bind_eq_ok_iff.1 h
          exact Progress.movesOn_of_revert hrevert hassign hadvance
    · exact Progress.movesOn_of_abort h
    · cases h
  · cases h

end Journal

end Settlement
