import Settlement.Proofs.Queries

/-!
# The shape of stored transactions

A transaction is entered by three transitions, a deposit, a settled attempt and a fund
migration, and each of them has many ways to end: paid on the host chain, sent, sent back, given
up. Whichever it was, the two slots for attempts, what is known of their outcomes and the state
are in one of few combinations afterwards, and the value is the one that came in.

Main statement: `Settlement.Reachable.lifecycle`.
-/

namespace Settlement

variable {γ : Type}

namespace Cctx

variable {c : Cctx}

/-! ### Who receives a revert -/

/-- The revert address is taken if it may be named and is not empty, -/
theorem revertReceiver_of_named {address : String} (hversion : c.protocolVersion = .v2)
    (hnamed : c.revertOptions.revertAddress = some address) (hne : address ≠ "") :
    c.revertReceiver = address := by
  rw [revertReceiver, hversion, hnamed]
  exact if_neg hne

/-- and the sender otherwise. -/
theorem revertReceiver_of_not_named (h : ∀ address, c.protocolVersion = .v2 →
    c.revertOptions.revertAddress = some address → address = "") :
    c.revertReceiver = c.inbound.sender := by
  rw [revertReceiver]
  split
  · next address hversion hnamed => rw [if_pos (h address hversion hnamed)]
  · rfl

end Cctx

section Runs

variable [Gateway γ] {service : Service} {w : World γ}

/-! ### Every stored transaction -/

/-- **A stored transaction has the attempts that its state asks for.** It is never in the state
in which transactions are created. If it waits for an outbound transaction, that is the first
attempt, with a nonce and without an outcome; if it waits for a revert, that is the second one,
the first one has failed, and it is no transfer between signing keys. In every final state the
outcomes of all attempts are known. The first attempt carries the value that came in, and a
revert brings it back to the sender chain, with the same signing key, to the revert address or
the sender. The reason for the state is given, and the transaction passes the check that is made
before it is stored. -/
theorem Reachable.lifecycle (h : Reachable service w) {x : Digest} {c : Cctx}
    (hc : w.Stores x c) :
    c.status ≠ .pendingInbound ∧
    (c.status = .pendingOutbound →
      c.revert = none ∧ c.outbound.isExecuted = false ∧ c.outbound.nonce.isSome = true) ∧
    (c.status = .pendingRevert → c.inbound.coinType ≠ .cmd ∧ c.outbound.isExecuted = true ∧
      ∃ r, c.revert = some r ∧ r.isExecuted = false ∧ r.nonce.isSome = true) ∧
    (c.status = .outboundMined → c.revert = none ∧ c.outbound.isExecuted = true) ∧
    (c.status = .reverted → c.outbound.isExecuted = true ∧
      ∃ r, c.revert = some r ∧ r.isExecuted = true) ∧
    (c.status = .aborted → c.outbound.isExecuted = true ∧
      ∀ r, c.revert = some r → r.isExecuted = true) ∧
    c.outbound.amount = c.inbound.amount ∧
    (∀ r, c.revert = some r → r.amount = c.inbound.amount ∧
      r.signingKey = c.outbound.signingKey ∧ r.chainId = c.inbound.senderChain ∧
      (∀ address, c.protocolVersion = .v2 → c.revertOptions.revertAddress = some address →
        address ≠ "" → r.receiver = address) ∧
      ((∀ address, c.protocolVersion = .v2 → c.revertOptions.revertAddress = some address →
        address = "") → r.receiver = c.inbound.sender)) ∧
    c.report.message ≠ "" ∧ c.validate = .ok () := by
  have hsound := h.sound
  have hformed : c.Formed := hsound.accounts.formed x c (hsound.stores_iff.1 hc)
  have hstage {s : CctxStatus} (hstatus : c.status = s) : c.IsAt s := hstatus ▸ hformed.isAt
  refine ⟨fun hstatus => hstage hstatus, fun hstatus => hstage hstatus,
    fun hstatus => hstage hstatus, fun hstatus => hstage hstatus, fun hstatus => hstage hstatus,
    fun hstatus => ?_, hformed.amount_eq, fun r hr => ?_, hformed.message_ne, hformed.validate⟩
  · have hexecuted : ∀ a ∈ c.attempts, a.isExecuted = true := hstage hstatus
    refine ⟨hexecuted _ List.mem_cons_self, fun r hr => hexecuted r ?_⟩
    rw [Cctx.attempts, hr]
    exact List.mem_cons_of_mem _ List.mem_cons_self
  · have hpayment := hformed.payment_eq r hr
    have hreceiver : r.receiver = c.revertReceiver := congrArg Payment.receiver hpayment
    have hamount : r.amount = c.outbound.amount := congrArg Payment.amount hpayment
    exact ⟨hamount.trans hformed.amount_eq, congrArg Payment.signingKey hpayment,
      congrArg Payment.chainId hpayment,
      fun _ hversion hnamed hne => hreceiver.trans
        (Cctx.revertReceiver_of_named hversion hnamed hne),
      fun hnone => hreceiver.trans (Cctx.revertReceiver_of_not_named hnone)⟩

end Runs

/-! ### A deposit that is sent back -/

namespace Sample

/-- Nothing is stored, and the gateway will refuse the first deposit. -/
def refusing : World ScriptedGateway :=
  { start with gateway := ⟨[.error ⟨.assetPaused, "paused"⟩], []⟩ }

/-- The refused deposit goes back to its sender, with the value that came in. -/
theorem lifecycle_of_refused : ∃ c r, (service.after refusing calls).Stores deposit.digest c ∧
    c.status = .pendingRevert ∧ c.revert = some r ∧ r.isExecuted = false ∧
    r.receiver = "0xSender" ∧ r.amount = deposit.amount ∧ r.chainId = chainId := by
  have hevaluated :
      (∀ t ∈ service.turnsOf refusing calls,
        (service.execute t.world t.call).world.store.Addressable) ∧
      ((service.after refusing calls).accounts.cctx deposit.digest).map
        (fun c => (c.status, c.inbound.sender, c.inbound.amount, c.inbound.senderChain,
          c.revertOptions))
        = some (.pendingRevert, "0xSender", deposit.amount, chainId, .initial) := by
    decide +kernel
  obtain ⟨hstores, hfound⟩ := hevaluated
  have hrun := Run.start.calls calls hstores
  have hreachable : Reachable service (service.after refusing calls) := ⟨refusing, _, rfl, hrun⟩
  obtain ⟨c, hc, hviews⟩ := Option.map_eq_some_iff.1 hfound
  obtain ⟨hstatus, hsender, hamount, hchain, hoptions⟩ :
      c.status = .pendingRevert ∧ c.inbound.sender = "0xSender" ∧
        c.inbound.amount = deposit.amount ∧ c.inbound.senderChain = chainId ∧
        c.revertOptions = .initial := by simpa using hviews
  have hstores := hreachable.sound.stores_iff.2 hc
  obtain ⟨-, -, hpending, -, -, -, -, hrevert, -⟩ := Reachable.lifecycle hreachable hstores
  obtain ⟨-, -, r, hr, hopen, -⟩ := hpending hstatus
  obtain ⟨hvalue, -, htarget, -, hback⟩ := hrevert r hr
  refine ⟨c, r, hstores, hstatus, hr, hopen, ?_, hvalue.trans hamount, htarget.trans hchain⟩
  rw [hback fun address _ hnamed => ?_, hsender]
  rw [hoptions] at hnamed
  cases hnamed

end Sample

end Settlement
