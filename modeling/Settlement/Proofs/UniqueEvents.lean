import Settlement.Proofs.Queries

/-!
# One transaction for every external event

Observers may report an external event in many ways: with another amount, another receiver or
another spelling of its hash. Each of these reports has a ballot of its own, and ballots come and
go with pruning. What does not go is the mark of the event, which is set in the call that opens
the transaction: reports are refused from then on.

Main statement: no two transactions come from the same event, and every vote on an event that
has one is refused (`Settlement.Reachable.one_cctx_per_event`).
-/

namespace Settlement

variable {γ : Type} [Gateway γ] {service : Service} {w w' : World γ} {turns : List (Turn γ)}

/-- A vote on a marked event is refused. -/
theorem World.Sound.refused_of_marked (h : w.Sound) (block : Block) {m : InboundVote}
    (hmarked : w.accounts.marked m.origin = true) :
    ∃ e, service.execute w (.voteInbound block m) = ⟨.error e, [], w⟩ :=
  Service.refused_of_marked service h.records h.legible h.ballotsFiled block hmarked

/-- **An event that is marked stays so, and votes on it are refused from then on.** -/
theorem Run.refused_of_marked (hrun : Run service w turns w') (h : w.Sound) (block : Block)
    {m : InboundVote} (hmarked : w.accounts.marked m.origin = true) :
    ∃ e, service.execute w' (.voteInbound block m) = ⟨.error e, [], w'⟩ :=
  (hrun.sound h).refused_of_marked block ((hrun.extends h).marked _ hmarked)

/-- **There is one transaction for an external event at most.** Of two stored transactions that
are no transfers between signing keys, no two have the same sender chain, the same hash up to the
case of letters and the same place. For each of them the event is marked, under every spelling
of its hash, and in every later world every vote on the event is refused and changes nothing. -/
theorem Reachable.one_cctx_per_event (h : Reachable service w) :
    (∀ x y c d, w.Stores x c → w.Stores y d →
      c.inbound.coinType ≠ .cmd → d.inbound.coinType ≠ .cmd →
      c.inbound.senderChain = d.inbound.senderChain →
      foldCase c.inbound.observedHash = foldCase d.inbound.observedHash →
      c.inbound.eventIndex = d.inbound.eventIndex → x = y) ∧
    ∀ x c, w.Stores x c → c.inbound.coinType ≠ .cmd →
      (∀ txHash, foldCase txHash = foldCase c.inbound.observedHash →
        Journal.isFinalized w.store.restored c.inbound.senderChain txHash c.inbound.eventIndex
          = .ok true) ∧
      ∀ turns w', Run service w turns w' → ∀ block m, m.senderChain = c.inbound.senderChain →
        foldCase m.inboundHash = foldCase c.inbound.observedHash →
        m.eventIndex = c.inbound.eventIndex →
        ∃ e, service.execute w' (.voteInbound block m) = ⟨.error e, [], w'⟩ := by
  have hsound := h.sound
  refine ⟨fun x y c d hc hd hcoin hcoin' hchain hhash hevent => ?_, fun x c hc hcoin => ?_⟩
  · exact hsound.accounts.index_eq_of_origin_eq x y c d (hsound.stores_iff.1 hc)
      (hsound.stores_iff.1 hd) hcoin hcoin' (Origin.of_eq_of_iff.2 ⟨hchain, hhash, hevent⟩)
  · have hmarked := hsound.accounts.marked x c (hsound.stores_iff.1 hc) hcoin
    refine ⟨fun txHash hhash => ?_, fun turns w' hrun block m hchain hhash hevent => ?_⟩
    · rw [hsound.isFinalized_eq, Origin.of_eq_of_iff.2 ⟨rfl, hhash, rfl⟩]
      exact congrArg Except.ok hmarked
    · have horigin : m.origin = c.inbound.origin :=
        Origin.of_eq_of_iff.2 ⟨hchain, hhash, hevent⟩
      exact hrun.refused_of_marked hsound block (horigin ▸ hmarked)

/-- The deposit is reported again, with another amount and its hash in small letters. -/
theorem Sample.deposit_refused_again : Sample.world.Stores Sample.deposit.digest Sample.cctx ∧
    ∃ e, Sample.service.execute Sample.world (.voteInbound ⟨2, 2⟩
      { Sample.deposit with inboundHash := "0xab", amount := .ofNat 7 })
        = ⟨.error e, [], Sample.world⟩ := by
  refine ⟨Sample.stores, ?_⟩
  have hlater := (Reachable.one_cctx_per_event Sample.reachable).2 _ _ Sample.stores (by decide)
  exact hlater.2 [] Sample.world .start _ _ rfl (by decide +kernel) rfl

end Settlement
