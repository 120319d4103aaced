import Settlement.Proofs.Attribution
import Settlement.Proofs.Migrations

/-!
# What a vote on an outbound transaction may change

The keys under which such a vote writes are made of the transaction as it was found and of what has
become of it: the nonce and the tracker that go are those of the attempt which was in flight, the
nonce that comes is that of the revert which follows it, and the mark that goes is that of the chain
of the first attempt. A key that is made of another attempt would be that of another transaction.

As long as its ballot is not decided, a vote changes the ballot, and the entry of the ballot if this
is new. The deciding vote changes besides what it takes to settle the attempt in flight. These are
all the keys (`Settlement.OutboundVote.MayWrite`), and everything else in the store keeps its bytes.

Main statement: `Settlement.Reachable.footprint_of_voteOutbound`.
-/

namespace Settlement

variable {γ : Type}

/-! ### The keys -/

/-- The keys under which a vote on an outbound transaction may change what is stored in a world, as
its receipt tells. The first transaction is the one that the vote was on, and the second one is what
has become of it. -/
inductive OutboundVote.MayWrite (m : OutboundVote) (w : World γ) (height : UInt64)
    (receipt : VoteReceipt) (c d : Cctx) : Key → Prop
  /-- The ballot of the message. -/
  | ballot : MayWrite m w height receipt c d (.ballot m.digest)
  /-- The entry of a new ballot. -/
  | entry (hnew : receipt.isNewBallot = true) :
      MayWrite m w height receipt c d (.ballotByHeight height m.digest)
  /-- The transaction. -/
  | cctx (hdecided : receipt.finalized = true) : MayWrite m w height receipt c d (.cctx m.cctxIndex)
  /-- The nonces among which that of the settled attempt is. -/
  | nonces (hdecided : receipt.finalized = true) :
      MayWrite m w height receipt c d (.nonces c.current.signingKey m.chainId)
  /-- The tracker of the settled attempt. -/
  | tracker (hdecided : receipt.finalized = true) :
      MayWrite m w height receipt c d (.outboundTracker c.current.signingKey m.chainId m.nonce)
  /-- The nonces among which that of a revert is that has been started. -/
  | revertNonces {r : Attempt} (hdecided : receipt.finalized = true)
      (hfirst : c.status = .pendingOutbound) (hstarts : c.StartsRevert d r) :
      MayWrite m w height receipt c d (.nonces r.signingKey r.chainId)
  /-- The owner of the nonce of a revert that has been started. -/
  | revertOwner {r : Attempt} {nonce : UInt64} (hdecided : receipt.finalized = true)
      (hfirst : c.status = .pendingOutbound) (hstarts : c.StartsRevert d r)
      (hnonce : r.nonce = some nonce) :
      MayWrite m w height receipt c d (.nonceOwner r.signingKey r.chainId nonce)
  /-- The mark of the chain of the first attempt, if it names the transaction and this has ended. -/
  | mark {f : FundMigration} (hdecided : receipt.finalized = true)
      (hended : d.status.isTerminal = true)
      (hmark : Registry.fundMigration? w.store.restored c.outbound.chainId = .ok (some f))
      (hnamed : f.cctxIndex = m.cctxIndex) :
      MayWrite m w height receipt c d (.fundMigration c.outbound.chainId)

namespace OutboundVote.MayWrite

variable {m : OutboundVote} {w : World γ} {height : UInt64} {receipt : VoteReceipt} {c d : Cctx}
  {k : Key}

theorem of_isFiledUnder {outcome : Registry.VoteOutcome} (htells : receipt.Tells outcome)
    (hballot : outcome.ballot.index = m.digest) (hk : outcome.IsFiledUnder height k) :
    m.MayWrite w height receipt c d k := by
  rw [Registry.VoteOutcome.IsFiledUnder, hballot] at hk
  rcases hk with rfl | ⟨hnew, rfl⟩
  · exact .ballot
  · exact .entry (htells.isNew_eq.trans hnew)

/-- What the deciding vote makes of the transaction is written under the keys of the vote. -/
theorem of_isRenewedUnder (h : w.Sound) (hindex : c.index = m.cctxIndex)
    (hopen : c.openTicket? = some ⟨⟨c.current.signingKey, m.chainId⟩, m.nonce⟩)
    (hdecided : receipt.finalized = true)
    (hk : c.IsRenewedUnder d
      (Journal.MarkNames (.fresh w.store : Draft) c.outbound.chainId c.index) k) :
    m.MayWrite w height receipt c d k := by
  obtain ⟨-, hchain, hnonce⟩ := Attempt.ticket?_eq_some_iff.1 (Cctx.eq_of_openTicket? hopen).1
  rcases hk with rfl | (rfl | ⟨nonce, hsettled, rfl⟩) | ⟨hfirst, r, hstarts, hassigned⟩ |
    ⟨hended, hnamed, rfl⟩
  · exact hindex ▸ .cctx hdecided
  · exact hchain ▸ .nonces hdecided
  · cases hsettled.symm.trans hnonce
    exact hchain ▸ .tracker hdecided
  · rcases hassigned with rfl | ⟨nonce, hreserved, rfl⟩
    · exact .revertNonces hdecided hfirst hstarts
    · exact .revertOwner hdecided hfirst hstarts hreserved
  · obtain ⟨f, hf, hcctx⟩ := h.records.fresh.marks.exists_of_markNames hnamed
    exact .mark hdecided hended ((h.fundMigration?_eq _).trans (congrArg Except.ok hf))
      (hcctx.trans hindex)

end OutboundVote.MayWrite

/-! ### Calls -/

section Calls

variable [Gateway γ] {service : Service} {w : World γ} {block : Block} {m : OutboundVote}
  {receipt : VoteReceipt}

/-- **A vote writes under its keys only**, and under that of the transaction there is then what has
become of it. -/
theorem World.Sound.touches_voteOutbound (h : w.Sound)
    (hanswer : (service.execute w (.voteOutbound block m)).answer = .ok (.receipt receipt)) :
    ∃ c d, w.accounts.cctx m.cctxIndex = some c ∧
      c.openTicket? = some ⟨⟨c.current.signingKey, m.chainId⟩, m.nonce⟩ ∧
      contents (service.execute w (.voteOutbound block m)).world.store
        (Key.cctx m.cctxIndex).bytes = some (Record.encode d) ∧
      receipt.isNewBallot = (w.ballots m.digest).isNone ∧
      Touches (m.MayWrite w block.height receipt c d) w.store
        (service.execute w (.voteOutbound block m)).world.store := by
  obtain ⟨draft, effects, g, hhandled, hcontents⟩ := Service.committed_of_answer hanswer
  obtain ⟨⟨receipt', draft', effects'⟩, hvote, heq⟩ := Handled.exists_of_ok hhandled
  cases heq
  obtain ⟨c, outcome, s₁, hstored, hcheck, hcast, htells, hends⟩ :=
    Journal.touches_renewed_of_voteOutbound hvote
  have hc : w.accounts.cctx m.cctxIndex = some c :=
    (Journal.eq_of_cctx? h.records.fresh h.legible hstored).symm
  have hindex : c.index = m.cctxIndex := h.accounts.index_eq _ c hc
  have hopen := Journal.openTicket?_of_checkAttempt hcheck
  obtain ⟨ballots, hvoted, -⟩ :=
    Registry.voted_of_castVote h.records.fresh h.legible h.ballotsFiled hcast
  have hballot : outcome.ballot.index = m.digest :=
    hvoted.filed h.ballotsFiled _ _ hvoted.stored_eq
  have hcasts := Registry.touches_castVote hcast
  have hfresh : contents w.store = contents (.fresh w.store : Draft) :=
    (Overlay.contents_fresh w.store).symm
  suffices hdraft : ∃ d, contents draft (Key.cctx m.cctxIndex).bytes = some (Record.encode d) ∧
      Touches (m.MayWrite w block.height receipt c d) (.fresh w.store : Draft) draft by
    obtain ⟨d, hheld, htouches⟩ := hdraft
    exact ⟨c, d, hc, hopen, hcontents ▸ hheld, htells.isNew_eq.trans hvoted.isNew_eq,
      htouches.congr hfresh hcontents⟩
  rcases hends with ⟨-, rfl⟩ | ⟨hfinalized, d, hheld, -, hrenewed⟩
  -- Before the ballot is decided the transaction stays as it is.
  · refine ⟨c, ?_, hcasts.mono fun _ => .of_isFiledUnder htells hballot⟩
    rw [hcasts.contents_eq (k := .cctx _) fun hk => hk.isPoll,
      h.records.fresh (.cctx m.cctxIndex)]
    exact congrArg (Option.map Record.encode) hc
  · refine ⟨d, hindex ▸ hheld, (hcasts.mono fun _ => .of_isFiledUnder htells hballot).trans
      (hrenewed.mono fun _ => .of_isRenewedUnder h hindex hopen ?_)⟩
    exact htells.finalized_eq.trans hfinalized

/-- **A vote on an outbound transaction changes nothing but what it is about.** In a world that is
reached, let a vote be answered with a receipt. It was on the attempt in flight of a stored
transaction, and something is stored under the index of this transaction after the vote as well.
Wherever in the store there is something else after the vote than before, it is under one of the
keys of the vote: that of the ballot of the message, and that of its entry if there was no such
ballot; and if the vote has decided the ballot, those of the transaction, of the nonces and of the
tracker of the settled attempt, of the nonces and of the owner of the nonce of a revert that it has
started, and of the mark that names the transaction if this has ended. -/
theorem Reachable.footprint_of_voteOutbound (h : Reachable service w)
    (hanswer : (service.execute w (.voteOutbound block m)).answer = .ok (.receipt receipt)) :
    ∃ c d, w.Stores m.cctxIndex c ∧
      c.current.chainId = m.chainId ∧ c.current.nonce = some m.nonce ∧
      contents (service.execute w (.voteOutbound block m)).world.store
        (Key.cctx m.cctxIndex).bytes = some (Record.encode d) ∧
      (receipt.isNewBallot = true ↔ Registry.ballot? w.store.restored m.digest = .ok none) ∧
      ∀ bs, contents (service.execute w (.voteOutbound block m)).world.store bs
          ≠ contents w.store bs →
        ∃ k : Key, k.bytes = bs ∧ m.MayWrite w block.height receipt c d k := by
  have hsound := h.sound
  obtain ⟨c, d, hc, hopen, hheld, hnew, htouches⟩ := hsound.touches_voteOutbound hanswer
  obtain ⟨-, hchain, hnonce⟩ := Attempt.ticket?_eq_some_iff.1 (Cctx.eq_of_openTicket? hopen).1
  refine ⟨c, d, hsound.stores_iff.2 hc, hchain, hnonce, hheld, ?_, fun bs hne =>
    h.intact.exists_key htouches hne⟩
  rw [hsound.ballot?_eq, hnew, Option.isNone_iff_eq_none, Except.ok.injEq]

end Calls

/-! ### One nonce of two keys -/

namespace Sample

/-- Both keys have their first nonce open, and the outbound transaction of the newer one is seen. -/
def trackedCalls : List Call :=
  sharingCalls ++ [.addOutboundTracker sighting]

/-- The world after that. -/
def trackedSharing : World ScriptedGateway :=
  service.after world trackedCalls

/-- **The nonce of one key is settled, and the same nonce of the other one is left alone**, with its
tracker. -/
theorem newer_key_untouched :
    (service.execute trackedSharing (.voteOutbound ⟨4, 4⟩ failure)).answer
      = .ok (.receipt ⟨failure.digest, true, true, some deposit.digest, some .pendingRevert⟩) ∧
    ∀ k ∈ [Key.nonces "newer key" chainId, .outboundTracker "newer key" chainId 0],
      (contents trackedSharing.store k.bytes).isSome = true ∧
      contents (service.execute trackedSharing (.voteOutbound ⟨4, 4⟩ failure)).world.store k.bytes
        = contents trackedSharing.store k.bytes := by
  have hevaluated :
      (∀ t ∈ service.turnsOf world trackedCalls,
        (service.execute t.world t.call).world.store.Addressable) ∧
      trackedSharing.accounts.cctx deposit.digest = some cctx ∧
      (service.execute trackedSharing (.voteOutbound ⟨4, 4⟩ failure)).answer
        = .ok (.receipt ⟨failure.digest, true, true, some deposit.digest, some .pendingRevert⟩) ∧
      ∀ k ∈ [Key.nonces "newer key" chainId, .outboundTracker "newer key" chainId 0],
        (trackedSharing.store.entries.find? k.bytes).isSome = true := by
    decide +kernel
  obtain ⟨hstores, hcctx, hanswer, hheld⟩ := hevaluated
  have hreached : Reachable service trackedSharing :=
    ⟨start, _, rfl, run.calls trackedCalls hstores⟩
  obtain ⟨c, d, hc, -, -, -, -, hwritten⟩ := Reachable.footprint_of_voteOutbound hreached hanswer
  obtain rfl : cctx = c := Option.some.inj (hcctx.symm.trans (hreached.sound.stores_iff.1 hc))
  refine ⟨hanswer, fun k hk => ⟨hheld k hk, ?_⟩⟩
  by_contra hne
  obtain ⟨j, hj, hwrites⟩ := hwritten _ hne
  have hother : j.folded ∉ [Key.nonces "newer key" chainId,
      .outboundTracker "newer key" chainId 0] := by
    cases hwrites with
    | nonces | tracker => decide
    -- The revert is signed as the first attempt was.
    | @revertNonces r _ _ hstarts =>
      have hsigned : r.signingKey = "key" := congrArg Lane.signingKey hstarts.lane_eq
      simp [Key.folded, hsigned]
    | ballot | entry | cctx | revertOwner | mark => simp [Key.folded]
  have hfolded : k.folded = k := by
    simp only [List.mem_cons, List.not_mem_nil, or_false] at hk
    rcases hk with rfl | rfl <;> rfl
  rw [Key.bytes_eq_iff.1 hj, hfolded] at hother
  exact hother hk

end Sample

end Settlement
