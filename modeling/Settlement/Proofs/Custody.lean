import Settlement.Proofs.Openings
import Settlement.Proofs.SettledOnce

/-!
# The keys under which nonces are reserved

A nonce is reserved when a transaction is opened, by a report of a deposit or by a fund migration,
and when the first attempt of a transaction has failed and a revert follows. What is opened is
signed with the key that is current. A revert is signed with the key of the first attempt, whatever
key is current by then: if the key has changed since the transaction was opened, the nonce of the
revert is reserved under a key that has been retired (`Settlement.Sample.revert_under_retired_key`).

There is no other way. A key under which a nonce is reserved is the current one, or it was the
current one when the transaction was opened that is sent back now.

Main statement: `Settlement.Run.nonces_reserved`.
-/

namespace Settlement

/-! ### Keys and tickets -/

namespace Accounts

variable {a b : Accounts} {c d : Cctx} {lane : Option Lane} {closed : Option Ticket} {t : Ticket}

/-- An owner that is new is that of the ticket that was issued. -/
theorem issued_of_owner {o : NonceOwner} (hbefore : a.owner t = none)
    (hafter : (a.renew c lane closed).owner t = some o) :
    lane.map a.nextTicket = some t ∧ o = t.ownedBy c.index := by
  rw [Renews.renew_owner] at hafter
  split at hafter
  · next ht =>
    cases hafter
    exact ⟨ht, rfl⟩
  · rw [hbefore] at hafter
    cases hafter

/-- What is opened has its ticket from the key with which it is signed. -/
theorem Opens.signingKey_of_issued (h : a.Opens c lane) (ht : lane.map a.nextTicket = some t) :
    t.lane.signingKey = c.outbound.signingKey := by
  obtain ⟨b, hb, hbt⟩ := List.mem_filterMap.1 ((h.renews.mem_tickets_iff t).2 (.inr ht))
  exact (Attempt.ticket?_eq_some_iff.1 hbt).1.symm.trans (h.signingKey_eq b hb)

end Accounts

namespace Journal.OutboundSettled

variable {a : Accounts} {m : OutboundVote} {c d : Cctx} {lane : Option Lane} {ballot : Ballot}
  {t : Ticket}

/-- A ticket is issued for a revert only. -/
theorem status_of_issued (h : OutboundSettled a m c d lane ballot)
    (ht : lane.map a.nextTicket = some t) : d.status = .pendingRevert := by
  obtain ⟨-, hawaits, -⟩ := Cctx.eq_of_openTicket? (h.settles.openTicket?_eq.trans ht)
  have hleads := h.leadsTo
  cases hverdict : ballot.status with
  | pending =>
    rw [hverdict] at hleads
    cases hleads
  | success =>
    rw [hverdict] at hleads
    rcases hleads with hstatus | hstatus <;> rw [hstatus] at hawaits <;> cases hawaits
  | failure =>
    rw [hverdict] at hleads
    refine hleads.resolve_right fun hstatus => ?_
    rw [hstatus] at hawaits
    cases hawaits

/-- Before a revert the first attempt was in flight. -/
theorem status_before_revert (h : OutboundSettled a m c d lane ballot) (hformed : c.Formed)
    (hafter : d.status = .pendingRevert) : c.status = .pendingOutbound := by
  have hcan := h.movesOn.canBecome
  have hstage := hformed.isAt
  rw [hafter] at hcan
  cases hstatus : c.status with
  | pendingOutbound => rfl
  | pendingInbound =>
    rw [hstatus] at hstage
    cases hstage
  | outboundMined | pendingRevert | reverted | aborted =>
    rw [hstatus] at hcan
    cases hcan

/-- **A revert has its ticket from the key of the first attempt**, on the chain from which the value
came. -/
theorem revert_of_issued (h : OutboundSettled a m c d lane ballot) (hformed : c.Formed)
    (ht : lane.map a.nextTicket = some t) :
    c.status = .pendingOutbound ∧ d.status = .pendingRevert ∧
      ∃ r, d.revert = some r ∧ r.ticket? = some t ∧
        t.lane = ⟨c.outbound.signingKey, c.inbound.senderChain⟩ := by
  have hafter := h.status_of_issued ht
  have hdone := h.formed hformed
  have hstage := hdone.isAt
  rw [hafter] at hstage
  obtain ⟨-, -, r, hr, -⟩ := hstage
  obtain ⟨hticket, -⟩ := Cctx.eq_of_openTicket? (h.settles.openTicket?_eq.trans ht)
  rw [Cctx.current_eq_revert hr] at hticket
  have hpayment := hdone.payment_eq r hr
  have hkey : r.signingKey = c.outbound.signingKey :=
    (congrArg Payment.signingKey hpayment).trans h.movesOn.outbound.signingKey_eq
  have hchain : r.chainId = c.inbound.senderChain :=
    (congrArg Payment.chainId hpayment).trans (congrArg Inbound.senderChain h.settles.inbound_eq)
  obtain ⟨hlane, hlane', -⟩ := Attempt.ticket?_eq_some_iff.1 hticket
  refine ⟨h.status_before_revert hformed hafter, hafter, r, hr, hticket, ?_⟩
  rw [← hkey, ← hchain, hlane, hlane']

end Journal.OutboundSettled

/-! ### Calls -/

section Runs

variable {γ : Type}

/-- From the first world to the second a nonce of a signing key on a chain is reserved for a
transaction: it had no owner, and the transaction is its owner now. -/
structure World.Reserves (w w' : World γ) (key : String) (chainId : ChainId) (n : UInt64)
    (x : Digest) : Prop where
  before : Registry.nonceOwner? w.store.restored key chainId n = .ok none
  after : Registry.nonceOwner? w'.store.restored key chainId n = .ok (some ⟨key, chainId, n, x⟩)

/-- From the first world to the second a transaction starts its revert. Its first attempt was in
flight, and a second one has followed it on the sender chain, signed with the same key. -/
def World.Reverts (w w' : World γ) (key : String) (chainId : ChainId) (n : UInt64)
    (x : Digest) : Prop :=
  ∃ c d r, w.Stores x c ∧ c.status = .pendingOutbound ∧ w'.Stores x d ∧
    d.status = .pendingRevert ∧ d.revert = some r ∧ r.nonce = some n ∧ r.signingKey = key ∧
    r.chainId = chainId ∧ c.outbound.signingKey = key ∧ c.inbound.senderChain = chainId

variable [Gateway γ] {service : Service} {w w₀ : World γ} {turns : List (Turn γ)} {call : Call}

/-- **A nonce is reserved under the current key, or for a revert.** -/
theorem World.Sound.reserves (h : w.Sound)
    (hstore : (service.execute w call).world.store.Addressable) {key : String} {chainId : ChainId}
    {n : UInt64} {x : Digest}
    (hreserves : w.Reserves (service.execute w call).world key chainId n x) :
    (∃ current, Registry.currentKey? w.store.restored = .ok (some current) ∧
      key = current.pubkey) ∨
    ∃ block m, call = .voteOutbound block m ∧ m.cctxIndex = x ∧
      w.Reverts (service.execute w call).world key chainId n x := by
  have hafter := (h.execute hstore).1
  obtain ⟨hnone, hsome⟩ := hreserves
  rw [h.nonceOwner?_eq ⟨⟨key, chainId⟩, n⟩, Except.ok.injEq] at hnone
  rw [hafter.nonceOwner?_eq ⟨⟨key, chainId⟩, n⟩, Except.ok.injEq] at hsome
  rcases h.transacts hstore with ⟨-, howner⟩ | ⟨hkey, hsigned, -, hopens, -, howner⟩ |
    ⟨hcall, hc, hindex, hsettled, hb⟩
  · rw [howner, hnone] at hsome
    cases hsome
  · rw [howner] at hsome
    obtain ⟨ht, -⟩ := Accounts.issued_of_owner hnone hsome
    refine .inl ⟨_, h.currentKey?_eq.trans (congrArg Except.ok hkey), ?_⟩
    exact (hopens.signingKey_of_issued ht).trans hsigned
  · rw [hb] at hsome
    obtain ⟨ht, howner⟩ := Accounts.issued_of_owner hnone hsome
    obtain rfl : x = _ := (congrArg NonceOwner.cctxIndex howner).trans hindex
    obtain ⟨hbefore, hstatus, r, hr, hticket, hlane⟩ :=
      hsettled.revert_of_issued (h.accounts.formed _ _ hc) ht
    obtain ⟨hkey, hchain, hnonce⟩ := Attempt.ticket?_eq_some_iff.1 hticket
    refine .inr ⟨_, _, hcall, rfl, _, _, r, h.stores_iff.2 hc, hbefore, hafter.stores_iff.2 ?_,
      hstatus, hr, hnonce, hkey, hchain, (congrArg Lane.signingKey hlane).symm,
      (congrArg Lane.chainId hlane).symm⟩
    rw [hb, Accounts.Renews.renew_cctx, if_pos hindex.symm]

/-- **A nonce is reserved under the current key, or for a revert under the key of the first
attempt.** Whatever call is made on a world that is reached from an empty store, a nonce that it
reserves for a transaction is one of the key that is current at this call; or the call is a vote on
an outbound transaction that has found the first attempt of the transaction to have failed, and the
nonce is that of the revert, on the sender chain and under the key of the first attempt. That key
was the current one in the turn in which the transaction was opened. -/
theorem Run.nonces_reserved (hrun : Run service w₀ turns w) (hempty : w₀.store.entries = .empty)
    (hstore : (service.execute w call).world.store.Addressable) {key : String} {chainId : ChainId}
    {n : UInt64} {x : Digest}
    (hreserves : w.Reserves (service.execute w call).world key chainId n x) :
    (∃ current, Registry.currentKey? w.store.restored = .ok (some current) ∧
      key = current.pubkey) ∨
    (∃ block m, call = .voteOutbound block m ∧ m.cctxIndex = x) ∧
      w.Reverts (service.execute w call).world key chainId n x ∧
      ∃ t ∈ turns, ∃ c former, w.Stores x c ∧ c.OpenedIn service t ∧
        Registry.currentKey? t.world.store.restored = .ok (some former) ∧
        key = former.pubkey := by
  have hsound := hrun.sound (World.sound_of_entries_eq_empty hempty)
  rcases hsound.reserves hstore hreserves with hcurrent | ⟨block, m, hcall, hx, hreverts⟩
  · exact .inl hcurrent
  · obtain ⟨c, -, -, hc, -, -, -, -, -, -, -, hkey, -⟩ := id hreverts
    obtain ⟨t, ht, hopened⟩ := hrun.openedIn hempty (hsound.stores_iff.1 hc)
    obtain ⟨former, hformer, hsigned⟩ := hopened.signed
    exact .inr ⟨⟨block, m, hcall, hx⟩, hreverts, t, ht, c, former, hc, hopened, hformer,
      hkey.symm.trans hsigned⟩

end Runs

/-! ### A key that is retired while a deposit waits -/

namespace Sample

/-- While the deposit waits for its outbound transaction, another key becomes the current one. -/
def rotatedCalls : List Call :=
  calls ++ [.registerKey ⟨"newer key", 2, 2⟩ true]

/-- The world after that. -/
def rotated : World ScriptedGateway :=
  service.after start rotatedCalls

/-- The outbound transaction fails then. -/
theorem evaluation_of_rotated :
    (∀ t ∈ service.turnsOf start rotatedCalls,
      (service.execute t.world t.call).world.store.Addressable) ∧
    (service.execute rotated (.voteOutbound ⟨3, 3⟩ failure)).world.store.Addressable ∧
    Registry.currentKey? rotated.store.restored = .ok (some ⟨"newer key", 2, 2⟩) ∧
    Registry.nonceOwner? rotated.store.restored "key" chainId 1 = .ok none ∧
    Registry.nonceOwner?
      (service.execute rotated (.voteOutbound ⟨3, 3⟩ failure)).world.store.restored "key" chainId 1
      = .ok (some ⟨"key", chainId, 1, deposit.digest⟩) := by
  decide +kernel

theorem run_rotated : Run service start (service.turnsOf start rotatedCalls) rotated :=
  Run.start.calls _ evaluation_of_rotated.1

/-- **The nonce of the revert is that of a key that is not current any more.** -/
theorem revert_under_retired_key :
    Reachable service rotated ∧
    Registry.currentKey? rotated.store.restored = .ok (some ⟨"newer key", 2, 2⟩) ∧
    rotated.Reserves (service.execute rotated (.voteOutbound ⟨3, 3⟩ failure)).world "key" chainId 1
      deposit.digest := by
  obtain ⟨-, -, hcurrent, hbefore, hafter⟩ := evaluation_of_rotated
  exact ⟨⟨start, _, rfl, run_rotated⟩, hcurrent, hbefore, hafter⟩

/-- The nonce is that of the revert, and its key was the current one when the deposit was
reported. -/
theorem nonce_of_retired_key :
    rotated.Reverts (service.execute rotated (.voteOutbound ⟨3, 3⟩ failure)).world "key" chainId 1
      deposit.digest ∧
    ∃ t ∈ service.turnsOf start rotatedCalls, ∃ c former, rotated.Stores deposit.digest c ∧
      c.OpenedIn service t ∧ Registry.currentKey? t.world.store.restored = .ok (some former) ∧
      former.pubkey = "key" := by
  obtain ⟨-, hstore, hcurrent, hbefore, hafter⟩ := evaluation_of_rotated
  rcases Run.nonces_reserved run_rotated rfl hstore ⟨hbefore, hafter⟩ with
    ⟨current, hkey, hpubkey⟩ | ⟨-, hreverts, t, ht, c, former, hc, hopened, hformer, hpubkey⟩
  · cases hcurrent.symm.trans hkey
    exact absurd hpubkey (by decide)
  · exact ⟨hreverts, t, ht, c, former, hc, hopened, hformer, hpubkey.symm⟩

end Sample

end Settlement
