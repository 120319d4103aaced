import Settlement.Proofs.Atomicity
import Settlement.Proofs.Completion

/-!
# Votes that are accepted

A vote is checked before anything is written. On a store that works, a vote that passes these
checks is accepted, since only the store could fail after them.

Main statements: `Settlement.Journal.exists_intake`, `Settlement.Journal.exists_voteOutbound`.
-/

namespace Settlement

variable {b : Backend} {r : Recorder b} {l : Ledger} {a : Accounts}
  {ballots : Digest → Option Ballot} {policy : StalePolicy} {config : SettlementConfig}
  {block : Block}

/-! ### Reading -/

namespace Recorder

theorem getRecord_eq (hb : b.Works) (h : Records r l) (k : Key)
    (hfits : ∀ v, l k.folded = some v → Fits v) : getRecord r k.bytes = .ok (l k.folded) :=
  getRecord_eq_of_records h k hfits (r.get_eq hb.readable _)

/-- On a store that can be read, it can be asked whether there is something under a key. -/
theorem exists_containsKey (hb : b.Works) (r : Recorder b) (key : Bytes) :
    ∃ found, containsKey r key = .ok found := by
  have hcheck : b.checkReadable key = .ok () := by rw [Backend.checkReadable, hb.readable]
  obtain ⟨found, hfound⟩ : ∃ found, ReadableStore.contains r key = .ok found := by
    rw [r.contains_eq_match]
    cases r.draft.pending.find? key with
    | some value => exact ⟨value.isSome, rfl⟩
    | none => exact ⟨_, congrArg (Except.map fun _ => (b.entries.find? key).isSome) hcheck⟩
  exact ⟨found, mapError_eq_ok_iff.2 hfound⟩

/-- On a store that can be read, every listing is answered in the order of the keys. -/
theorem exists_scan (hb : b.Works) (r : Recorder b) (stem : Bytes) :
    ∃ entries, ReadableStore.scan r stem = .ok entries ∧
      entries.Pairwise fun x y => x.1 < y.1 := by
  have hcheck : b.checkReadable stem = .ok () := by rw [Backend.checkReadable, hb.readable]
  have hbase : ReadableStore.scan r.draft.base stem = .ok (b.entries.scan stem) := by
    rw [base_draft]
    exact congrArg (Except.map fun _ => b.entries.scan stem) hcheck
  exact ⟨_, map_eq_ok_iff.2 ⟨_, hbase, rfl⟩, ByteMap.sorted _⟩

end Recorder

/-! ### Casting a vote -/

/-- **A vote by an observer who has not voted is taken**, on a chain that is served. -/
theorem Registry.castVote_taken {request : VoteRequest} {height : UInt64}
    {observers : ObserverSet} {chain : Chain} {params : ChainParams} {stored : Option Ballot}
    (hobservers : observerSet r = .ok observers)
    (hmember : observers.contains request.voter = true)
    (hchain : supportedChain r request.chainId = .ok (chain, params))
    (hstored : ballot? r request.ballot = .ok stored)
    (hnot_voted : (stored.getD (.fresh request.ballot request.chainId request.observation
      height)).hasVoted request.voter = false)
    (hvote : request.vote ≠ .absent) :
    ∃ result, castVote policy r request height = .ok result := by
  refine exists_ok_bind hobservers (exists_ok_unless hmember ?_)
  refine exists_ok_bind hchain (exists_ok_bind hstored (exists_ok_guard ?_ ?_))
  · simp [hnot_voted]
  split
  · exact ⟨_, rfl⟩
  · refine exists_ok_bind (mapError_eq_ok_iff.2 (Ballot.record_eq hvote hnot_voted)) ?_
    split
    · exact ⟨_, rfl⟩
    · exact ⟨_, rfl⟩

/-! ### Votes on inbound transactions -/

namespace Journal

/-- The settings admit the report of an inbound transaction: such transactions are enabled, its
chains are served and external, but for a receiver on the host chain, and there is a key to sign
with. -/
structure Admits {σ : Type} [ReadableStore σ] (config : SettlementConfig) (s : σ)
    (m : InboundVote) : Prop where
  enabled : ∃ switches, Registry.switches s = .ok switches ∧ switches.inboundEnabled = true
  sender : ∃ chain, externalChain s m.senderChain = .ok chain
  receiver : m.receiverChain ≠ config.hostChain → ∃ chain,
    externalChain s m.receiverChain = .ok chain
  currentKey : ∃ key, Registry.currentKey s = .ok key

/-- **A report that the settings admit is taken**, if its event is not finalized, there is no
transaction with its digest, and its vote is taken. -/
theorem exists_intake {m : InboundVote} (hb : b.Works) (h : Records r l) (hl : l.Legible)
    (hballots : BallotsFiled l.ballots) (hvalid : m.validate = .ok ())
    (hadmits : Admits config r m)
    (hunmarked : isFinalized r m.senderChain m.inboundHash m.eventIndex = .ok false)
    (habsent : l.accounts.cctx m.digest = none)
    (hcast : ∃ result, Registry.castVote policy r m.request block.height = .ok result) :
    ∃ start, intake policy config r block m = .ok start := by
  obtain ⟨switches, hswitches, henabled⟩ := hadmits.enabled
  obtain ⟨sender, hsender⟩ := hadmits.sender
  obtain ⟨key, hkey⟩ := hadmits.currentKey
  obtain ⟨⟨outcome, r₁⟩, hcast⟩ := hcast
  refine exists_ok_bind hvalid (exists_ok_bind (registryError_lift_eq_ok_iff.2 hswitches)
    (exists_ok_unless henabled (exists_ok_bind hsender ?_)))
  refine (when_eq hadmits.receiver).symm ▸ ?_
  refine exists_ok_bind (registryError_lift_eq_ok_iff.2 hkey) (exists_ok_bind hunmarked
    (exists_ok_guard Bool.false_ne_true (exists_ok_bind (registryError_lift_eq_ok_iff.2 hcast) ?_)))
  dsimp only
  split
  · exact ⟨_, rfl⟩
  -- Nothing of what the deciding vote writes before it looks for a transaction is one.
  obtain ⟨ballots', -, hbooks⟩ := Registry.voted_of_castVote h hl hballots hcast
  obtain ⟨r₂, hmark⟩ : ∃ r₂, setFinalized r₁
      ⟨m.senderChain, m.inboundHash, m.eventIndex, block.height⟩ = .ok r₂ := ⟨_, rfl⟩
  obtain ⟨r₃, htracker⟩ : ∃ r₃, removeInboundTracker r₂ m.senderChain m.inboundHash = .ok r₃ :=
    ⟨_, rfl⟩
  have hbooks₃ := books_marked hbooks hmark htracker
  refine exists_ok_bind hmark (exists_ok_bind htracker ?_)
  split
  · exact ⟨_, rfl⟩
  obtain ⟨found, hfound⟩ := r₃.exists_containsKey hb (Key.cctx m.digest).bytes
  have hfound : hasCctx r₃ m.digest = .ok found := storeError_lift_settlement_eq_ok_iff.2 hfound
  have hnone : found = (l.accounts.cctx m.digest).isSome := eq_of_hasCctx hbooks₃ hfound
  refine exists_ok_bind hfound (exists_ok_guard ?_ ⟨_, rfl⟩)
  rw [hnone, habsent]
  exact Bool.false_ne_true

/-- A report of an event that is finalized already is refused for that. -/
theorem intake_of_finalized {m : InboundVote} (hvalid : m.validate = .ok ())
    (hadmits : Admits config r m)
    (hmarked : isFinalized r m.senderChain m.inboundHash m.eventIndex = .ok true) :
    intake policy config r block m = .error (.inboundFinalized m.senderChain m.inboundHash) := by
  obtain ⟨switches, hswitches, henabled⟩ := hadmits.enabled
  obtain ⟨sender, hsender⟩ := hadmits.sender
  obtain ⟨key, hkey⟩ := hadmits.currentKey
  refine bind_eq hvalid (bind_eq (registryError_lift_eq_ok_iff.2 hswitches)
    ((if_pos henabled).trans (bind_eq hsender ((when_eq hadmits.receiver).trans ?_))))
  exact bind_eq (registryError_lift_eq_ok_iff.2 hkey) (bind_eq hmarked rfl)

/-! ### Votes on outbound transactions -/

/-- What is observed of the attempt in flight can be entered, if the value is the amount or the
attempt has failed. -/
theorem exists_observe {c : Cctx} {m : OutboundVote} {verdict : BallotStatus}
    (hvalue : verdict ≠ .failure → m.valueReceived = c.current.amount) :
    ∃ d, (c.updateCurrent fun a => { a with ballotIndex := some m.digest }).observe m verdict
      = .ok d := by
  refine ⟨_, if_neg ?_⟩
  rw [Cctx.current_updateCurrent]
  exact fun hmismatch => hmismatch.2 (hvalue hmismatch.1)

section Checked

variable {m : OutboundVote} {c : Cctx} {outcome : Registry.VoteOutcome} {r₁ : Recorder b}
  (hb : b.Works) (h : Records r l) (hl : l.Legible) (hvalid : m.validate = .ok ())
  (hc : l.accounts.cctx m.cctxIndex = some c)

include hb h hl hc

theorem cctx?_eq : cctx? r m.cctxIndex = .ok (some c) :=
  storeError_lift_settlement_eq_ok_iff.2
    ((r.getRecord_eq hb h (.cctx m.cctxIndex) (hl.fits (.cctx m.cctxIndex))).trans
      (congrArg Except.ok hc))

include hvalid

/-- A report that is not on the attempt in flight is refused for that. -/
theorem voteOutbound_of_checkAttempt {e : SettlementError} (hcheck : checkAttempt c m = .error e) :
    voteOutbound policy config r block m = .error e := by
  refine bind_eq hvalid (bind_eq (cctx?_eq hb h hl hc) ?_)
  dsimp only
  rw [hcheck]
  rfl

variable (hcheck : checkAttempt c m = .ok ())
  (hcast : Registry.castVote policy r m.request block.height = .ok (outcome, r₁))

include hcheck hcast

/-- **A report that decides that an attempt has succeeded with another value is refused.** -/
theorem voteOutbound_of_mismatch (hfinalized : outcome.finalized = true)
    (hsuccess : outcome.ballot.status = .success) (hvalue : m.valueReceived ≠ c.current.amount) :
    voteOutbound policy config r block m
      = .error (.valueMismatch c.current.amount m.valueReceived) := by
  refine bind_eq hvalid (bind_eq (cctx?_eq hb h hl hc) (bind_eq hcheck
    (bind_eq (registryError_lift_eq_ok_iff.2 hcast) ?_)))
  dsimp only
  rw [if_neg (by simp [hfinalized]), Cctx.observe, Cctx.current_updateCurrent,
    if_pos ⟨by rw [hsuccess]; decide, hvalue⟩]
  rfl

/-- **A report on the attempt in flight is taken**, if its vote is, and if it does not decide that
the attempt has succeeded with another value. -/
theorem exists_voteOutbound (hballots : BallotsFiled l.ballots) (hsound : l.accounts.Sound)
    (hroom : ∀ lane, (l.accounts.nonces lane).next.toNat + 1 < UInt64.size)
    (hvalue : outcome.finalized = true → outcome.ballot.status ≠ .failure →
      m.valueReceived = c.current.amount) :
    ∃ result, voteOutbound policy config r block m = .ok result := by
  refine exists_ok_bind hvalid (exists_ok_bind (cctx?_eq hb h hl hc) (exists_ok_bind hcheck
    (exists_ok_bind (registryError_lift_eq_ok_iff.2 hcast) ?_)))
  dsimp only
  split
  · exact ⟨_, rfl⟩
  next hfinalized =>
  replace hfinalized : outcome.finalized = true := by simpa using hfinalized
  obtain ⟨ballots, hvoted, hbooks⟩ := Registry.voted_of_castVote h hl hballots hcast
  obtain ⟨-, -, hdecided⟩ := hvoted.decides hfinalized
  obtain ⟨c₁, hobserve⟩ := exists_observe (hvalue hfinalized)
  exact exists_ok_bind hobserve (faults_settlement hb.faultsWith hl hsound hroom hc
    (openTicket?_of_checkAttempt hcheck) hbooks hdecided hobserve).exists_of_isFault

end Checked

end Journal

/-! ### Calls -/

section Calls

variable {γ : Type} [Gateway γ] {service : Service} {w : World γ} {call : Call}

/-- On a store that takes writes, a call succeeds if its handler does, -/
theorem Service.exists_answer (haccepts : w.store.rejectsWrites = false)
    (h : ∃ result, (service.handle w.gateway (Recorder.start w.store) call).1 = .ok result) :
    ∃ answer, (service.execute w call).answer = .ok answer := by
  obtain ⟨result, hresult⟩ := h
  obtain ⟨e, -, herror⟩ | ⟨answer, r, effects, -, hreply⟩ := service.execute_cases w call
  · rw [herror haccepts] at hresult
    cases hresult
  · exact ⟨answer, by rw [hreply]⟩

/-- and otherwise it is refused for the same reason. -/
theorem Service.answer_eq_error {e : CallError}
    (h : (service.handle w.gateway (Recorder.start w.store) call).1 = .error e)
    (haccepts : w.store.rejectsWrites = false) :
    (service.execute w call).answer = .error e := by
  obtain ⟨e', hreply, herror⟩ | ⟨answer, r, effects, hok, -⟩ := service.execute_cases w call
  · obtain rfl : e' = e := Except.error.inj ((herror haccepts).symm.trans h)
    rw [hreply]
  · rw [hok] at h
    cases h

section Votes

variable {block : Block} (haccepts : w.store.rejectsWrites = false)

include haccepts

/-- A vote on an inbound transaction succeeds if its handler does, -/
theorem Service.exists_answer_voteInbound {m : InboundVote}
    (h : ∃ result, (Journal.voteInbound service.observers.stalePolicy service.settlement w.gateway
      (Recorder.start w.store) block m).1 = .ok result) :
    ∃ answer, (service.execute w (.voteInbound block m)).answer = .ok answer := by
  obtain ⟨result, hvote⟩ := h
  exact exists_answer haccepts
    ⟨_, mapError_eq_ok_iff.2 (map_eq_ok_iff.2 ⟨result, hvote, rfl⟩)⟩

/-- and so does one on an outbound transaction. -/
theorem Service.exists_answer_voteOutbound {m : OutboundVote}
    (h : ∃ result, Journal.voteOutbound service.observers.stalePolicy service.settlement
      (Recorder.start w.store) block m = .ok result) :
    ∃ answer, (service.execute w (.voteOutbound block m)).answer = .ok answer := by
  obtain ⟨result, hvote⟩ := h
  exact exists_answer haccepts
    ⟨_, mapError_eq_ok_iff.2 (map_eq_ok_iff.2 ⟨result, hvote, rfl⟩)⟩

/-- A vote on an inbound transaction that fails before its deposit is refused for that, -/
theorem Service.answer_voteInbound_of_error {m : InboundVote} {e : SettlementError}
    (h : Journal.intake service.observers.stalePolicy service.settlement (Recorder.start w.store)
      block m = .error e) :
    (service.execute w (.voteInbound block m)).answer = .error (.settlement e) := by
  refine answer_eq_error ?_ haccepts
  rw [handle, Journal.voteInbound, h]
  rfl

/-- and one on an outbound transaction for whatever it fails. -/
theorem Service.answer_voteOutbound_of_error {m : OutboundVote} {e : SettlementError}
    (h : Journal.voteOutbound service.observers.stalePolicy service.settlement
      (Recorder.start w.store) block m = .error e) :
    (service.execute w (.voteOutbound block m)).answer = .error (.settlement e) := by
  refine answer_eq_error ?_ haccepts
  rw [handle, h]
  rfl

end Votes

end Calls

end Settlement
