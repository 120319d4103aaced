import Settlement.Journal.Inbound
import Settlement.Journal.Migration
import Settlement.Journal.Tracking
import Settlement.Proofs.Bookkeeping

/-!
# The steps of a transition

What each step of a transition makes of the cross-chain transaction at work, and of the books of
the store. A change of state leaves the attempts as they are, and giving up executes the one in
flight. A revert that is started executes the first attempt and puts a second one behind it, with
the next ticket of its lane (`Settlement.Progress.books_revert`).
-/

namespace Settlement

/-! ### Open tickets -/

theorem CctxStatus.awaitsOutbound_iff {s : CctxStatus} :
    s.awaitsOutbound = true ↔ s = .pendingOutbound ∨ s = .pendingRevert := by
  cases s <;> decide

namespace Cctx

variable {c d : Cctx}

/-- A transaction that has ended waits for no vote. -/
theorem openTicket?_of_isTerminal (h : c.status.isTerminal = true) : c.openTicket? = none := by
  refine if_neg fun hawaits => ?_
  simp only [Journal.awaitsVote, CctxStatus.awaitsOutbound, CctxStatus.isTerminal] at h hawaits
  cases hstatus : c.status <;> simp [hstatus] at h hawaits

/-- A transaction whose attempt in flight is to be signed waits for the vote on it. -/
theorem openTicket?_of_awaitsOutbound (h : c.status.awaitsOutbound = true)
    (hcurrent : c.current.isExecuted = false) : c.openTicket? = c.current.ticket? := by
  refine if_pos ?_
  rw [Journal.awaitsVote, h, hcurrent]
  rfl

/-! ### The attempt in flight -/

/-- Changing the attempt in flight changes the last one. -/
theorem attempts_updateCurrent (c : Cctx) (f : Attempt → Attempt) :
    ∃ before, c.attempts = before ++ [c.current] ∧
      (c.updateCurrent f).attempts = before ++ [f c.current] := by
  cases hrevert : c.revert with
  | none => exact ⟨[], by simp [attempts, current, updateCurrent, hrevert]⟩
  | some a => exact ⟨[c.outbound], by simp [attempts, current, updateCurrent, hrevert]⟩

@[simp]
theorem current_updateCurrent (c : Cctx) (f : Attempt → Attempt) :
    (c.updateCurrent f).current = f c.current := by
  cases hrevert : c.revert <;> simp [current, updateCurrent, hrevert]

@[simp]
theorem updateCurrent_updateCurrent (c : Cctx) (f g : Attempt → Attempt) :
    (c.updateCurrent f).updateCurrent g = c.updateCurrent (g ∘ f) := by
  cases hrevert : c.revert <;> simp [updateCurrent, hrevert]

@[simp]
theorem index_updateCurrent (c : Cctx) (f : Attempt → Attempt) :
    (c.updateCurrent f).index = c.index := by
  cases hrevert : c.revert <;> simp [updateCurrent, hrevert]

@[simp]
theorem inbound_updateCurrent (c : Cctx) (f : Attempt → Attempt) :
    (c.updateCurrent f).inbound = c.inbound := by
  cases hrevert : c.revert <;> simp [updateCurrent, hrevert]

@[simp]
theorem status_updateCurrent (c : Cctx) (f : Attempt → Attempt) :
    (c.updateCurrent f).status = c.status := by
  cases hrevert : c.revert <;> simp [updateCurrent, status, hrevert]

@[simp]
theorem isReverting_updateCurrent (c : Cctx) (f : Attempt → Attempt) :
    (c.updateCurrent f).isReverting = c.isReverting := by
  cases hrevert : c.revert <;> simp [updateCurrent, isReverting, hrevert]

/-- A transaction that has ended with its attempt in flight executed is settled. -/
theorem Settles.of_isTerminal {report : StatusReport} (h : report.status.isTerminal = true) :
    c.Settles { c.executeCurrent with report := report } none := by
  obtain ⟨before, hc, hd⟩ := c.attempts_updateCurrent .execute
  refine ⟨c.index_updateCurrent .execute, c.inbound_updateCurrent .execute,
    ⟨before, c.current.execute, [], hc, hd, ?_, rfl, by simp, rfl⟩, openTicket?_of_isTerminal h⟩
  exact ⟨rfl, rfl, fun _ => rfl⟩

/-- The first attempt stays on its lane. -/
theorem lane_outbound_updateCurrent {f : Attempt → Attempt}
    (hf : ∀ a : Attempt, (f a).lane = a.lane) :
    (c.updateCurrent f).outbound.lane = c.outbound.lane := by
  cases hrevert : c.revert with
  | none =>
    simp only [updateCurrent, hrevert]
    exact hf c.outbound
  | some r => simp only [updateCurrent, hrevert]

/-- What was observed of an attempt does not matter for how it is settled. -/
theorem Settles.of_updateCurrent {f : Attempt → Attempt} {opened : Option Ticket}
    (hf : ∀ a : Attempt, a.Follows (f a)) (h : (c.updateCurrent f).Settles d opened) :
    c.Settles d opened := by
  obtain ⟨before, hbefore, hafter⟩ := c.attempts_updateCurrent f
  have hkey : (c.updateCurrent f).outbound.signingKey = c.outbound.signingKey :=
    congrArg Lane.signingKey (lane_outbound_updateCurrent fun a => (hf a).lane_eq)
  obtain ⟨before', a, more, hc, hd, ha, hexecuted, hmore, htickets⟩ := h.attempts
  rw [current_updateCurrent] at hc ha
  rw [hafter] at hc
  obtain ⟨rfl, -⟩ := List.append_inj' hc rfl
  exact ⟨h.index_eq.trans (c.index_updateCurrent f), h.inbound_eq.trans (c.inbound_updateCurrent f),
    ⟨before, a, more, hbefore, hd, (hf c.current).trans ha, hexecuted,
      fun b hb => (hmore b hb).trans hkey, htickets⟩, h.openTicket?_eq⟩

/-- A revert is added to a transaction without one. -/
theorem eq_of_addRevert {gasLimit : UInt64} (h : c.addRevert gasLimit = .ok d) :
    c.revert = none ∧ d = { c with
      outbound := c.outbound.execute
      revert := some (.fresh c.revertReceiver c.inbound.senderChain c.outbound.amount gasLimit
        c.outbound.signingKey) } := by
  rw [addRevert] at h
  split at h
  · cases h
  · next hnone =>
    cases h
    exact ⟨by simpa [isReverting] using hnone, rfl⟩

end Cctx

/-! ### Steps -/

namespace Progress

variable {σ : Type} {p p' : Progress σ} {block : Block} {message : String}

/-- **A change of state** is made where it is allowed: only the report is written, and the event
says so. -/
theorem advance_eq_ok_iff {next : CctxStatus} :
    p.advance next message block = .ok p' ↔ p.cctx.status.canBecome next = true ∧
      { p with cctx := { p.cctx with report := { p.cctx.report with
          status := next, message := message, updatedAt := block.timestamp } } }.emit
        (.statusChanged p.cctx.index p.cctx.status next message) = p' := by
  rw [advance, Cctx.setStatus]
  split
  · next hnext => exact ⟨fun h => ⟨hnext, Except.ok.inj h⟩, fun h => congrArg _ h.2⟩
  · next hnext => exact ⟨nofun, fun h => absurd h.1 hnext⟩

/-- A change of state leaves everything else as it is. -/
theorem eq_of_advance {next : CctxStatus} (h : p.advance next message block = .ok p') :
    p'.store = p.store ∧ ∃ report : StatusReport, report.status = next ∧
      p'.cctx = { p.cctx with report := report } := by
  obtain ⟨-, rfl⟩ := advance_eq_ok_iff.1 h
  exact ⟨rfl, _, rfl, rfl⟩

/-- Giving up executes the attempt in flight. -/
theorem eq_of_abort (h : p.abort message block = .ok p') :
    p'.store = p.store ∧ ∃ report : StatusReport, report.status = .aborted ∧
      p'.cctx = { p.cctx.executeCurrent with report := report } :=
  eq_of_advance h

/-- A transaction is well formed in the state into which it is brought, if its attempts are so
far and the reason is given. -/
theorem formed_of_advance {next : CctxStatus} (hadvance : p.advance next message block = .ok p')
    (hmessage : message ≠ "") (h : p.cctx.Balanced) (hstage : p.cctx.IsAt next) :
    p'.cctx.Formed := by
  obtain ⟨-, rfl⟩ := advance_eq_ok_iff.1 hadvance
  exact ⟨⟨h.amount_eq, h.payment_eq, h.isExecuted⟩, hstage, hmessage⟩

/-- A transaction that is given up is well formed, whatever stage it was in. -/
theorem formed_of_abort (hend : p.abort message block = .ok p') (hmessage : message ≠ "")
    (h : p.cctx.Balanced) : p'.cctx.Formed :=
  formed_of_advance hend hmessage (h.updateCurrent fun _ => rfl) h.isExecuted_executeCurrent

/-- The attempt in flight is given a nonce. -/
theorem exists_nonce_of_assignNonce [WritableStore σ] (h : p.assignNonce = .ok p') :
    ∃ nonce, p'.cctx = p.cctx.setNonce (some nonce) := by
  obtain ⟨⟨nonce, s₁⟩, -, h⟩ := bind_eq_ok_iff.1 h
  obtain ⟨s₂, -, h⟩ := bind_eq_ok_iff.1 h
  cases h
  exact ⟨nonce, rfl⟩

/-- **A revert that is started brings the value back.** -/
theorem formed_of_revert [WritableStore σ] {c : Cctx} {gasLimit : UInt64} {p₁ : Progress σ}
    (h : p.cctx.Balanced) (hcoin : p.cctx.inbound.coinType ≠ .cmd)
    (hrevert : p.cctx.addRevert gasLimit = .ok c)
    (hassign : { p with cctx := c }.assignNonce = .ok p₁) (hmessage : message ≠ "")
    (hadvance : p₁.advance .pendingRevert message block = .ok p') : p'.cctx.Formed := by
  obtain ⟨-, hc⟩ := Cctx.eq_of_addRevert hrevert
  obtain ⟨nonce, hcctx⟩ := exists_nonce_of_assignNonce hassign
  rw [hc] at hcctx
  refine formed_of_advance hadvance hmessage ?_ ?_
  · rw [hcctx]
    refine ⟨h.amount_eq, fun r hr => ?_, fun _ _ => rfl⟩
    cases hr
    rfl
  · rw [hcctx]
    exact ⟨hcoin, rfl, _, rfl, rfl, rfl⟩

/-- A transaction with a revert that has been given a nonce. -/
structure Reverts (a : Accounts) (c d : Cctx) (lane : Lane) : Prop where
  revert_eq : c.revert = none
  lane_eq : lane = ⟨c.outbound.signingKey, c.inbound.senderChain⟩
  exists_eq : ∃ (attempt : Attempt) (report : StatusReport),
    attempt.ticket? = some (a.nextTicket lane) ∧ attempt.isExecuted = false ∧
      attempt.signingKey = c.outbound.signingKey ∧ report.status = .pendingRevert ∧
      d = { c with outbound := c.outbound.execute, revert := some attempt, report := report }

namespace Reverts

variable {a : Accounts} {c d : Cctx} {lane : Lane}

theorem openTicket?_eq (h : Reverts a c d lane) : d.openTicket? = some (a.nextTicket lane) := by
  obtain ⟨attempt, report, hticket, hexecuted, -, hreport, rfl⟩ := h.exists_eq
  rw [Cctx.openTicket?_of_awaitsOutbound]
  · exact hticket
  · rw [Cctx.status, hreport]
    rfl
  · exact hexecuted

/-- The start of a revert settles the first attempt. -/
theorem settles (h : Reverts a c d lane) : c.Settles d (some (a.nextTicket lane)) := by
  have hopen := h.openTicket?_eq
  have hcurrent : c.current = c.outbound := Cctx.current_eq_outbound h.revert_eq
  obtain ⟨attempt, report, hticket, -, hkey, -, rfl⟩ := h.exists_eq
  refine ⟨rfl, rfl, ⟨[], c.outbound.execute, [attempt], ?_, rfl, ?_, rfl, ?_, ?_⟩, hopen⟩
  · rw [Cctx.attempts, h.revert_eq, hcurrent]
    rfl
  · rw [hcurrent]
    exact ⟨rfl, rfl, fun _ => rfl⟩
  · simpa using hkey
  · simp [hticket]

end Reverts

/-- **A revert is started with the next ticket of its lane.** -/
theorem books_revert [WritableStore σ] [LawfulStore σ] {a : Accounts}
    {ballots : Digest → Option Ballot} {c : Cctx} {gasLimit : UInt64} {p₁ : Progress σ}
    (h : Books p.store a ballots)
    (hfits : Fits (a.nonces ⟨p.cctx.outbound.signingKey, p.cctx.inbound.senderChain⟩))
    (hrevert : p.cctx.addRevert gasLimit = .ok c)
    (hassign : { p with cctx := c }.assignNonce = .ok p₁)
    (hadvance : p₁.advance .pendingRevert message block = .ok p') :
    ∃ lane, Reverts a p.cctx p'.cctx lane ∧ Books p'.store (a.issue lane p.cctx.index) ballots := by
  obtain ⟨hnone, hc⟩ := Cctx.eq_of_addRevert hrevert
  have hlane : c.current.lane = ⟨p.cctx.outbound.signingKey, p.cctx.inbound.senderChain⟩ := by
    rw [hc]
    rfl
  have hindex : c.index = p.cctx.index := by rw [hc]
  obtain ⟨hcctx, hbooks⟩ := books_assignNonce (p := { p with cctx := c }) h (hlane ▸ hfits) hassign
  obtain ⟨hstore, report, hreport, hcctx'⟩ := eq_of_advance hadvance
  simp only [hlane, hindex] at hcctx hbooks
  rw [hcctx, hc] at hcctx'
  refine ⟨_, ⟨hnone, rfl, _, report, ?_, ?_, ?_, hreport, hcctx'⟩, hstore ▸ hbooks⟩
  · rfl
  · rfl
  · rfl

end Progress

/-! ### New transactions -/

/-- A transaction of which nothing has been done yet: its only attempt has neither a nonce nor an
outcome, and carries the value that came in. -/
structure Cctx.IsBlank (c : Cctx) : Prop where
  status_eq : c.status = .pendingInbound
  revert_eq : c.revert = none
  nonce_eq : c.outbound.nonce = none
  isExecuted_eq : c.outbound.isExecuted = false
  amount_eq : c.outbound.amount = c.inbound.amount

theorem Cctx.IsBlank.balanced {c : Cctx} (h : c.IsBlank) : c.Balanced :=
  .of_revert_eq_none h.revert_eq h.amount_eq

namespace Accounts

/-- A new transaction after its first transition. If it waits for a vote, it is given the next
ticket of a lane for that, and otherwise it has none. -/
structure Starts (a : Accounts) (c d : Cctx) (lane : Option Lane) : Prop where
  index_eq : d.index = c.index
  inbound_eq : d.inbound = c.inbound
  tickets_eq : d.tickets = (lane.map a.nextTicket).toList
  openTicket?_eq : d.openTicket? = lane.map a.nextTicket
  signed_eq : d.outbound.signingKey = c.outbound.signingKey
  signingKey_eq : ∀ b ∈ d.attempts, b.signingKey = d.outbound.signingKey
  formed : d.Formed

namespace Starts

variable {a : Accounts} {c d : Cctx} {lane : Option Lane}

/-- A blank transaction whose attempt is settled at once. -/
theorem of_settles (hc : c.IsBlank) (h : c.Settles d (lane.map a.nextTicket))
    (hformed : d.Formed) : a.Starts c d lane := by
  have hattempts : c.attempts = [c.outbound] := by rw [Cctx.attempts, hc.revert_eq]; rfl
  refine ⟨h.index_eq, h.inbound_eq, ?_, h.openTicket?_eq, h.signed_eq, h.signingKey_eq ?_, hformed⟩
  · rw [h.tickets_eq, Cctx.tickets, hattempts]
    simp [Attempt.ticket?, hc.nonce_eq]
  · simp [hattempts]

/-- A new transaction opens under an index that was free. -/
theorem opens (h : a.Starts c d lane) (habsent : a.cctx c.index = none) : a.Opens d lane := by
  rw [← h.index_eq] at habsent
  refine ⟨habsent, ⟨?_, h.openTicket?_eq, ?_⟩, h.signingKey_eq, h.formed⟩
  · rw [habsent, h.tickets_eq]
    rfl
  · rw [habsent]
    rfl

end Starts

end Accounts

section Send

variable {σ : Type} [WritableStore σ] [LawfulStore σ] {p p₁ p' : Progress σ} {block : Block}
  {message : String} {a : Accounts} {ballots : Digest → Option Ballot}

/-- **A blank transaction is sent with the next ticket of its lane.** -/
theorem Progress.books_send (h : Books p.store a ballots) (hblank : p.cctx.IsBlank)
    (hfits : Fits (a.nonces p.cctx.outbound.lane)) (hassign : p.assignNonce = .ok p₁)
    (hmessage : message ≠ "") (hadvance : p₁.advance .pendingOutbound message block = .ok p') :
    a.Starts p.cctx p'.cctx (some p.cctx.outbound.lane) ∧
      Books p'.store (a.issue p.cctx.outbound.lane p.cctx.index) ballots := by
  have hcurrent : p.cctx.current = p.cctx.outbound := Cctx.current_eq_outbound hblank.revert_eq
  obtain ⟨hcctx, hbooks⟩ := books_assignNonce h (hcurrent ▸ hfits) hassign
  obtain ⟨hstore, report, hreport, hcctx'⟩ := eq_of_advance hadvance
  rw [hcurrent] at hcctx hbooks
  rw [Cctx.setNonce, Cctx.updateCurrent, hblank.revert_eq] at hcctx
  have hformed : p'.cctx.Formed := by
    refine Progress.formed_of_advance hadvance hmessage ?_ ?_
    · rw [hcctx]
      exact .of_revert_eq_none rfl hblank.amount_eq
    · rw [hcctx]
      exact ⟨rfl, hblank.isExecuted_eq, rfl⟩
  rw [hcctx] at hcctx'
  have hattempts : p'.cctx.attempts = [{ p.cctx.outbound with
      nonce := some (a.nonces p.cctx.outbound.lane).next }] := by
    rw [hcctx']
    rfl
  have hopen : p'.cctx.openTicket? = some (a.nextTicket p.cctx.outbound.lane) := by
    rw [hcctx', Cctx.openTicket?_of_awaitsOutbound]
    · rfl
    · exact congrArg CctxStatus.awaitsOutbound hreport
    · exact hblank.isExecuted_eq
  refine ⟨⟨by rw [hcctx'], by rw [hcctx'], ?_, hopen, by rw [hcctx'], ?_, hformed⟩, hstore ▸ hbooks⟩
  · rw [Cctx.tickets, hattempts]
    rfl
  · rw [hattempts, hcctx']
    simp

omit [LawfulStore σ] in
/-- Storing the transaction changes nothing but the store. -/
theorem Progress.eq_of_save (hsave : p.save = .ok p') :
    ∃ s, Journal.setCctx p.store p.cctx = .ok s ∧ p' = { p with store := s } := by
  obtain ⟨_, -, hsave⟩ := bind_eq_ok_iff.1 hsave
  obtain ⟨s, hset, hsave⟩ := bind_eq_ok_iff.1 hsave
  cases hsave
  exact ⟨s, hset, rfl⟩

/-- **The transaction is entered as it has become.** -/
theorem Progress.books_save (h : Books p.store a ballots) (hsave : p.save = .ok p') :
    p'.cctx = p.cctx ∧ Books p'.store (a.file p.cctx) ballots := by
  obtain ⟨s, hset, rfl⟩ := eq_of_save hsave
  exact ⟨rfl, Journal.books_setCctx h hset⟩

/-- A receipt says of the ballot what the vote has come to. -/
structure VoteReceipt.Tells (receipt : VoteReceipt) (outcome : Registry.VoteOutcome) : Prop where
  isNew_eq : receipt.isNewBallot = outcome.isNew
  finalized_eq : receipt.finalized = outcome.finalized

omit [LawfulStore σ] in
/-- What was to be released is released once the transaction is stored. -/
theorem Journal.tells_of_finish {receipt receipt' : VoteReceipt} {outcome : Registry.VoteOutcome}
    {s : σ} {effects : Effects} (htells : receipt.Tells outcome)
    (hfinish : finish receipt p = .ok (receipt', s, effects)) :
    receipt'.Tells outcome ∧ effects = p.effects := by
  obtain ⟨p₁, hsave, hfinish⟩ := bind_eq_ok_iff.1 hfinish
  cases hfinish
  obtain ⟨s, -, rfl⟩ := Progress.eq_of_save hsave
  exact ⟨⟨htells.isNew_eq, htells.finalized_eq⟩, rfl⟩

theorem Journal.books_finish {receipt receipt' : VoteReceipt} {outcome : Registry.VoteOutcome}
    {s : σ} {effects : Effects} (h : Books p.store a ballots) (htells : receipt.Tells outcome)
    (hfinish : finish receipt p = .ok (receipt', s, effects)) :
    receipt'.Tells outcome ∧ Books s (a.file p.cctx) ballots := by
  have htells' := (tells_of_finish htells hfinish).1
  obtain ⟨p₁, hsave, hfinish⟩ := bind_eq_ok_iff.1 hfinish
  cases hfinish
  exact ⟨htells', (Progress.books_save h hsave).2⟩

end Send

/-! ### Whole transitions -/

namespace Journal

variable {σ γ : Type} [WritableStore σ] {s s' : σ} {config : SettlementConfig} {block : Block}
  {effects : Effects}

/-- How a vote comes to its deposit or ends before it, once it is cast. The deciding vote marks the
event and removes its tracker; if the ballot has not failed, a transaction is made of the message,
under whose index there is none. -/
inductive IntakeEnds (s₁ : σ) (block : Block) (m : InboundVote) (key : SigningKey)
    (outcome : Registry.VoteOutcome) (receipt : VoteReceipt) : Intake σ → Prop
  | pending (h : outcome.finalized = false) :
      IntakeEnds s₁ block m key outcome receipt (.counted receipt s₁
        ⟨ballotEvents outcome.isNew m.digest .inbound m.senderChain, none⟩)
  | failed {s₂ s₃ : σ} (h : outcome.finalized = true)
      (hmarked : setFinalized s₁ ⟨m.senderChain, m.inboundHash, m.eventIndex, block.height⟩
        = .ok s₂)
      (hremoved : removeInboundTracker s₂ m.senderChain m.inboundHash = .ok s₃)
      (hfailure : outcome.ballot.status = .failure) :
      IntakeEnds s₁ block m key outcome receipt (.counted receipt s₃
        ⟨ballotEvents outcome.isNew m.digest .inbound m.senderChain, none⟩)
  | opened {s₂ s₃ : σ} (h : outcome.finalized = true)
      (hmarked : setFinalized s₁ ⟨m.senderChain, m.inboundHash, m.eventIndex, block.height⟩
        = .ok s₂)
      (hremoved : removeInboundTracker s₂ m.senderChain m.inboundHash = .ok s₃)
      (habsent : hasCctx s₃ m.digest = .ok false) (hstands : outcome.ballot.status ≠ .failure) :
      IntakeEnds s₁ block m key outcome receipt (.opened receipt
        ⟨s₃, .ofInbound m m.digest key.pubkey block,
          Effects.emit ⟨ballotEvents outcome.isNew m.digest .inbound m.senderChain, none⟩
            (.inboundFinalized m.digest m.senderChain m.inboundHash)⟩)

/-- The links of a vote on an inbound transaction before the deposit: the message is in order, its
event is not marked, and the vote is cast on its ballot. -/
structure IntakeLinks (policy : StalePolicy) (s : σ) (block : Block) (m : InboundVote)
    (key : SigningKey) (outcome : Registry.VoteOutcome) (s₁ : σ) (r : Intake σ) : Prop where
  valid : m.validate = .ok ()
  current_eq : Registry.currentKey s = .ok key
  unmarked : isFinalized s m.senderChain m.inboundHash m.eventIndex = .ok false
  cast_eq : Registry.castVote policy s ⟨m.digest, .inbound, m.senderChain, m.creator, .yes⟩
    block.height = .ok (outcome, s₁)
  ends : IntakeEnds s₁ block m key outcome
    ⟨m.digest, outcome.isNew, outcome.finalized, none, none⟩ r

theorem links_of_intake {policy : StalePolicy} {m : InboundVote} {r : Intake σ}
    (h : intake policy config s block m = .ok r) :
    ∃ key outcome s₁, IntakeLinks policy s block m key outcome s₁ r := by
  obtain ⟨_, hvalid, h⟩ := bind_eq_ok_iff.1 h
  obtain ⟨switches, -, h⟩ := bind_eq_ok_iff.1 h
  obtain ⟨-, h⟩ := unless_eq_ok_iff.1 h
  obtain ⟨_, -, h⟩ := bind_eq_ok_iff.1 h
  replace h := ok_of_when h
  obtain ⟨key, hkey, h⟩ := bind_eq_ok_iff.1 h
  obtain ⟨found, hfound, h⟩ := bind_eq_ok_iff.1 h
  obtain ⟨hunmarked, h⟩ := guard_eq_ok_iff.1 h
  obtain rfl := Bool.not_eq_true _ ▸ hunmarked
  obtain ⟨⟨outcome, s₁⟩, hcast, h⟩ := bind_eq_ok_iff.1 h
  refine ⟨key, outcome, s₁, hvalid, registryError_lift_eq_ok_iff.1 hkey, hfound,
    registryError_lift_eq_ok_iff.1 hcast, ?_⟩
  rcases ite_eq_ok_iff.1 h with ⟨hpending, h⟩ | ⟨hdecided, h⟩
  · cases h
    exact .pending (by simpa using hpending)
  have hfinalized : outcome.finalized = true := by simpa using hdecided
  obtain ⟨s₂, hmarked, h⟩ := bind_eq_ok_iff.1 h
  obtain ⟨s₃, hremoved, h⟩ := bind_eq_ok_iff.1 h
  rcases ite_eq_ok_iff.1 h with ⟨hfailure, h⟩ | ⟨hstands, h⟩
  · cases h
    exact .failed hfinalized hmarked hremoved hfailure
  obtain ⟨found, hfound, h⟩ := bind_eq_ok_iff.1 h
  obtain ⟨habsent, h⟩ := guard_eq_ok_iff.1 h
  obtain rfl := Bool.not_eq_true _ ▸ habsent
  cases h
  exact .opened hfinalized hmarked hremoved hfound hstands

/-- A vote that is accepted is only counted, or the transaction that it opens is stored as the
deposit has left it. The gateway is asked in the second case alone. -/
theorem intake_of_voteInbound [Gateway γ] {policy : StalePolicy} {g g' : γ} {m : InboundVote}
    {receipt : VoteReceipt}
    (h : voteInbound policy config g s block m = (.ok (receipt, s', effects), g')) :
    intake policy config s block m = .ok (.counted receipt s' effects) ∧ g' = g ∨
      ∃ receipt₀ p p', intake policy config s block m = .ok (.opened receipt₀ p) ∧
        deposit config g p block = (.ok p', g') ∧
        finish receipt₀ p' = .ok (receipt, s', effects) := by
  rw [voteInbound] at h
  split at h
  · cases congrArg Prod.fst h
  · next hintake =>
    cases h
    exact .inl ⟨hintake, rfl⟩
  · next receipt₀ p hintake =>
    cases hdeposit : deposit config g p block with
    | mk settled g₁ =>
    rw [hdeposit] at h
    obtain ⟨p', rfl, hfinish⟩ := bind_eq_ok_iff.1 (congrArg Prod.fst h)
    obtain rfl : g₁ = g' := congrArg Prod.snd h
    exact .inr ⟨receipt₀, p, p', hintake, hdeposit, hfinish⟩

/-- What is observed of an attempt is entered into the attempt in flight. -/
theorem eq_of_observe {c d : Cctx} {m : OutboundVote} {status : BallotStatus}
    (h : c.observe m status = .ok d) :
    d = c.updateCurrent (Cctx.observed m) ∧
      (status = .success → m.valueReceived = c.current.amount) := by
  rw [Cctx.observe] at h
  split at h
  · cases h
  · next hvalue =>
    cases h
    refine ⟨rfl, fun hsuccess => ?_⟩
    by_contra hne
    exact hvalue ⟨by rw [hsuccess]; decide, hne⟩

/-- The links of a vote that is accepted: the vote is cast on the attempt in flight of a stored
transaction, and if it is the deciding one, the outcome is entered, the attempt is settled, its
ticket released and the mark of a migration that has ended is cleared. -/
theorem links_of_voteOutbound {policy : StalePolicy} {m : OutboundVote} {receipt : VoteReceipt}
    {effects : Effects}
    (hvote : voteOutbound policy config s block m = .ok (receipt, s', effects)) :
    ∃ c outcome s₁, cctx? s m.cctxIndex = .ok (some c) ∧ checkAttempt c m = .ok () ∧
      Registry.castVote policy s ⟨m.digest, .outbound, m.chainId, m.creator, m.vote⟩ block.height
        = .ok (outcome, s₁) ∧
      (outcome.finalized = false ∧ s₁ = s' ∧ receipt.Tells outcome ∧
          effects = ⟨ballotEvents outcome.isNew m.digest .outbound m.chainId, none⟩ ∨
        outcome.finalized = true ∧ ∃ c₁ p s₂ s₃ receipt₁,
          (c.updateCurrent fun a => { a with ballotIndex := some m.digest }).observe m
            outcome.ballot.status = .ok c₁ ∧
          settle config
            ⟨s₁, c₁, ballotEvents outcome.isNew m.digest .outbound m.chainId, none⟩
            outcome.ballot block = .ok p ∧
          releaseAttempt p.store c.current = .ok s₂ ∧ clearMigration s₂ p.cctx = .ok s₃ ∧
          receipt₁.Tells outcome ∧
          finish receipt₁ { p with store := s₃ } = .ok (receipt, s', effects)) := by
  obtain ⟨_, -, hvote⟩ := bind_eq_ok_iff.1 hvote
  obtain ⟨stored, hstored, hvote⟩ := bind_eq_ok_iff.1 hvote
  split at hvote
  swap
  · simp at hvote
  next c =>
  obtain ⟨_, hcheck, hvote⟩ := bind_eq_ok_iff.1 hvote
  obtain ⟨⟨outcome, s₁⟩, hcast, hvote⟩ := bind_eq_ok_iff.1 hvote
  refine ⟨c, outcome, s₁, hstored, hcheck, registryError_lift_eq_ok_iff.1 hcast, ?_⟩
  rcases ite_eq_ok_iff.1 hvote with ⟨hpending, hvote⟩ | ⟨hfinalized, hvote⟩
  · cases hvote
    exact .inl ⟨by simpa using hpending, rfl, ⟨rfl, rfl⟩, rfl⟩
  obtain ⟨c₁, hobserve, hvote⟩ := bind_eq_ok_iff.1 hvote
  obtain ⟨p, hsettle, hvote⟩ := bind_eq_ok_iff.1 hvote
  obtain ⟨s₂, hrelease, hvote⟩ := bind_eq_ok_iff.1 hvote
  obtain ⟨s₃, hclear, hfinish⟩ := bind_eq_ok_iff.1 hvote
  exact .inr ⟨by simpa using hfinalized, c₁, p, s₂, s₃, _, hobserve, hsettle, hrelease, hclear,
    ⟨rfl, rfl⟩, hfinish⟩

/-- The links of a fund migration that is accepted: nothing is marked on the chain or stored under
the index, the transaction is sent and stored, and the chain is marked. -/
structure MigrationLinks (config : SettlementConfig) (s : σ) (block : Block) (chainId : ChainId)
    (amount : U256) (current newer : SigningKey) (index : Digest) (p₁ p₂ p₃ : Progress σ)
    (s' : σ) (effects : Effects) : Prop where
  unmarked : Registry.fundMigration? s chainId = .ok none
  current_eq : Registry.currentKey s = .ok current
  newer_eq : Registry.newerKey? s = .ok (some newer)
  index_eq : index = (migrationPreimage chainId amount current newer block.height).digest
  absent : hasCctx s index = .ok false
  assigned : ∃ chain, Progress.assignNonce
    ⟨s, migrationCctx config chain chainId amount current newer index block, .none⟩ = .ok p₁
  advanced : ∃ message, message ≠ "" ∧ p₁.advance .pendingOutbound message block = .ok p₂
  saved : p₂.save = .ok p₃
  marked : Registry.setFundMigration p₃.store ⟨chainId, index, block.height⟩ = .ok s'
  effects_eq : effects = p₃.effects.emit (.migrationStarted index chainId amount)

theorem links_of_migrateFunds {chainId : ChainId} {amount : U256} {index : Digest}
    (hmigrate : migrateFunds config s block chainId amount = .ok (index, s', effects)) :
    ∃ current newer p₁ p₂ p₃,
      MigrationLinks config s block chainId amount current newer index p₁ p₂ p₃ s' effects := by
  obtain ⟨switches, -, hmigrate⟩ := bind_eq_ok_iff.1 hmigrate
  obtain ⟨-, hmigrate⟩ := unless_eq_ok_iff.1 hmigrate
  obtain ⟨chain, -, hmigrate⟩ := bind_eq_ok_iff.1 hmigrate
  obtain ⟨-, hmigrate⟩ := guard_eq_ok_iff.1 hmigrate
  obtain ⟨migration, hmigration, hmigrate⟩ := bind_eq_ok_iff.1 hmigrate
  obtain ⟨hunmarked, hmigrate⟩ := guard_eq_ok_iff.1 hmigrate
  obtain rfl := Option.not_isSome_iff_eq_none.1 hunmarked
  obtain ⟨current, hcurrent, hmigrate⟩ := bind_eq_ok_iff.1 hmigrate
  obtain ⟨newer, hnewer, hmigrate⟩ := bind_eq_ok_iff.1 hmigrate
  split at hmigrate
  swap
  · exact absurd hmigrate throw_ne_ok
  obtain ⟨pending, -, hmigrate⟩ := bind_eq_ok_iff.1 hmigrate
  obtain ⟨-, hmigrate⟩ := guard_eq_ok_iff.1 hmigrate
  obtain ⟨found, hfound, hmigrate⟩ := bind_eq_ok_iff.1 hmigrate
  obtain ⟨habsent, hmigrate⟩ := guard_eq_ok_iff.1 hmigrate
  obtain rfl := Bool.not_eq_true _ ▸ habsent
  obtain ⟨p₁, hassign, hmigrate⟩ := bind_eq_ok_iff.1 hmigrate
  obtain ⟨p₂, hadvance, hmigrate⟩ := bind_eq_ok_iff.1 hmigrate
  obtain ⟨p₃, hsave, hmigrate⟩ := bind_eq_ok_iff.1 hmigrate
  obtain ⟨s₁, hmark, hmigrate⟩ := bind_eq_ok_iff.1 hmigrate
  cases hmigrate
  exact ⟨current, _, p₁, p₂, p₃, registryError_lift_eq_ok_iff.1 hmigration,
    registryError_lift_eq_ok_iff.1 hcurrent, registryError_lift_eq_ok_iff.1 hnewer, rfl, hfound,
    ⟨chain, hassign⟩, ⟨_, by simp, hadvance⟩, hsave, registryError_lift_eq_ok_iff.1 hmark, rfl⟩

/-- A report of an inbound transaction that is accepted is entered. -/
theorem set_of_addInboundTracker {m : InboundHashReport} (h : addInboundTracker s m = .ok s') :
    setInboundTracker s ⟨m.chainId, m.txHash, m.coinType, m.creator.account⟩ = .ok s' := by
  obtain ⟨-, h⟩ := guard_eq_ok_iff.1 h
  obtain ⟨_, -, h⟩ := bind_eq_ok_iff.1 h
  obtain ⟨_, -, h⟩ := bind_eq_ok_iff.1 h
  exact h

/-- A key is found only if the nonce belongs to it and the attempt is not settled. -/
theorem owns_of_findOwner {chainId : ChainId} {nonce : UInt64} {keys : List String} {key : String}
    (h : findOwner s chainId nonce keys = .ok (some key)) :
    ownsUnsettled s key chainId nonce = .ok true := by
  induction keys with
  | nil => cases h
  | cons k keys ih =>
    obtain ⟨owns, howns, h⟩ := bind_eq_ok_iff.1 h
    rcases ite_eq_ok_iff.1 h with ⟨hyes, h⟩ | ⟨-, h⟩
    · cases h
      rw [howns, hyes]
    · exact ih h

/-- The links of a report that is accepted: the nonce belongs to an attempt that is not settled, and
the hash is entered into its tracker unless it is known already. -/
structure ReportLinks (config : SettlementConfig) (s : σ) (m : OutboundHashReport) (t : Ticket)
    (stored : Option OutboundTracker) (s' : σ) : Prop where
  txHash_ne : m.txHash ≠ ""
  chainId_eq : t.lane.chainId = m.chainId
  nonce_eq : t.nonce = m.nonce
  owns : ownsUnsettled s t.lane.signingKey t.lane.chainId t.nonce = .ok true
  stored_eq : outboundTracker? s t.lane.signingKey t.lane.chainId t.nonce = .ok stored
  entered : s' = s ∨
    let tracker := stored.getD (.fresh t.lane.signingKey t.lane.chainId t.nonce)
    tracker.contains m.txHash = false ∧ tracker.hashes.length < config.maxTrackerHashes.toNat ∧
      setOutboundTracker s (tracker.add ⟨m.txHash, m.creator.account⟩) = .ok s'

theorem links_of_addOutboundTracker {m : OutboundHashReport}
    (h : addOutboundTracker config s m = .ok s') :
    ∃ t stored, ReportLinks config s m t stored s' := by
  obtain ⟨hne, h⟩ := guard_eq_ok_iff.1 h
  obtain ⟨_, -, h⟩ := bind_eq_ok_iff.1 h
  obtain ⟨_, -, h⟩ := bind_eq_ok_iff.1 h
  obtain ⟨_, -, h⟩ := bind_eq_ok_iff.1 h
  obtain ⟨owner, howner, h⟩ := bind_eq_ok_iff.1 h
  split at h
  swap
  · simp at h
  next key =>
  obtain ⟨stored, hstored, h⟩ := bind_eq_ok_iff.1 h
  refine ⟨⟨⟨key, m.chainId⟩, m.nonce⟩, stored, hne, rfl, rfl, owns_of_findOwner howner, hstored, ?_⟩
  rcases ite_eq_ok_iff.1 h with ⟨-, h⟩ | ⟨hnew, h⟩
  · cases h
    exact .inl rfl
  · obtain ⟨hroom, h⟩ := guard_eq_ok_iff.1 h
    exact .inr ⟨by simpa using hnew, Nat.lt_of_not_le hroom, h⟩

end Journal

end Settlement
