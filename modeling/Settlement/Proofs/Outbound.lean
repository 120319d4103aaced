import Settlement.Proofs.Footprint
import Settlement.Proofs.Retention
import Settlement.Proofs.Voting

/-!
# What a vote on an outbound transaction does

A vote on an outbound transaction is a vote on the attempt in flight of a stored transaction. As
long as its ballot is not decided, the books stay as they are. The deciding vote settles the
attempt: the ticket of the attempt is retired, the transaction is entered anew, and if the
funds are to go back, a revert follows with a ticket of its own
(`Settlement.Journal.OutboundSettled`).
-/

namespace Settlement

/-- Whether a decided ballot on an outbound transaction may bring the cross-chain transaction
into a state. -/
def BallotStatus.LeadsTo : BallotStatus → CctxStatus → Prop
  | .pending, _ => False
  | .success, s => s = .outboundMined ∨ s = .reverted
  | .failure, s => s = .pendingRevert ∨ s = .aborted

namespace Journal

variable {σ : Type} [WritableStore σ] [LawfulStore σ] {s s' : σ} {p p' : Progress σ}
  {a : Accounts} {ballots : Digest → Option Ballot} {config : SettlementConfig} {block : Block}

/-! ### Settling -/

/-- The attempt in flight of a transaction is settled, as a ballot was decided. A revert that
follows has a ticket of its own. -/
def Settling (a : Accounts) (ballots : Digest → Option Ballot) (verdict : BallotStatus)
    (p p' : Progress σ) : Prop :=
  ∃ lane : Option Lane, p.cctx.Settles p'.cctx (lane.map a.nextTicket) ∧
    Books p'.store (a.issueOn p.cctx.index lane) ballots ∧
    verdict.LeadsTo p'.cctx.status ∧ (p.cctx.Balanced → p'.cctx.Formed)

/-- Executing the attempt in flight and ending the transaction settles the attempt. -/
theorem settling_of_end {verdict : BallotStatus} {next : CctxStatus} {message : String}
    {q : Progress σ} (h : Books p.store a ballots)
    (hend : q.advance next message block = .ok p') (hstore : q.store = p.store)
    (hcctx : q.cctx = p.cctx.executeCurrent) (hmessage : message ≠ "")
    (hterminal : next.isTerminal = true) (hleads : verdict.LeadsTo next)
    (hstage : p.cctx.Balanced → q.cctx.IsAt next) : Settling a ballots verdict p p' := by
  have hformed (hbalanced : p.cctx.Balanced) : p'.cctx.Formed :=
    Progress.formed_of_advance hend hmessage (hcctx ▸ hbalanced.updateCurrent fun _ => rfl)
      (hstage hbalanced)
  obtain ⟨hstore', report, rfl, hp⟩ := Progress.eq_of_advance hend
  rw [hcctx] at hp
  refine ⟨none, ?_, hstore' ▸ hstore ▸ h, ?_, hformed⟩
  · rw [hp]
    exact .of_isTerminal hterminal
  · rw [hp]
    exact hleads

/-- After a success the transaction has ended, whichever attempt it was. -/
theorem settling_of_settleSuccess (h : Books p.store a ballots)
    (hsettle : settleSuccess config p block = .ok p') : Settling a ballots .success p p' := by
  rw [settleSuccess] at hsettle
  split at hsettle
  · next hreverting =>
    exact settling_of_end h hsettle rfl rfl (by simp) rfl (.inr rfl) fun hbalanced =>
      hbalanced.isAt_reverted hreverting
  · next hreverting =>
    exact settling_of_end h hsettle rfl rfl (by simp) rfl (.inl rfl) fun _ =>
      Cctx.isAt_outboundMined hreverting

theorem settling_of_abort {message : String} (h : Books p.store a ballots)
    (hmessage : message ≠ "") (hend : p.abort message block = .ok p') :
    Settling a ballots .failure p p' :=
  settling_of_end (q := { p with cctx := p.cctx.executeCurrent }) h hend rfl rfl hmessage rfl
    (.inr rfl) fun hbalanced => hbalanced.isExecuted_executeCurrent

/-- After a failure of the first attempt a revert follows if it can; otherwise all is given up. -/
theorem settling_of_settleFailure (h : Books p.store a ballots)
    (hfits : Fits (a.nonces ⟨p.cctx.outbound.signingKey, p.cctx.inbound.senderChain⟩))
    (hsettle : settleFailure config p block = .ok p') : Settling a ballots .failure p p' := by
  rw [settleFailure] at hsettle
  split at hsettle
  · rcases ite_eq_ok_iff.1 hsettle with ⟨-, hend⟩ | ⟨hrevertible, hsettle⟩
    · exact settling_of_abort h (by simp) hend
    have hcoin : p.cctx.inbound.coinType ≠ .cmd := by
      simpa [CoinType.isRevertible] using hrevertible
    split at hsettle
    · exact settling_of_abort h (by simp) hsettle
    · next c hrevert =>
      obtain ⟨p₁, hassign, hadvance⟩ := bind_eq_ok_iff.1 hsettle
      have hformed (hbalanced : p.cctx.Balanced) := Progress.formed_of_revert hbalanced hcoin
        hrevert hassign (by simp) hadvance
      obtain ⟨lane, hreverts, hbooks⟩ := Progress.books_revert h hfits hrevert hassign hadvance
      refine ⟨some lane, hreverts.settles, hbooks, ?_, hformed⟩
      obtain ⟨attempt, report, -, -, -, hreport, hcctx⟩ := hreverts.exists_eq
      rw [hcctx]
      exact .inl hreport
  · exact settling_of_abort h (by simp) hsettle
  · cases hsettle

/-- **A ballot that is decided settles the attempt in flight.** -/
theorem settling_of_settle {ballot : Ballot} (h : Books p.store a ballots)
    (hfits : Fits (a.nonces ⟨p.cctx.outbound.signingKey, p.cctx.inbound.senderChain⟩))
    (hsettle : settle config p ballot block = .ok p') :
    Settling a ballots ballot.status p p' := by
  rw [settle] at hsettle
  split at hsettle
  · next hstatus =>
    rw [hstatus]
    exact settling_of_settleSuccess h hsettle
  · next hstatus =>
    rw [hstatus]
    exact settling_of_settleFailure h hfits hsettle
  · cases hsettle

omit [LawfulStore σ] in
/-- A revert is put behind the first attempt only if its outcome is awaited then. -/
theorem isReverting_of_settle {ballot : Ballot} (h : settle config p ballot block = .ok p') :
    p'.cctx.status = .pendingRevert ∨ p'.cctx.isReverting = p.cctx.isReverting := by
  have hadvance {q : Progress σ} {next : CctxStatus} {message : String}
      (h : q.advance next message block = .ok p') : p'.cctx.isReverting = q.cctx.isReverting := by
    obtain ⟨-, report, -, hcctx⟩ := Progress.eq_of_advance h
    rw [hcctx]
    rfl
  have hend {next : CctxStatus} {message : String}
      (h : { p with cctx := p.cctx.executeCurrent }.advance next message block = .ok p') :
      p'.cctx.isReverting = p.cctx.isReverting :=
    (hadvance h).trans (p.cctx.isReverting_updateCurrent .execute)
  rw [settle] at h
  split at h
  · rw [settleSuccess] at h
    rcases ite_eq_ok_iff.1 h with ⟨-, h⟩ | ⟨-, h⟩
    · exact .inr ((hadvance h).trans (p.cctx.isReverting_updateCurrent .execute))
    · exact .inr ((hadvance h).trans (p.cctx.isReverting_updateCurrent .execute))
  · rw [settleFailure] at h
    split at h
    · rcases ite_eq_ok_iff.1 h with ⟨-, h⟩ | ⟨-, h⟩
      · exact .inr (hend h)
      · split at h
        · exact .inr (hend h)
        · obtain ⟨p₁, -, hadvanced⟩ := bind_eq_ok_iff.1 h
          obtain ⟨-, report, hreport, hcctx⟩ := Progress.eq_of_advance hadvanced
          exact .inl (by rw [hcctx]; exact hreport)
    · exact .inr (hend h)
    · cases h
  · cases h

/-! ### Cleaning up -/

/-- The ticket of a settled attempt is retired. -/
theorem books_releaseAttempt {attempt : Attempt} {t : Ticket} (h : Books s a ballots)
    (hticket : attempt.ticket? = some t) (hfits : Fits (a.nonces t.lane))
    (hrelease : releaseAttempt s attempt = .ok s') : Books s' (a.retire t) ballots := by
  obtain ⟨nonce, hnonce, rfl⟩ := Option.map_eq_some_iff.1 hticket
  rw [releaseAttempt, hnonce] at hrelease
  obtain ⟨s₁, hrelease, hremove⟩ := bind_eq_ok_iff.1 hrelease
  have hrelease : Registry.releaseNonce s attempt.lane.signingKey attempt.lane.chainId nonce
      = .ok s₁ := registryError_lift_eq_ok_iff.1 hrelease
  exact (keeps_removeOutboundTracker hremove).books
    (Registry.books_releaseNonce h hfits hrelease)

/-- Marks of fund migrations are in no book. -/
theorem keeps_clearMigration {c : Cctx} (h : clearMigration s c = .ok s') :
    Keeps Key.IsBooked s s' := by
  refine (touches_clearMigration h).keeps_booked fun k hk => ?_
  obtain ⟨-, -, rfl⟩ := hk
  exact id

/-! ### The whole vote -/

/-- A vote on an outbound transaction that is taken: on the attempt in flight of a stored
transaction, which waits for it, by an observer who has not voted. -/
structure OutboundTaken (policy : StalePolicy) (l : Ledger) (block : Block) (m : OutboundVote)
    (c : Cctx) (outcome : Registry.VoteOutcome) (ballots : Digest → Option Ballot) : Prop where
  cctx_eq : l.accounts.cctx m.cctxIndex = some c
  openTicket?_eq : c.openTicket? = some ⟨⟨c.current.signingKey, m.chainId⟩, m.nonce⟩
  isObserver : l.observers.contains m.creator = true
  not_voted : ∀ b, l.ballots m.digest = some b → b.hasVoted m.creator = false
  voted : Registry.Voted policy l ⟨m.digest, .outbound, m.chainId, m.creator, m.vote⟩ block.height
    outcome ballots

/-- What the deciding vote makes of the transaction. -/
structure OutboundSettled (a : Accounts) (m : OutboundVote) (c d : Cctx) (lane : Option Lane)
    (ballot : Ballot) : Prop where
  settles : c.Settles d (lane.map a.nextTicket)
  leadsTo : ballot.status.LeadsTo d.status
  formed : c.Formed → d.Formed
  value_eq : ballot.status = .success → m.valueReceived = c.current.amount
  movesOn : c.MovesOn d
  reverts : d.status = .pendingRevert ∨ d.isReverting = c.isReverting

theorem openTicket?_of_checkAttempt {c : Cctx} {m : OutboundVote}
    (h : checkAttempt c m = .ok ()) :
    c.openTicket? = some ⟨⟨c.current.signingKey, m.chainId⟩, m.nonce⟩ := by
  rw [checkAttempt] at h
  split at h
  · cases h
  · next hawaits =>
    split at h
    · cases h
    · next hnonce =>
      split at h
      · cases h
      · next hchain =>
        rw [Cctx.openTicket?, if_pos (by simpa using hawaits), Attempt.ticket?, Attempt.lane,
          not_not.1 hnonce, not_not.1 hchain]
        rfl

/-- An attempt in flight is not executed yet, so that what is observed of it may be entered. -/
theorem retains_of_observe {c d : Cctx} {m : OutboundVote} {status : BallotStatus}
    (hopen : c.current.isExecuted = false)
    (h : (c.updateCurrent fun a => { a with ballotIndex := some m.digest }).observe m status
      = .ok d) : c.Retains d := by
  rw [(eq_of_observe h).1, Cctx.updateCurrent_updateCurrent]
  exact Cctx.retains_updateCurrent (Attempt.retains_observed hopen m.digest m)

/-- **A decided ballot settles the attempt in flight, and its ticket is retired.** -/
theorem settled_of_decided {l : Ledger} {m : OutboundVote} {c c₁ : Cctx} {ballot : Ballot}
    {effects : Effects} (hl : l.Legible) (hfiled : l.accounts.Filed)
    (hc : l.accounts.cctx m.cctxIndex = some c)
    (hopen : c.openTicket? = some ⟨⟨c.current.signingKey, m.chainId⟩, m.nonce⟩)
    (h : Books s l.accounts ballots)
    (hobserve : (c.updateCurrent fun a => { a with ballotIndex := some m.digest }).observe m
      ballot.status = .ok c₁)
    (hsettle : settle config ⟨s, c₁, effects⟩ ballot block = .ok p)
    (hrelease : releaseAttempt p.store c.current = .ok s') :
    ∃ lane, OutboundSettled l.accounts m c p.cctx lane ballot ∧
      Books s' ((l.accounts.issueOn c.index lane).retireOf
        (some ⟨⟨c.current.signingKey, m.chainId⟩, m.nonce⟩)) ballots := by
  obtain ⟨hc₁, hvalue⟩ := eq_of_observe hobserve
  rw [Cctx.updateCurrent_updateCurrent] at hc₁
  rw [Cctx.current_updateCurrent] at hvalue
  -- What was observed leaves lanes and nonces alone, so the revert is signed with the same key.
  have hfollows (a : Attempt) : a.Follows
      ((Cctx.observed m ∘ fun a => { a with ballotIndex := some m.digest }) a) :=
    ⟨rfl, rfl, id⟩
  have hindex : c₁.index = c.index := by rw [hc₁, Cctx.index_updateCurrent]
  have hkey : c₁.outbound.signingKey = c.outbound.signingKey := by
    rw [hc₁]
    exact congrArg Lane.signingKey (Cctx.lane_outbound_updateCurrent fun a => (hfollows a).lane_eq)
  have hfits : Fits c.outbound.signingKey := hl.fits_signingKey hc
  obtain ⟨lane, hsettles, hbooks, hleads, hbalanced⟩ :=
    settling_of_settle h (hl.fits_nonces (by rw [hkey]; exact hfits)) hsettle
  replace hsettles : c.Settles p.cctx (lane.map l.accounts.nextTicket) :=
    .of_updateCurrent hfollows (hc₁ ▸ hsettles)
  have hcurrent : c.current.signingKey = c.outbound.signingKey :=
    hfiled.signingKey_eq _ _ hc _ c.current_mem_attempts
  have hformed (hc : c.Formed) : p.cctx.Formed :=
    hbalanced (hc₁ ▸ hc.updateCurrent fun _ => rfl)
  have hretains := retains_of_observe (Cctx.eq_of_openTicket? hopen).2.2 hobserve
  have hmovesOn : c.MovesOn p.cctx :=
    hretains.movesOn (hc₁ ▸ c.status_updateCurrent _) (movesOn_of_settle hsettle)
  have hreverts := isReverting_of_settle hsettle
  rw [hc₁, Cctx.isReverting_updateCurrent] at hreverts
  refine ⟨lane, ⟨hsettles, hleads, hformed, hvalue, hmovesOn, hreverts⟩, ?_⟩
  rw [← hindex]
  exact books_releaseAttempt hbooks (Cctx.eq_of_openTicket? hopen).1
    (hl.fits_nonces_issueOn (by rw [hcurrent]; exact hfits) _ lane) hrelease

/-- **The deciding vote enters the transaction anew**, and retires the ticket of its attempt. -/
theorem entered_of_decided {l : Ledger} {m : OutboundVote} {c c₁ : Cctx} {s₂ s₃ : σ}
    {outcome : Registry.VoteOutcome} {receipt receipt' : VoteReceipt} {effects effects' : Effects}
    (hl : l.Legible) (hfiled : l.accounts.Filed) (hc : l.accounts.cctx m.cctxIndex = some c)
    (hopen : c.openTicket? = some ⟨⟨c.current.signingKey, m.chainId⟩, m.nonce⟩)
    (h : Books s l.accounts ballots)
    (hobserve : (c.updateCurrent fun a => { a with ballotIndex := some m.digest }).observe m
      outcome.ballot.status = .ok c₁)
    (hsettle : settle config ⟨s, c₁, effects⟩ outcome.ballot block = .ok p)
    (hrelease : releaseAttempt p.store c.current = .ok s₂)
    (hclear : clearMigration s₂ p.cctx = .ok s₃) (htells : receipt.Tells outcome)
    (hfinish : finish receipt { p with store := s₃ } = .ok (receipt', s', effects')) :
    receipt'.Tells outcome ∧ ∃ lane, OutboundSettled l.accounts m c p.cctx lane outcome.ballot ∧
      Books s' (l.accounts.renew p.cctx lane
        (some ⟨⟨c.current.signingKey, m.chainId⟩, m.nonce⟩)) ballots := by
  obtain ⟨lane, hsettled, hbooks⟩ :=
    settled_of_decided hl hfiled hc hopen h hobserve hsettle hrelease
  obtain ⟨htells', hbooks'⟩ := books_finish (p := { p with store := s₃ })
    ((keeps_clearMigration hclear).books hbooks) htells hfinish
  refine ⟨htells', lane, hsettled, ?_⟩
  rw [Accounts.renew, hsettled.settles.index_eq]
  exact hbooks'

/-- **A vote on an outbound transaction leaves the accounts alone, or it settles the attempt in
flight.** A transaction that has ended takes the mark of its migration with it. -/
theorem taken_of_voteOutbound {policy : StalePolicy} {l : Ledger} {m : OutboundVote}
    {receipt : VoteReceipt} {effects : Effects} (h : Records s l) (hl : l.Legible)
    (hballots : BallotsFiled l.ballots) (hfiled : l.accounts.Filed)
    (hvote : voteOutbound policy config s block m = .ok (receipt, s', effects)) :
    ∃ c outcome ballots, OutboundTaken policy l block m c outcome ballots ∧
      receipt.Tells outcome ∧
      (outcome.finalized = false → Books s' l.accounts ballots ∧ Marks s' l.migrations) ∧
      (outcome.finalized = true → ∃ d lane,
        OutboundSettled l.accounts m c d lane outcome.ballot ∧
        Books s' (l.accounts.renew d lane
          (some ⟨⟨c.current.signingKey, m.chainId⟩, m.nonce⟩)) ballots ∧
        Marks s' (d.clear l.migrations)) := by
  obtain ⟨c, outcome, s₁, hstored, hcheck, hcast, hlinks⟩ := links_of_voteOutbound hvote
  have hc := (eq_of_cctx? h hl hstored).symm
  have hopen := openTicket?_of_checkAttempt hcheck
  obtain ⟨ballots, hvoted, hbooks⟩ := Registry.voted_of_castVote h hl hballots hcast
  refine ⟨c, outcome, ballots,
    ⟨hc, hopen, hvoted.isObserver, fun _ => hvoted.not_voted, hvoted⟩, ?_⟩
  rcases hlinks with ⟨hpending, rfl, htells, -⟩ |
    ⟨hfinalized, c₁, p, s₂, s₃, receipt₁, hobserve, hsettle, hrelease, hclear, htells, hfinish⟩
  · have hmarks := (Registry.touches_castVote hcast).marks (fun _ hk => hk.isPoll) h.marks
    exact ⟨htells, fun _ => ⟨hbooks, hmarks⟩, fun hfinalized => by simp [hpending] at hfinalized⟩
  obtain ⟨htells', lane, hsettled, hbooks'⟩ := entered_of_decided hl hfiled hc hopen hbooks hobserve
    hsettle hrelease hclear htells hfinish
  refine ⟨htells', fun hpending => by simp [hpending] at hfinalized, fun _ =>
    ⟨p.cctx, lane, hsettled, hbooks', ?_⟩⟩
  -- Of all that is written, only the last step before the transaction is stored is about marks.
  have hvoted := (Registry.touches_castVote hcast).marks (fun _ hk => hk.isPoll) h.marks
  have hreleased := (touches_releaseAttempt hrelease).marks
    (fun _ hk => Key.isOutboundTracker_of_isTrackedUnder (hk.isEntered_or.resolve_left id))
    ((writes_settle hsettle).touches.marks (fun _ hk => hk.2.isReservedUnder.isEntered) hvoted)
  exact (touches_finish hfinish).marks (fun _ => nofun) (marks_clearMigration hreleased hclear)

end Journal

end Settlement
