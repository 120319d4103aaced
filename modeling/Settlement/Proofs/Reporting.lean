import Settlement.Proofs.Continuation
import Settlement.Proofs.Receipts
import Settlement.Proofs.SettledOnce

/-!
# One more report

When observers report the same, one after the other, then what is known between two reports is how
far they have come: their votes gather on the ballot, or they were a quorum
(`Settlement.World.DepositReported`, `Settlement.World.OutcomeReported`). The next report is taken
or refused by that, and carries it on. It is counted as long as there is no quorum, it opens the
transaction or settles the attempt when it completes the quorum, and it is refused after that.

There is one exception. A report that an attempt has succeeded with another value than its amount is
refused as soon as it would complete a quorum, so that its ballot stays one vote short of it.

Main statements: `Settlement.World.Continues.deposit_counted`,
`Settlement.World.Continues.outcome_counted`.
-/

namespace Settlement

variable {γ : Type} [Gateway γ] {service : Service} {w w' : World γ} {observers : ObserverSet}
  {percent : UInt8} {voters : List ObserverId} {s : ObserverId × Block}

/-- A report that is refused leaves the books as they are. -/
theorem Service.books_eq_of_error {call : Call} {e : CallError}
    (h : (service.execute w call).answer = .error e) :
    (service.execute w call).world.accounts = w.accounts ∧
      (service.execute w call).world.ballots = w.ballots := by
  have hstore := store_eq_of_error h
  rw [World.accounts, World.ballots, hstore]
  exact ⟨rfl, rfl⟩

/-! ### Reports of inbound transactions -/

/-- The report as another observer submits it. -/
def InboundVote.submittedBy (m : InboundVote) (o : ObserverId) : InboundVote :=
  { m with creator := o }

/-- The call by which an observer submits the report, at a block. -/
def InboundVote.submission (m : InboundVote) (s : ObserverId × Block) : Call :=
  .voteInbound s.2 (m.submittedBy s.1)

/-- A report without a fault has none if another observer submits it. -/
theorem InboundVote.validate_submittedBy {m : InboundVote} (h : m.validate = .ok ())
    {o : ObserverId} (ho : o.account ≠ "") : (m.submittedBy o).validate = .ok () := by
  have hfault : m.fault? = none := by
    rw [validate] at h
    split at h
    · cases h
    · next hnone => exact hnone
  have hfault' : (m.submittedBy o).fault? = none := by
    rw [fault?] at hfault
    split at hfault
    · cases hfault
    · exact (if_neg ho).trans hfault
  rw [validate, hfault']

/-- Some observers have reported an inbound transaction. Their votes gather on its ballot, or they
were a quorum and the event is marked. -/
inductive World.DepositReported (w : World γ) (m : InboundVote) (quorum : Nat)
    (voters : List ObserverId) : Prop
  | gathering (hfew : voters.length < quorum) (hmarked : w.accounts.marked m.origin = false)
      (habsent : w.accounts.cctx m.digest = none)
      (hballot : Ballot.Gathering .yes voters (w.ballots m.digest))
  | decided (henough : quorum ≤ voters.length) (hmarked : w.accounts.marked m.origin = true)

section Inbound

variable {m : InboundVote} (s) (h : w.Continues service w')
  (hvalid : (m.submittedBy s.1).validate = .ok ())
  (hadmits : Journal.Admits service.settlement w.store m)

include h hvalid hadmits

/-- **A report of an event that is marked is refused for that**, and nothing changes. -/
theorem World.Continues.deposit_late (hmarked : w'.accounts.marked m.origin = true) :
    (service.execute w' (m.submission s)).answer
      = .error (.settlement (.inboundFinalized m.senderChain m.inboundHash)) ∧
    (service.execute w' (m.submission s)).world = w' := by
  have hsound := h.reachable.sound
  constructor
  · have hfound : Journal.isFinalized w'.store m.senderChain m.inboundHash m.eventIndex
        = .ok true := by
      rw [← h.works_after.restored_eq, hsound.isFinalized_eq]
      exact congrArg Except.ok hmarked
    obtain ⟨henabled, hsender, hreceiver, hkey⟩ := h.admits hadmits
    exact Service.answer_voteInbound_of_error h.works_after.accepts
      (Journal.intake_of_finalized (r := Recorder.start w'.store) hvalid
        ⟨henabled, hsender, hreceiver, hkey⟩ hfound)
  · obtain ⟨e, hreply⟩ := service.refused_of_marked hsound.records hsound.legible
      hsound.ballotsFiled s.2 (m := m.submittedBy s.1) hmarked
    rw [InboundVote.submission, hreply]

variable (hobservers : Registry.observerSet w.store = .ok observers)
  (hserved : Registry.ServedAt w.store percent m.senderChain) (hmember : s.1 ∈ observers.members)
  (hnew : s.1 ∉ voters) (hmarked : w'.accounts.marked m.origin = false)
  (habsent : w'.accounts.cctx m.digest = none)
  (hballot : Ballot.Gathering .yes voters (w'.ballots m.digest))

include hobservers hserved hmember hnew hmarked habsent hballot

/-- A report of an event that is not marked is taken. -/
theorem World.Continues.exists_answer_deposit :
    ∃ answer, (service.execute w' (m.submission s)).answer = .ok answer := by
  have hsound := h.reachable.sound
  have hfound : Journal.isFinalized w'.store m.senderChain m.inboundHash m.eventIndex
      = .ok false := by
    rw [← h.works_after.restored_eq, hsound.isFinalized_eq]
    exact congrArg Except.ok hmarked
  obtain ⟨henabled, hsender, hreceiver, hkey⟩ := h.admits hadmits
  obtain ⟨outcome, r₁, hcast, -⟩ := h.exists_castVote (m.submittedBy s.1).request hobservers
    hserved hballot hmember service.observers.stalePolicy s.2.height hnew
    (by simp [InboundVote.request])
  have hrecords : Records (Recorder.start w'.store) w'.store.ledger := hsound.records
  obtain ⟨start, hintake⟩ := Journal.exists_intake h.works_after hrecords hsound.legible
    hsound.ballotsFiled hvalid ⟨henabled, hsender, hreceiver, hkey⟩ hfound habsent
    ⟨_, hcast⟩
  exact Service.exists_answer_voteInbound h.works_after.accepts
    (Journal.exists_voteInbound h.works_after hrecords hsound.legible hsound.ballotsFiled hintake)

/-- **A report of an event that is not marked is counted, or it completes the quorum.** If it does,
the transaction is stored. -/
theorem World.Continues.deposit_counted
    (hstore : (service.execute w' (m.submission s)).world.store.Addressable) :
    ∃ receipt, (service.execute w' (m.submission s)).answer = .ok (.receipt receipt) ∧
      receipt.finalized = decide (observers.quorum percent ≤ voters.length + 1) ∧
      (receipt.finalized = true → receipt.cctxIndex = some m.digest ∧
        ∃ c, (service.execute w' (m.submission s)).world.Stores m.digest c) ∧
      (service.execute w' (m.submission s)).world.DepositReported m (observers.quorum percent)
        (voters ++ [s.1]) := by
  have hsound := h.reachable.sound
  have hafter := (hsound.execute hstore).1
  obtain ⟨answer, hanswer⟩ := h.exists_answer_deposit s hvalid hadmits hobservers hserved
    hmember hnew hmarked habsent hballot
  obtain ⟨e, gateway, hrefused⟩ | ⟨receipt, outcome, a, ballots, hreceipt, htaken, htells,
      hreported, -, hbooks⟩ := service.voteInbound_cases hsound.records hsound.legible
    hsound.ballotsFiled s.2 (m.submittedBy s.1)
  · rw [InboundVote.submission, hrefused] at hanswer
    cases hanswer
  obtain ⟨haccounts, hballots⟩ : (service.execute w' (m.submission s)).world.accounts = a ∧
      (service.execute w' (m.submission s)).world.ballots = ballots := (hbooks.ledger hstore).2
  obtain ⟨hfinalized, hsuccess, hgathering⟩ := h.voted (m.submittedBy s.1).request hobservers
    hserved hballot hmember htaken.voted
  refine ⟨receipt, hreceipt, htells.finalized_eq.trans hfinalized, ?_, ?_⟩
  · intro hdecided
    obtain ⟨-, hnames⟩ := hsound.receipt_of_voteInbound hstore hreceipt
    rcases hnames hdecided with ⟨hindex, hstored⟩ | ⟨b, hb, hfailure⟩
    · obtain ⟨c, hc⟩ := Option.isSome_iff_exists.1 hstored
      exact ⟨hindex, c, hafter.stores_iff.2 hc⟩
    · -- All votes on the ballot are in favour.
      have hb : ballots m.digest = some b := (congrFun hballots m.digest).symm.trans hb
      obtain rfl : outcome.ballot = b := Option.some.inj (htaken.voted.stored_eq.symm.trans hb)
      rw [hsuccess (htells.finalized_eq.symm.trans hdecided)] at hfailure
      cases hfailure
  · cases hcase : outcome.finalized with
    | true =>
      rw [hcase] at hfinalized
      refine .decided ?_ ?_
      · rw [List.length_append]
        exact of_decide_eq_true hfinalized.symm
      · rw [haccounts]
        exact hreported.marked_eq hcase
    | false =>
      have hkept : a = w'.accounts := by
        cases hreported with
        | pending => rfl
        | refuted hdecided | opened hdecided =>
          rw [hcase] at hdecided
          cases hdecided
      rw [hcase] at hfinalized
      refine .gathering ?_ ?_ ?_ ?_
      · rw [List.length_append]
        exact Nat.not_le.1 (of_decide_eq_false hfinalized.symm)
      · rw [haccounts, hkept]
        exact hmarked
      · rw [haccounts, hkept]
        exact habsent
      · rw [hballots]
        exact hgathering hcase

end Inbound

/-! ### Reports of outbound transactions -/

/-- The report as another observer submits it. -/
def OutboundVote.submittedBy (m : OutboundVote) (o : ObserverId) : OutboundVote :=
  { m with creator := o }

/-- The call by which an observer submits the report, at a block. -/
def OutboundVote.submission (m : OutboundVote) (s : ObserverId × Block) : Call :=
  .voteOutbound s.2 (m.submittedBy s.1)

/-- A report that names its observer and a hash has no fault. -/
theorem OutboundVote.validate_submittedBy {m : OutboundVote} (hhash : m.hash ≠ "")
    {o : ObserverId} (ho : o.account ≠ "") : (m.submittedBy o).validate = .ok () := by
  have hfault : (m.submittedBy o).fault? = none := (if_neg ho).trans (if_neg hhash)
  rw [validate, hfault]

theorem OutboundVote.vote_ne_absent (m : OutboundVote) : m.vote ≠ .absent := by
  rw [vote]
  split
  · decide
  · decide

/-- The report is that an attempt has succeeded with another value than its amount. -/
def OutboundVote.Mismatches (m : OutboundVote) (c : Cctx) : Prop :=
  m.outcome = .success ∧ m.valueReceived ≠ c.current.amount

/-- An attempt that is awaited is in flight. -/
theorem Journal.checkAttempt_eq_ok {c : Cctx} {m : OutboundVote} (hformed : c.Formed)
    (hawaits : c.status.awaitsOutbound = true) (hchain : c.current.chainId = m.chainId)
    (hnonce : c.current.nonce = some m.nonce) : checkAttempt c m = .ok () := by
  have hopen : c.current.isExecuted = false := by
    have hstage := hformed.isAt
    rcases CctxStatus.awaitsOutbound_iff.1 hawaits with hstatus | hstatus
    · rw [hstatus] at hstage
      obtain ⟨hnone, hopen, -⟩ := hstage
      rwa [Cctx.current, hnone]
    · rw [hstatus] at hstage
      obtain ⟨-, -, r, hr, hopen, -⟩ := hstage
      rwa [Cctx.current, hr]
  rw [checkAttempt, if_neg (by simp [awaitsVote, hawaits, hopen]), if_neg (by simp [hnonce]),
    if_neg (by simp [hchain])]

/-- **An attempt that was settled is not in flight any more**: another one is, or none. -/
theorem Journal.checkAttempt_of_settled {a : Accounts} {c : Cctx} {m : OutboundVote}
    (h : a.Settled [m]) (hsound : a.Sound) (hc : a.cctx m.cctxIndex = some c) :
    (∃ nonce, checkAttempt c m = .error (.nonceMismatch nonce m.nonce)) ∨
      checkAttempt c m = .error (.chainMismatch c.current.chainId m.chainId) := by
  rw [checkAttempt]
  split
  · exact .inl ⟨_, rfl⟩
  next hawaits =>
  split
  · exact .inl ⟨_, rfl⟩
  next hnonce =>
  split
  · exact .inr rfl
  next hchain =>
  have hexecuted := h.isExecuted hsound (m := m) (List.mem_singleton_self _) hc
    c.current_mem_attempts (not_not.1 hchain) (not_not.1 hnonce)
  simp [awaitsVote, hexecuted] at hawaits

/-- Some observers have reported the outcome of an attempt. Their votes gather on its ballot, or
they are a quorum. Then the attempt is settled, unless its value is another one: the vote that would
have completed the quorum and those after it were refused then. -/
inductive World.OutcomeReported (w : World γ) (m : OutboundVote) (c : Cctx) (quorum : Nat)
    (voters : List ObserverId) : Prop
  | gathering (hfew : voters.length < quorum) (hc : w.accounts.cctx m.cctxIndex = some c)
      (hballot : Ballot.Gathering m.vote voters (w.ballots m.digest))
  | refused {counted : List ObserverId} (henough : quorum ≤ voters.length)
      (hmismatch : m.Mismatches c) (hc : w.accounts.cctx m.cctxIndex = some c)
      (hcounted : counted ⊆ voters) (hlength : counted.length + 1 = quorum)
      (hballot : Ballot.Gathering m.vote counted (w.ballots m.digest))
  | decided (henough : quorum ≤ voters.length) (hmatch : ¬m.Mismatches c)
      (hsettled : w.accounts.Settled [m])

/-- What the vote that completes a quorum makes of a transaction. -/
structure World.OutcomeApplied (w : World γ) (m : OutboundVote) (c d : Cctx) : Prop where
  stores : w.Stores m.cctxIndex d
  movesOn : c.MovesOn d
  success : m.outcome = .success → d.status = .outboundMined ∨ d.status = .reverted
  failed : m.outcome = .failed → d.status = .pendingRevert ∨ d.status = .aborted
  executed : ∃ a ∈ d.attempts, a.chainId = m.chainId ∧ a.nonce = some m.nonce ∧
    a.isExecuted = true

/-- A report that completes a quorum has settled its attempt. -/
theorem World.Sound.settled_of_receipt {m : OutboundVote} {receipt : VoteReceipt} (h : w.Sound)
    (hstore : (service.execute w (m.submission s)).world.store.Addressable)
    (hanswer : (service.execute w (m.submission s)).answer = .ok (.receipt receipt))
    (hfinalized : receipt.finalized = true) :
    (service.execute w (m.submission s)).world.accounts.Settled [m] := by
  have hstep := (h.execute hstore).2
  have hby : Service.settledBy (m.submission s) (service.execute w (m.submission s)).answer
      = some (m.submittedBy s.1) :=
    Service.settledBy_eq_some_iff.2 ⟨s.2, receipt, rfl, hanswer, hfinalized⟩
  have hnone : w.accounts.Settled [] := ⟨by rintro _ ⟨⟩, List.nodup_nil⟩
  rw [hby] at hstep
  -- Who has submitted the report does not matter for what it is about.
  have hexecuted := (hnone.step h.accounts hstep).executed (m.submittedBy s.1)
    (List.mem_singleton_self _)
  exact ⟨List.forall_mem_singleton.2 hexecuted, List.nodup_singleton _⟩

/-- The transaction that the deciding vote enters is as the report says. -/
theorem World.Sound.outcomeApplied {m : OutboundVote} {c d : Cctx} {lane : Option Lane}
    {ballot : Ballot} {closed : Option Ticket} {ballots : Digest → Option Ballot} (h : w.Sound)
    (hstore : (service.execute w (m.submission s)).world.store.Addressable)
    (hc : w.accounts.cctx m.cctxIndex = some c)
    (hsettled : Journal.OutboundSettled w.accounts (m.submittedBy s.1) c d lane ballot)
    (hstatus : ballot.status = m.vote.verdict)
    (hbooks : Books (service.execute w (m.submission s)).world.store
      (w.accounts.renew d lane closed) ballots)
    (hattempt : (service.execute w (m.submission s)).world.accounts.Settled [m]) :
    (service.execute w (m.submission s)).world.OutcomeApplied m c d := by
  obtain ⟨-, haccounts, -⟩ := hbooks.ledger hstore
  have hindex : d.index = m.cctxIndex :=
    hsettled.settles.index_eq.trans (h.accounts.index_eq _ _ hc)
  have hd : (service.execute w (m.submission s)).world.accounts.cctx m.cctxIndex = some d := by
    rw [World.accounts, haccounts, Accounts.Renews.renew_cctx, if_pos hindex.symm]
  have hleads := hsettled.leadsTo
  rw [hstatus, OutboundVote.vote] at hleads
  refine ⟨(h.execute hstore).1.stores_iff.2 hd, hsettled.movesOn, ?_, ?_, ?_⟩
  · intro hsuccess
    rwa [hsuccess] at hleads
  · intro hfailed
    rwa [hfailed] at hleads
  · obtain ⟨d', i, a, hd', ha, hchain, hnonce, hexecuted⟩ :=
      hattempt.executed m (List.mem_singleton_self m)
    obtain rfl : d' = d := Option.some.inj (hd'.symm.trans hd)
    exact ⟨a, List.mem_of_getElem? ha, hchain, hnonce, hexecuted⟩

section Outbound

variable {m : OutboundVote} {c : Cctx} (s) (h : w.Continues service w')
  (hvalid : (m.submittedBy s.1).validate = .ok ())

include h hvalid

/-- **A report of an attempt that is settled is refused**, because it is not in flight any more. -/
theorem World.Continues.outcome_late (hsettled : w'.accounts.Settled [m]) :
    (∃ nonce, (service.execute w' (m.submission s)).answer
      = .error (.settlement (.nonceMismatch nonce m.nonce))) ∨
    ∃ chainId, (service.execute w' (m.submission s)).answer
      = .error (.settlement (.chainMismatch chainId m.chainId)) := by
  have hsound := h.reachable.sound
  have hrecords : Records (Recorder.start w'.store) w'.store.ledger := hsound.records
  obtain ⟨c, -, -, hc, -⟩ := hsettled.executed m (List.mem_singleton_self m)
  have hrefused {e : SettlementError} (hcheck : Journal.checkAttempt c m = .error e) :
      (service.execute w' (m.submission s)).answer = .error (.settlement e) :=
    Service.answer_voteOutbound_of_error h.works_after.accepts
      (Journal.voteOutbound_of_checkAttempt h.works_after hrecords hsound.legible hvalid hc hcheck)
  rcases Journal.checkAttempt_of_settled hsettled hsound.accounts hc with ⟨nonce, hcheck⟩ | hcheck
  · exact .inl ⟨nonce, hrefused hcheck⟩
  · exact .inr ⟨_, hrefused hcheck⟩

variable (hobservers : Registry.observerSet w.store = .ok observers)
  (hserved : Registry.ServedAt w.store percent m.chainId) (hmember : s.1 ∈ observers.members)
  (hnew : s.1 ∉ voters) (hc : w'.accounts.cctx m.cctxIndex = some c)
  (hcheck : Journal.checkAttempt c m = .ok ())
  (hballot : Ballot.Gathering m.vote voters (w'.ballots m.digest))

include hobservers hserved hmember hnew hc hcheck hballot

/-- **A report of another value is refused if it would complete a quorum.** -/
theorem World.Continues.outcome_refused (hmismatch : m.Mismatches c)
    (henough : observers.quorum percent ≤ voters.length + 1) :
    (service.execute w' (m.submission s)).answer
      = .error (.settlement (.valueMismatch c.current.amount m.valueReceived)) := by
  have hsound := h.reachable.sound
  have hrecords : Records (Recorder.start w'.store) w'.store.ledger := hsound.records
  obtain ⟨hsuccess, hvalue⟩ := hmismatch
  obtain ⟨outcome, r₁, hcast, hfinalized, hstatus⟩ := h.exists_castVote (m.submittedBy s.1).request
    hobservers hserved hballot hmember service.observers.stalePolicy s.2.height hnew
    m.vote_ne_absent
  have hdecided : outcome.finalized = true := hfinalized.trans (decide_eq_true henough)
  have hyes : m.vote = .yes := by rw [OutboundVote.vote, hsuccess]
  have hverdict : outcome.ballot.status = .success := by
    rw [hstatus hdecided]
    exact congrArg Vote.verdict hyes
  exact Service.answer_voteOutbound_of_error h.works_after.accepts
    (Journal.voteOutbound_of_mismatch h.works_after hrecords hsound.legible hvalid hc hcheck hcast
      hdecided hverdict hvalue)

/-- A report is taken if it would not complete a quorum, or if its value is the amount. -/
theorem World.Continues.exists_answer_outcome
    (hmatch : observers.quorum percent ≤ voters.length + 1 → ¬m.Mismatches c) :
    ∃ answer, (service.execute w' (m.submission s)).answer = .ok answer := by
  have hsound := h.reachable.sound
  have hrecords : Records (Recorder.start w'.store) w'.store.ledger := hsound.records
  obtain ⟨outcome, r₁, hcast, hfinalized, hstatus⟩ := h.exists_castVote (m.submittedBy s.1).request
    hobservers hserved hballot hmember service.observers.stalePolicy s.2.height hnew
    m.vote_ne_absent
  refine Service.exists_answer_voteOutbound h.works_after.accepts
    (Journal.exists_voteOutbound h.works_after hrecords hsound.legible hvalid hc hcheck hcast
      hsound.ballotsFiled hsound.accounts (hsound.room hc) fun hdecided hnot_failed => ?_)
  -- A ballot that has not failed is one of a report that the attempt has succeeded.
  have hsuccess : m.outcome = .success := by
    cases houtcome : m.outcome with
    | success => rfl
    | failed =>
      refine absurd ((hstatus hdecided).trans ?_) hnot_failed
      have hno : m.vote = .no := by rw [OutboundVote.vote, houtcome]
      exact congrArg Vote.verdict hno
  by_contra hvalue
  exact hmatch (of_decide_eq_true (hfinalized.symm.trans hdecided)) ⟨hsuccess, hvalue⟩

/-- **A report is counted, or it completes the quorum.** If it does, the attempt is settled. -/
theorem World.Continues.outcome_counted
    (hmatch : observers.quorum percent ≤ voters.length + 1 → ¬m.Mismatches c)
    (hstore : (service.execute w' (m.submission s)).world.store.Addressable) :
    ∃ receipt, (service.execute w' (m.submission s)).answer = .ok (.receipt receipt) ∧
      receipt.finalized = decide (observers.quorum percent ≤ voters.length + 1) ∧
      (receipt.finalized = true → ∃ d,
        (service.execute w' (m.submission s)).world.OutcomeApplied m c d) ∧
      (service.execute w' (m.submission s)).world.OutcomeReported m c (observers.quorum percent)
        (voters ++ [s.1]) := by
  have hsound := h.reachable.sound
  obtain ⟨answer, hanswer⟩ := h.exists_answer_outcome s hvalid hobservers hserved hmember
    hnew hc hcheck hballot hmatch
  obtain ⟨e, hrefused⟩ | ⟨receipt, c', outcome, ballots, hreceipt, htaken, htells, hcounted,
      hdecided⟩ := service.voteOutbound_cases hsound.records hsound.legible hsound.ballotsFiled
    hsound.accounts.toFiled s.2 (m.submittedBy s.1)
  · rw [OutboundVote.submission, hrefused] at hanswer
    cases hanswer
  obtain rfl : c' = c := Option.some.inj (htaken.cctx_eq.symm.trans hc)
  obtain ⟨hfinalized, hstatus, hgathering⟩ := h.voted (m.submittedBy s.1).request hobservers
    hserved hballot hmember htaken.voted
  have hlength : (voters ++ [s.1]).length = voters.length + 1 := List.length_append
  refine ⟨receipt, hreceipt, htells.finalized_eq.trans hfinalized, ?_⟩
  cases hcase : outcome.finalized with
  | true =>
    have henough := of_decide_eq_true (hfinalized.symm.trans hcase)
    obtain ⟨d, lane, hsettled, hbooks, -⟩ := hdecided hcase
    have hattempt := hsound.settled_of_receipt hstore hreceipt (htells.finalized_eq.trans hcase)
    refine ⟨fun _ => ⟨d, ?_⟩, .decided (hlength ▸ henough) (hmatch henough) hattempt⟩
    exact hsound.outcomeApplied hstore hc hsettled (hstatus hcase) hbooks hattempt
  | false =>
    obtain ⟨haccounts, hballots⟩ :
        (service.execute w' (m.submission s)).world.accounts = w'.accounts ∧
        (service.execute w' (m.submission s)).world.ballots = ballots :=
      ((hcounted hcase).1.ledger hstore).2
    refine ⟨fun hfinal => ?_, .gathering ?_ ?_ ?_⟩
    · rw [htells.finalized_eq, hcase] at hfinal
      cases hfinal
    · rw [hlength]
      exact Nat.not_le.1 (of_decide_eq_false (hfinalized.symm.trans hcase))
    · rw [haccounts]
      exact hc
    · rw [hballots]
      exact hgathering hcase

end Outbound

end Settlement
