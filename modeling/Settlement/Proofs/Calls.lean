import Settlement.Proofs.Inbound
import Settlement.Proofs.Outbound
import Settlement.Proofs.Polls

/-!
# What a call does

Every call is a transition that is committed as a whole or not at all, so that what it writes is
what its transition writes, under keys of its own families (`Settlement.Service.touches`), and what
it makes of the books is what its transition makes of them. The main statement says this for all
calls at once: a call is one step of the accounts and at most one vote on the ballots
(`Settlement.Service.advances_execute`), and the step settles an attempt exactly if the call is a
vote on an outbound transaction that decides its ballot. A call that is no vote and writes under
keys of no book does nothing to the books, whatever else it does.
-/

namespace Settlement

variable {γ : Type}

/-! ### Transitions -/

section Books

variable {b : Backend} {draft : Draft} {l : Ledger} {a : Accounts}
  {ballots : Digest → Option Ballot}

theorem Records.fresh (h : Records b l) : Records (Overlay.fresh b : Draft) l :=
  h.congr (Overlay.contents_fresh b)

theorem Books.congr {σ τ : Type} [WritableStore σ] [LawfulStore σ] [WritableStore τ]
    [LawfulStore τ] {s : σ} {t : τ} (h : Books s a ballots) (ht : contents t = contents s) :
    Books t a ballots := by
  obtain ⟨l, hl, ha, hb⟩ := h
  exact ⟨l, hl.congr ht, ha, hb⟩

end Books

namespace World

variable {w : World γ} {W : Key → Prop}

/-- A transition of the registry is refused and changes nothing, or is committed. -/
theorem runRegistry_cases (run : Draft → Except RegistryError (Answer × Draft)) :
    (∃ e, w.runRegistry run = ⟨.error e, [], w⟩) ∨
      ∃ answer draft b, run (.fresh w.store) = .ok (answer, draft) ∧
        w.runRegistry run = ⟨.ok answer, [], { w with store := b }⟩ ∧
        contents b = contents draft := by
  cases h : w.store.transact RegistryError.store run with
  | mk result b =>
  rw [runRegistry, h]
  cases result with
  | error e =>
    obtain rfl := Backend.eq_of_conclude_error h
    exact .inl ⟨.registry e, rfl⟩
  | ok answer =>
    obtain ⟨draft, hrun, hcontents⟩ := Backend.eq_of_conclude_ok h
    exact .inr ⟨answer, draft, b, hrun, rfl, hcontents⟩

/-- A transition of the settlement is refused and changes nothing but the gateway, or is
committed. -/
theorem runSettlement_cases
    (run : Draft → Except SettlementError (Answer × Draft × Effects) × γ) :
    (∃ e, w.runSettlement run
        = ⟨.error e, [], { w with gateway := (run (.fresh w.store)).2 }⟩) ∨
      ∃ answer draft effects b, (run (.fresh w.store)).1 = .ok (answer, draft, effects) ∧
        w.runSettlement run = ⟨.ok answer, (release w.pool effects).1,
          ⟨b, (run (.fresh w.store)).2, (release w.pool effects).2⟩⟩ ∧
        contents b = contents draft := by
  rw [runSettlement]
  obtain ⟨result, gateway⟩ := run (.fresh w.store)
  simp only
  split
  · next e store h =>
    obtain rfl := Backend.eq_of_conclude_error h
    exact .inl ⟨_, rfl⟩
  · next answer effects store h =>
    obtain ⟨draft, hresult, hcontents⟩ := Backend.eq_of_conclude_ok h
    obtain ⟨⟨answer', draft', effects'⟩, rfl, heq⟩ := map_eq_ok_iff.1 hresult
    cases heq
    exact .inr ⟨answer', draft', effects', store, rfl, rfl, hcontents⟩

/-- A transition of the registry that is committed has written what it has written to its draft. -/
theorem touches_runRegistry {run : Draft → Except RegistryError (Answer × Draft)}
    (h : ∀ answer draft, run (.fresh w.store) = .ok (answer, draft) →
      Touches W (.fresh w.store : Draft) draft) :
    Touches W w.store (w.runRegistry run).world.store := by
  rcases w.runRegistry_cases run with ⟨e, hreply⟩ | ⟨answer, draft, b, hok, hreply, hcontents⟩
  · rw [hreply]
    exact .refl _
  · rw [hreply]
    exact (h answer draft hok).congr rfl hcontents

theorem touches_quiet {op : Draft → Except RegistryError Draft}
    (h : ∀ draft, op (.fresh w.store) = .ok draft →
      Touches W (.fresh w.store : Draft) draft) :
    Touches W w.store (w.runRegistry fun s => World.quiet (op s)).world.store := by
  refine touches_runRegistry fun answer draft hrun => ?_
  obtain ⟨draft', hop, heq⟩ := map_eq_ok_iff.1 hrun
  cases heq
  exact h draft hop

/-- A transition of the settlement that is committed has written what it has written to its
draft. -/
theorem touches_runSettlement {run : Draft → Except SettlementError (Answer × Draft × Effects) × γ}
    (h : ∀ answer draft effects, (run (.fresh w.store)).1 = .ok (answer, draft, effects) →
      Touches W (.fresh w.store : Draft) draft) :
    Touches W w.store (w.runSettlement run).world.store := by
  obtain ⟨e, hreply⟩ | ⟨answer, draft, effects, b, hok, hreply, hcontents⟩ :=
    w.runSettlement_cases run
  · rw [hreply]
    exact .refl _
  · rw [hreply]
    exact (h answer draft effects hok).congr rfl hcontents

end World

/-! ### What a call writes -/

/-- The keys under which a call may write. -/
def Call.Writes (c : Call) (k : Key) : Prop :=
  match c with
  | .castVote _ _ | .pruneBallots _ => k.IsPoll
  | .voteInbound _ _ => k.IsTransacted
  | .voteOutbound _ _ => k.IsTransacted ∨ k.IsOutboundTracker ∨ k.IsMigration
  | .migrateFunds _ _ _ => k.IsTransacted ∨ k.IsMigration
  | .addOutboundTracker _ => k.IsOutboundTracker
  | .addInboundTracker _ => k.IsInboundTracker
  | _ => k.IsAdministered

/-- **A call writes under keys of its own families only**, and only records of their types. -/
theorem Service.touches [Gateway γ] (service : Service) (w : World γ) (c : Call) :
    Touches c.Writes w.store (service.execute w c).world.store := by
  cases c with
  | castVote request block =>
    refine World.touches_runRegistry fun answer draft hrun => ?_
    obtain ⟨⟨outcome, draft'⟩, hcast, heq⟩ := map_eq_ok_iff.1 hrun
    cases heq
    exact (Registry.touches_castVote hcast).mono fun _ hk => hk.isPoll
  | setObserverSet ids => exact World.touches_quiet fun _ => Registry.touches_setObserverSet
  | addObserver id => exact World.touches_quiet fun _ => Registry.touches_addObserver
  | replaceObserver old new => exact World.touches_quiet fun _ => Registry.touches_replaceObserver
  | registerChain chain params =>
    rw [execute, registerChain]
    split
    · exact .refl _
    · exact World.touches_quiet fun _ => Registry.touches_registerChain
  | updateChainParams params =>
    exact World.touches_quiet fun _ => Registry.touches_updateChainParams
  | setSwitches switches => exact World.touches_quiet fun _ => Registry.touches_setSwitches
  | registerKey key makeCurrent => exact World.touches_quiet fun _ => Registry.touches_registerKey
  | activateKey pubkey => exact World.touches_quiet fun _ => Registry.touches_activateKey
  | pruneBallots height =>
    rw [execute, pruneBallots]
    split
    · exact .refl _
    · refine World.touches_runRegistry fun answer draft hrun => ?_
      obtain ⟨⟨n, draft'⟩, hprune, heq⟩ := map_eq_ok_iff.1 hrun
      cases heq
      exact Registry.touches_pruneBallots hprune
  | voteInbound block m =>
    refine World.touches_runSettlement fun answer draft effects hrun => ?_
    obtain ⟨⟨receipt, draft', effects'⟩, hvote, heq⟩ := map_eq_ok_iff.1 hrun
    cases heq
    exact Journal.touches_voteInbound (Prod.ext hvote rfl)
  | voteOutbound block m =>
    refine World.touches_runSettlement fun answer draft effects hrun => ?_
    obtain ⟨⟨receipt, draft', effects'⟩, hvote, heq⟩ := map_eq_ok_iff.1 hrun
    cases heq
    exact (Journal.touches_voteOutbound hvote).mono fun _ =>
      .imp_left fun hk => hk.elim Key.IsPoll.isTransacted Key.IsEntered.isTransacted
  | migrateFunds block chainId amount =>
    refine World.touches_runSettlement fun answer draft effects hrun => ?_
    obtain ⟨⟨index, draft', effects'⟩, hmigrate, heq⟩ := map_eq_ok_iff.1 hrun
    cases heq
    exact (Journal.touches_migrateFunds hmigrate).mono fun _ => .imp_left Key.IsEntered.isTransacted
  | addOutboundTracker report =>
    refine World.touches_runSettlement fun answer draft effects hrun => ?_
    obtain ⟨draft', hreport, heq⟩ := map_eq_ok_iff.1 hrun
    cases heq
    exact Journal.touches_addOutboundTracker hreport
  | addInboundTracker report =>
    refine World.touches_runSettlement fun answer draft effects hrun => ?_
    obtain ⟨draft', hreport, heq⟩ := map_eq_ok_iff.1 hrun
    cases heq
    exact Journal.touches_addInboundTracker hreport

/-! ### Calls -/

namespace Service

/-- The vote on an outbound transaction that has settled an attempt, if the call was one. -/
def settledBy (c : Call) (answer : Except CallError Answer) : Option OutboundVote :=
  match c, answer with
  | .voteOutbound _ m, .ok (.receipt receipt) => if receipt.finalized then some m else none
  | _, _ => none

/-- The ballot that the call has decided, if it was a vote that decided one. -/
def decidedBy (c : Call) (answer : Except CallError Answer) : Option Digest :=
  match c, answer with
  | .castVote request _, .ok (.outcome outcome) =>
    if outcome.finalized then some request.ballot else none
  | .voteInbound _ m, .ok (.receipt receipt) => if receipt.finalized then some m.digest else none
  | .voteOutbound _ m, .ok (.receipt receipt) => if receipt.finalized then some m.digest else none
  | _, _ => none

/-- A call that is no accepted vote settles nothing. -/
theorem settledBy_eq_none {observers : ObserverSet} {c : Call} {answer : Except CallError Answer}
    (h : acceptedVote? observers c answer = none) : settledBy c answer = none := by
  rw [settledBy.eq_def]
  split
  · cases h
  · rfl

/-- A ballot is decided by the accepted vote that says so. -/
theorem decidedBy_eq (observers : ObserverSet) (c : Call) (answer : Except CallError Answer) :
    decidedBy c answer = (acceptedVote? observers c answer).bind fun v =>
      if v.finalized then some v.request.ballot else none := by
  rw [decidedBy.eq_def]
  split
  · rfl
  · rfl
  · rfl
  · next hcast hinbound houtbound =>
    rw [acceptedVote?.eq_4 observers c answer hcast hinbound houtbound]
    rfl

/-- A call decides no other ballot than the one that it is a vote on. -/
theorem follow_of_polled {policy : StalePolicy} {l : Ledger} {c : Call}
    {answer : Except CallError Answer} {ballots : Digest → Option Ballot}
    (h : Polled policy l c answer ballots) :
    BallotsFollow (decidedBy c answer) l.ballots ballots := by
  rw [decidedBy_eq l.observers]
  cases h with
  | kept hnone =>
    rw [hnone]
    exact .refl _ _
  | voted haccepted _ hfinalized hvoted =>
    rw [haccepted, Option.bind_some, hfinalized]
    exact hvoted.follow
  | pruned _ hfewer => exact fun index b hb _ => .inr (hfewer index b hb)

/-- What a call makes of the books: one step of the accounts, and of the ballots what its vote
makes of them. -/
def Advances (policy : StalePolicy) (l : Ledger) (c : Call) (reply : Reply γ) : Prop :=
  ∃ a ballots, l.accounts.Step (settledBy c reply.answer) a ∧
    Polled policy l c reply.answer ballots ∧ Books reply.world.store a ballots

section Execute

variable {w : World γ} {l : Ledger} {c : Call} {policy : StalePolicy}

/-- A call after which the books are as before, and which was no accepted vote. -/
theorem advances_of_books {reply : Reply γ}
    (hnone : acceptedVote? l.observers c reply.answer = none)
    (hbooks : Books reply.world.store l.accounts l.ballots) : Advances policy l c reply := by
  refine ⟨l.accounts, l.ballots, ?_, .kept hnone, hbooks⟩
  rw [settledBy_eq_none hnone]
  exact .keep

theorem advances_of_error (h : Records w.store l) {e : CallError} {reply : Reply γ}
    (hanswer : reply.answer = .error e) (hstore : reply.world.store = w.store) :
    Advances policy l c reply :=
  advances_of_books (by rw [hanswer, acceptedVote?_error]) (hstore ▸ h.books)

variable [Gateway γ] (service : Service)

/-- A call that is no vote, and that writes elsewhere, leaves the books as they are. -/
theorem advances_of_writes (h : Records w.store l)
    (hnone : ∀ answer, acceptedVote? l.observers c answer = none)
    (hwrites : ∀ k, c.Writes k → ¬k.IsBooked) : Advances policy l c (service.execute w c) :=
  advances_of_books (hnone _) (((service.touches w c).keeps_booked hwrites).books h.books)

theorem advances_castVote (h : Records w.store l) (hl : l.Legible)
    (hballots : BallotsFiled l.ballots) (request : Registry.VoteRequest) (block : Block) :
    Advances service.observers.stalePolicy l (.castVote request block)
      (service.execute w (.castVote request block)) := by
  rw [execute]
  rcases w.runRegistry_cases _ with ⟨e, hreply⟩ | ⟨answer, draft, b, hok, hreply, hcontents⟩
  · rw [hreply]
    exact advances_of_error h rfl rfl
  · obtain ⟨⟨outcome, draft'⟩, hcast, heq⟩ := map_eq_ok_iff.1 hok
    cases heq
    obtain ⟨ballots, hvoted, hbooks⟩ := Registry.voted_of_castVote h.fresh hl hballots hcast
    rw [hreply]
    exact ⟨l.accounts, ballots, .keep, .voted rfl rfl rfl hvoted, hbooks.congr hcontents⟩

/-- **A vote on an event that is marked is refused and changes nothing at all**: the gateway is not
even asked. -/
theorem refused_of_marked (h : Records w.store l) (hl : l.Legible)
    (hballots : BallotsFiled l.ballots) (block : Block) {m : InboundVote}
    (hmarked : l.accounts.marked m.origin = true) :
    ∃ e, service.execute w (.voteInbound block m) = ⟨.error e, [], w⟩ := by
  rw [execute]
  simp only [Journal.voteInbound]
  -- The mark is checked before the gateway is asked, so the gateway stays as it is.
  cases hintake : Journal.intake service.observers.stalePolicy service.settlement
    (.fresh w.store : Draft) block m with
  | error e =>
    refine ⟨.settlement e, ?_⟩
    simp only [World.runSettlement, hintake]
    rfl
  | ok r =>
    obtain ⟨_, _, htaken, -⟩ := Journal.taken_of_intake h.fresh hl hballots hintake
    have hfree := htaken.marked_eq
    rw [hmarked] at hfree
    cases hfree

/-- **A vote on an inbound transaction is refused, or it is taken**, and its event is marked if
its ballot is decided by it. The gateway is left alone as long as the ballot is not decided. -/
theorem voteInbound_cases (h : Records w.store l) (hl : l.Legible)
    (hballots : BallotsFiled l.ballots) (block : Block) (m : InboundVote) :
    (∃ e gateway, service.execute w (.voteInbound block m)
        = ⟨.error e, [], { w with gateway := gateway }⟩) ∨
      ∃ receipt outcome a ballots,
        (service.execute w (.voteInbound block m)).answer = .ok (.receipt receipt) ∧
        Journal.InboundTaken service.observers.stalePolicy l block m outcome ballots ∧
        receipt.Tells outcome ∧ l.accounts.Reported (l .currentKey) m outcome a ∧
        (outcome.finalized = false →
          (service.execute w (.voteInbound block m)).world.gateway = w.gateway) ∧
        Books (service.execute w (.voteInbound block m)).world.store a ballots := by
  rw [execute]
  cases hvote : Journal.voteInbound service.observers.stalePolicy service.settlement w.gateway
    (.fresh w.store : Draft) block m with
  | mk result gateway =>
  obtain ⟨e, hreply⟩ | ⟨answer, draft, effects, b, hok, hreply, hcontents⟩ :=
    w.runSettlement_cases _
  · exact .inl ⟨e, _, hreply⟩
  · rw [hreply]
    simp only [hvote] at hok ⊢
    obtain ⟨⟨receipt, draft', effects'⟩, rfl, heq⟩ := map_eq_ok_iff.1 hok
    cases heq
    obtain ⟨outcome, a, ballots, htaken, htells, hreported, hgateway, hbooks⟩ :=
      Journal.taken_of_voteInbound h.fresh hl hballots hvote
    exact .inr ⟨receipt, outcome, a, ballots, rfl, htaken, htells, hreported, hgateway,
      hbooks.congr hcontents⟩

theorem advances_voteInbound (h : Records w.store l) (hl : l.Legible)
    (hballots : BallotsFiled l.ballots) (block : Block) (m : InboundVote) :
    Advances service.observers.stalePolicy l (.voteInbound block m)
      (service.execute w (.voteInbound block m)) := by
  obtain ⟨e, gateway, hreply⟩ | ⟨receipt, outcome, a, ballots, hanswer, htaken, htells,
    hreported, -, hbooks⟩ := voteInbound_cases service h hl hballots block m
  · rw [hreply]
    exact advances_of_error h rfl rfl
  · refine ⟨a, ballots, ?_, ?_, hbooks⟩
    · rw [hanswer]
      exact hreported.step htaken.marked_eq
    · rw [hanswer]
      exact .voted rfl htells.isNew_eq htells.finalized_eq htaken.voted

/-- **A vote on an outbound transaction is refused, or it is taken**, and settles the attempt in
flight if its ballot is decided by it. -/
theorem voteOutbound_cases (h : Records w.store l) (hl : l.Legible)
    (hballots : BallotsFiled l.ballots) (hfiled : l.accounts.Filed) (block : Block)
    (m : OutboundVote) :
    (∃ e, service.execute w (.voteOutbound block m) = ⟨.error e, [], w⟩) ∨
      ∃ receipt c outcome ballots,
        (service.execute w (.voteOutbound block m)).answer = .ok (.receipt receipt) ∧
        Journal.OutboundTaken service.observers.stalePolicy l block m c outcome ballots ∧
        receipt.Tells outcome ∧
        (outcome.finalized = false →
          Books (service.execute w (.voteOutbound block m)).world.store l.accounts ballots ∧
          Marks (service.execute w (.voteOutbound block m)).world.store l.migrations) ∧
        (outcome.finalized = true → ∃ d lane,
          Journal.OutboundSettled l.accounts m c d lane outcome.ballot ∧
          Books (service.execute w (.voteOutbound block m)).world.store (l.accounts.renew d lane
            (some ⟨⟨c.current.signingKey, m.chainId⟩, m.nonce⟩)) ballots ∧
          Marks (service.execute w (.voteOutbound block m)).world.store
            (d.clear l.migrations)) := by
  rw [execute]
  obtain ⟨e, hreply⟩ | ⟨answer, draft, effects, b, hok, hreply, hcontents⟩ :=
    w.runSettlement_cases _
  · exact .inl ⟨e, hreply⟩
  · obtain ⟨⟨receipt, draft', effects'⟩, hvote, heq⟩ := map_eq_ok_iff.1 hok
    cases heq
    obtain ⟨c, outcome, ballots, htaken, htells, hpending, hdecided⟩ :=
      Journal.taken_of_voteOutbound h.fresh hl hballots hfiled hvote
    rw [hreply]
    refine .inr ⟨receipt, c, outcome, ballots, rfl, htaken, htells, fun hfinalized => ?_,
      fun hfinalized => ?_⟩
    · obtain ⟨hbooks, hmarks⟩ := hpending hfinalized
      exact ⟨hbooks.congr hcontents, hmarks.congr hcontents⟩
    obtain ⟨d, lane, hsettled, hbooks, hmarks⟩ := hdecided hfinalized
    exact ⟨d, lane, hsettled, hbooks.congr hcontents, hmarks.congr hcontents⟩

theorem advances_voteOutbound (h : Records w.store l) (hl : l.Legible)
    (hballots : BallotsFiled l.ballots) (hfiled : l.accounts.Filed) (block : Block)
    (m : OutboundVote) :
    Advances service.observers.stalePolicy l (.voteOutbound block m)
      (service.execute w (.voteOutbound block m)) := by
  obtain ⟨e, hreply⟩ | ⟨receipt, c, outcome, ballots, hanswer, htaken, htells, hpending,
    hdecided⟩ := voteOutbound_cases service h hl hballots hfiled block m
  · rw [hreply]
    exact advances_of_error h rfl rfl
  · have hsettledBy : settledBy (.voteOutbound block m)
        (service.execute w (.voteOutbound block m)).answer
        = if outcome.finalized then some m else none := by
      rw [hanswer, ← htells.finalized_eq]
      rfl
    have hpolled : Polled service.observers.stalePolicy l (.voteOutbound block m)
        (service.execute w (.voteOutbound block m)).answer ballots := by
      rw [hanswer]
      exact .voted rfl htells.isNew_eq htells.finalized_eq htaken.voted
    cases hfinalized : outcome.finalized with
    | false =>
      refine ⟨_, ballots, ?_, hpolled, (hpending hfinalized).1⟩
      rw [hsettledBy, hfinalized]
      exact .keep
    | true =>
      obtain ⟨d, lane, hsettled, hbooks, -⟩ := hdecided hfinalized
      refine ⟨_, ballots, ?_, hpolled, hbooks⟩
      rw [hsettledBy, hfinalized]
      exact .settle htaken.cctx_eq htaken.openTicket?_eq hsettled.settles hsettled.formed

/-- **A fund migration is refused, or it is accepted**, and the chain is marked with it. -/
theorem migrateFunds_cases (h : Records w.store l) (hl : l.Legible) (block : Block)
    (chainId : ChainId) (amount : U256) :
    (∃ e, service.execute w (.migrateFunds block chainId amount) = ⟨.error e, [], w⟩) ∨
      ∃ index current newer c lane,
        (service.execute w (.migrateFunds block chainId amount)).answer = .ok (.index index) ∧
        Registry.newerKey? (.fresh w.store : Draft) = .ok (some newer) ∧
        Journal.MigrationTaken l block chainId amount index current newer c lane ∧
        Books (service.execute w (.migrateFunds block chainId amount)).world.store
          (l.accounts.renew c (some lane) none) l.ballots ∧
        Marks (service.execute w (.migrateFunds block chainId amount)).world.store
          (Function.update l.migrations chainId (some ⟨chainId, index, block.height⟩)) := by
  rw [execute]
  obtain ⟨e, hreply⟩ | ⟨answer, draft, effects, b, hok, hreply, hcontents⟩ :=
    w.runSettlement_cases _
  · exact .inl ⟨e, hreply⟩
  · obtain ⟨⟨index, draft', effects'⟩, hmigrate, heq⟩ := map_eq_ok_iff.1 hok
    cases heq
    obtain ⟨current, newer, c, lane, hnewer, htaken, hbooks, hmarks⟩ :=
      Journal.taken_of_migrateFunds h.fresh hl hmigrate
    rw [hreply]
    exact .inr ⟨index, current, newer, c, lane, rfl, hnewer, htaken, hbooks.congr hcontents,
      hmarks.congr hcontents⟩

theorem advances_migrateFunds (h : Records w.store l) (hl : l.Legible) (block : Block)
    (chainId : ChainId) (amount : U256) :
    Advances policy l (.migrateFunds block chainId amount)
      (service.execute w (.migrateFunds block chainId amount)) := by
  obtain ⟨e, hreply⟩ | ⟨index, current, newer, c, lane, -, -, htaken, hbooks, -⟩ :=
    migrateFunds_cases service h hl block chainId amount
  · rw [hreply]
    exact advances_of_error h rfl rfl
  · exact ⟨_, l.ballots, .openMigration htaken.coinType_eq htaken.opens, .kept rfl, hbooks⟩

theorem advances_pruneBallots (h : Records w.store l) (height : UInt64) :
    Advances policy l (.pruneBallots height) (service.execute w (.pruneBallots height)) := by
  rw [execute, pruneBallots]
  split
  · exact advances_of_books rfl h.books
  · rcases w.runRegistry_cases _ with ⟨e, hreply⟩ | ⟨answer, draft, b, hok, hreply, hcontents⟩
    · rw [hreply]
      exact advances_of_error h rfl rfl
    · obtain ⟨⟨n, draft'⟩, hprune, heq⟩ := map_eq_ok_iff.1 hok
      cases heq
      obtain ⟨ballots, hbooks, hfewer⟩ :=
        Registry.prunes_pruneBallots hprune _ _ h.fresh.books
      rw [hreply]
      exact ⟨l.accounts, ballots, .keep, .pruned rfl hfewer, hbooks.congr hcontents⟩

/-- **Every call is one step of the accounts**, and of the ballots it makes what its vote makes of
them. -/
theorem advances_execute (h : Records w.store l) (hl : l.Legible)
    (hballots : BallotsFiled l.ballots) (hfiled : l.accounts.Filed) (c : Call) :
    Advances service.observers.stalePolicy l c (service.execute w c) := by
  cases c with
  | castVote request block => exact advances_castVote service h hl hballots request block
  | pruneBallots height => exact advances_pruneBallots service h height
  | voteInbound block m => exact advances_voteInbound service h hl hballots block m
  | voteOutbound block m => exact advances_voteOutbound service h hl hballots hfiled block m
  | migrateFunds block chainId amount =>
    exact advances_migrateFunds service h hl block chainId amount
  | setObserverSet | addObserver | replaceObserver | registerChain | updateChainParams | setSwitches
  | registerKey | activateKey | addOutboundTracker | addInboundTracker =>
    refine advances_of_writes service h (fun _ => rfl) fun k hwrites => ?_
    cases k <;> first | exact id | exact hwrites.elim

end Execute

end Service

end Settlement
