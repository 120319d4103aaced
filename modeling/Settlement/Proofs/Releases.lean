import Settlement.Proofs.Atomicity
import Settlement.Proofs.Runs
import Settlement.Proofs.Settings

/-!
# What is released

A transition collects what is released once it is committed: events, and at most one credit of the
stability pool. Of a transaction there are news whenever its state changes, and only then: the nonce
that was reserved for it, if it has come to wait for an outcome, and the change itself
(`Settlement.Cctx.news`). A credit is owed when an attempt that is settled ends its transaction
(`Settlement.Cctx.owes`).

Main statement: what a call releases goes with what it makes of the accounts
(`Settlement.World.Sound.delivers`). It tells nothing of transactions and leaves them alone, it
opens one, or it settles the attempt in flight of one.
-/

namespace Settlement

/-! ### News of a transaction -/

namespace Cctx

/-- What is told of a transaction that has come from another state. -/
def news (c : Cctx) (before : CctxStatus) : List Event :=
  (c.openTicket?.map fun t =>
      .nonceReserved c.index t.lane.signingKey t.lane.chainId t.nonce).toList
    ++ [.statusChanged c.index before c.status c.report.message]

/-- What is owed for a transaction once the attempt in flight is settled. -/
def owes (c : Cctx) (percent : UInt8) : Option PoolFunding :=
  if c.status = .outboundMined ∨ c.status = .reverted then
    (c.current.unusedFee? percent).map fun amount => ⟨c.index, c.current.chainId, amount⟩
  else none

end Cctx

namespace Progress

variable {σ : Type} {p p₁ p' q : Progress σ} {next : CctxStatus} {block : Block}
  {message : String}

/-- A step tells the news of the transaction, and owes nothing new. -/
structure Publishes (p p' : Progress σ) : Prop where
  index_eq : p'.cctx.index = p.cctx.index
  effects_eq : p'.effects = ⟨p.effects.events ++ p'.cctx.news p.cctx.status, p.effects.funding⟩

/-- It does not matter what was done to the attempts before. -/
theorem Publishes.congr (h : q.Publishes p') (hindex : q.cctx.index = p.cctx.index)
    (hstatus : q.cctx.status = p.cctx.status) (heffects : q.effects = p.effects) :
    p.Publishes p' := by
  refine ⟨h.index_eq.trans hindex, ?_⟩
  rw [← hstatus, ← heffects]
  exact h.effects_eq

theorem effects_of_advance (h : p.advance next message block = .ok p') :
    p'.effects = p.effects.emit
      (.statusChanged p'.cctx.index p.cctx.status p'.cctx.status p'.cctx.report.message) := by
  obtain ⟨-, rfl⟩ := advance_eq_ok_iff.1 h
  rfl

/-- A transaction that ends waits for no outcome, so there is no nonce to tell of. -/
theorem publishes_of_end (h : p.advance next message block = .ok p')
    (hterminal : next.isTerminal = true) : p.Publishes p' := by
  have heffects := effects_of_advance h
  obtain ⟨-, report, rfl, hcctx⟩ := eq_of_advance h
  have hnone : p'.cctx.openTicket? = none := by
    rw [hcctx]
    exact Cctx.openTicket?_of_isTerminal hterminal
  refine ⟨by rw [hcctx], ?_⟩
  rw [heffects, Cctx.news, hnone]
  rfl

theorem publishes_of_abort (h : p.abort message block = .ok p') : p.Publishes p' :=
  (publishes_of_end h rfl).congr (p.cctx.index_updateCurrent .execute)
    (p.cctx.status_updateCurrent .execute) rfl

section Assign

variable [WritableStore σ]

theorem effects_of_assignNonce (h : p.assignNonce = .ok p₁) :
    ∃ nonce, p₁.cctx = p.cctx.setNonce (some nonce) ∧ p₁.effects = p.effects.emit
      (.nonceReserved p.cctx.index p.cctx.current.signingKey p.cctx.current.chainId nonce) := by
  obtain ⟨⟨nonce, s₁⟩, -, h⟩ := bind_eq_ok_iff.1 h
  obtain ⟨s₂, -, h⟩ := bind_eq_ok_iff.1 h
  cases h
  exact ⟨nonce, rfl, rfl⟩

/-- A transaction that is given a nonce waits for the outcome of its attempt with this nonce. -/
theorem publishes_of_assign (hopen : p.cctx.current.isExecuted = false)
    (hassign : p.assignNonce = .ok p₁) (hadvance : p₁.advance next message block = .ok p')
    (hawaits : next.awaitsOutbound = true) : p.Publishes p' := by
  obtain ⟨nonce, hcctx₁, heffects₁⟩ := effects_of_assignNonce hassign
  have heffects := effects_of_advance hadvance
  obtain ⟨-, report, rfl, hcctx⟩ := eq_of_advance hadvance
  have hcurrent : p'.cctx.current = { p.cctx.current with nonce := some nonce } := by
    have hlast : p'.cctx.current = p₁.cctx.current := by
      rw [hcctx]
      rfl
    rw [hlast, hcctx₁, Cctx.setNonce, Cctx.current_updateCurrent]
  have hindex : p'.cctx.index = p.cctx.index := by
    rw [hcctx, hcctx₁]
    exact p.cctx.index_updateCurrent _
  have hticket : p'.cctx.openTicket? = some ⟨p.cctx.current.lane, nonce⟩ := by
    rw [Cctx.openTicket?_of_awaitsOutbound]
    · rw [hcurrent]
      rfl
    · rw [hcctx]
      exact hawaits
    · rw [hcurrent]
      exact hopen
  refine ⟨hindex, ?_⟩
  rw [heffects, heffects₁, hcctx₁, Cctx.setNonce, Cctx.status_updateCurrent, Cctx.news, hticket,
    hindex]
  simp [Effects.emit, Attempt.lane]

theorem publishes_of_revert {c : Cctx} {gasLimit : UInt64}
    (hrevert : p.cctx.addRevert gasLimit = .ok c)
    (hassign : { p with cctx := c }.assignNonce = .ok p₁)
    (hadvance : p₁.advance .pendingRevert message block = .ok p') : p.Publishes p' := by
  obtain ⟨-, rfl⟩ := Cctx.eq_of_addRevert hrevert
  exact (publishes_of_assign rfl hassign hadvance rfl).congr rfl rfl rfl

end Assign

end Progress

/-! ### Transitions -/

namespace Journal

section Steps

variable {σ γ : Type} [WritableStore σ] [Gateway γ] {p p' : Progress σ}
  {config : SettlementConfig} {block : Block}

/-- **Whatever comes of a deposit, nothing is owed for it.** -/
theorem publishes_of_deposit {g g' : γ} (hblank : p.cctx.IsBlank)
    (hdeposit : deposit config g p block = (.ok p', g')) : p.Publishes p' := by
  have hopen : p.cctx.current.isExecuted = false := by
    rw [Cctx.current_eq_outbound hblank.revert_eq]
    exact hblank.isExecuted_eq
  rw [deposit] at hdeposit
  split at hdeposit
  · exact Progress.publishes_of_abort (congrArg Prod.fst hdeposit)
  replace hdeposit := congrArg Prod.fst hdeposit
  dsimp only at hdeposit
  rw [settleDeposit.eq_def] at hdeposit
  split at hdeposit
  · rcases ite_eq_ok_iff.1 hdeposit with ⟨-, hpaid⟩ | ⟨-, hsent⟩
    · exact (Progress.publishes_of_end hpaid rfl).congr rfl rfl rfl
    · obtain ⟨p₁, hassign, hadvance⟩ := bind_eq_ok_iff.1 hsent
      exact Progress.publishes_of_assign hopen hassign hadvance rfl
  · rcases ite_eq_ok_iff.1 hdeposit with ⟨-, hrevert⟩ | ⟨-, hend⟩
    · rw [startRevert] at hrevert
      split at hrevert
      · exact Progress.publishes_of_abort hrevert
      · next c hc =>
        obtain ⟨p₁, hassign, hadvance⟩ := bind_eq_ok_iff.1 hrevert
        exact Progress.publishes_of_revert hc hassign hadvance
    · exact Progress.publishes_of_abort hend

/-- A settled attempt has its news told, and what it brings is owed. -/
def Concludes (percent : UInt8) (p p' : Progress σ) : Prop :=
  p'.effects = ⟨p.effects.events ++ p'.cctx.news p.cctx.status, p'.cctx.owes percent⟩

omit [WritableStore σ] in
/-- Only the end of a success brings something. -/
theorem concludes_of_publishes {percent : UInt8} (h : p.Publishes p')
    (hnone : p.effects.funding = none)
    (hstatus : p'.cctx.status = .pendingRevert ∨ p'.cctx.status = .aborted) :
    Concludes percent p p' := by
  have hfailed : ¬(p'.cctx.status = .outboundMined ∨ p'.cctx.status = .reverted) := by
    rcases hstatus with hstatus | hstatus <;> simp [hstatus]
  rw [Concludes, Cctx.owes, if_neg hfailed, ← hnone]
  exact h.effects_eq

omit [WritableStore σ] in
theorem concludes_of_abort {message : String} (hnone : p.effects.funding = none)
    (h : p.abort message block = .ok p') : Concludes config.poolPercent p p' := by
  obtain ⟨-, report, hreport, hcctx⟩ := Progress.eq_of_abort h
  refine concludes_of_publishes (Progress.publishes_of_abort h) hnone (.inr ?_)
  rw [hcctx]
  exact hreport

omit [WritableStore σ] in
/-- The unused gas of the attempt is looked at when it is executed, and what is owed for it is told
with the last state. -/
theorem concludes_of_settleSuccess (h : settleSuccess config p block = .ok p') :
    Concludes config.poolPercent p p' := by
  have hend {next : CctxStatus} {message : String} {funding : Option PoolFunding}
      (hfunding : funding = (p.cctx.executeCurrent.current.unusedFee? config.poolPercent).map
        fun amount => ⟨p.cctx.executeCurrent.index, p.cctx.executeCurrent.current.chainId, amount⟩)
      (hnext : next = .outboundMined ∨ next = .reverted)
      (hadvance : { p with
        cctx := p.cctx.executeCurrent
        effects := { p.effects with funding := funding } }.advance next message block = .ok p') :
      Concludes config.poolPercent p p' := by
    have hterminal : next.isTerminal = true := by rcases hnext with rfl | rfl <;> rfl
    have heffects := (Progress.publishes_of_end hadvance hterminal).effects_eq
    obtain ⟨-, report, rfl, hcctx⟩ := Progress.eq_of_advance hadvance
    have howes : p'.cctx.owes config.poolPercent = funding := by
      rw [hcctx, hfunding]
      exact if_pos hnext
    have hstatus := p.cctx.status_updateCurrent .execute
    rw [Concludes, heffects, howes, ← hstatus]
    rfl
  rcases ite_eq_ok_iff.1 h with ⟨-, h⟩ | ⟨-, h⟩
  · exact hend rfl (.inr rfl) h
  · exact hend rfl (.inl rfl) h

theorem concludes_of_settleFailure (hnone : p.effects.funding = none)
    (h : settleFailure config p block = .ok p') : Concludes config.poolPercent p p' := by
  rw [settleFailure] at h
  split at h
  · rcases ite_eq_ok_iff.1 h with ⟨-, h⟩ | ⟨-, h⟩
    · exact concludes_of_abort hnone h
    split at h
    · exact concludes_of_abort hnone h
    · next c hrevert =>
      obtain ⟨p₁, hassign, hadvance⟩ := bind_eq_ok_iff.1 h
      obtain ⟨-, report, hreport, hcctx⟩ := Progress.eq_of_advance hadvance
      refine concludes_of_publishes (Progress.publishes_of_revert hrevert hassign hadvance) hnone
        (.inl ?_)
      rw [hcctx]
      exact hreport
  · exact concludes_of_abort hnone h
  · cases h

/-- **A settled attempt has its news told, and what it brings is owed**, whatever was decided. -/
theorem concludes_of_settle {ballot : Ballot} (hnone : p.effects.funding = none)
    (h : settle config p ballot block = .ok p') : Concludes config.poolPercent p p' := by
  rw [settle] at h
  split at h
  · exact concludes_of_settleSuccess h
  · exact concludes_of_settleFailure hnone h
  · cases h

end Steps

end Journal

/-! ### Calls -/

namespace Journal

/-- What a call makes of the accounts, and what it releases with that. -/
inductive Delivers {σ : Type} [ReadableStore σ] (percent : UInt8) (s : σ) (l : Ledger) :
    Call → Accounts → Effects → Prop
  /-- Transactions and tickets are left alone. At most a new ballot is told of. -/
  | quiet {call : Call} {b : Accounts} {events : List Event} (hcctx : b.cctx = l.accounts.cctx)
      (howner : b.owner = l.accounts.owner)
      (hevents : ∀ e ∈ events, ∃ x o chainId, e = .ballotCreated x o chainId) :
      Delivers percent s l call b ⟨events, none⟩
  /-- A transaction is opened for a report. -/
  | report {block : Block} {m : InboundVote} {isNew : Bool} {key : SigningKey} {c : Cctx}
      {lane : Option Lane} (hcoin : m.coinType ≠ .cmd) (henters : Enters l m key c lane) :
      Delivers percent s l (.voteInbound block m) ((l.accounts.mark m.origin).renew c lane none)
        ⟨ballotEvents isNew m.digest .inbound m.senderChain ++
          .inboundFinalized m.digest m.senderChain m.inboundHash :: c.news .pendingInbound, none⟩
  /-- A transaction is opened that moves funds to another key. -/
  | migration {block : Block} {chainId : ChainId} {amount : U256} {index : Digest}
      {current newer : SigningKey} {c : Cctx} {lane : Lane}
      (hcurrent : Registry.currentKey s = .ok current)
      (hnewer : Registry.newerKey? s = .ok (some newer))
      (htaken : MigrationTaken l block chainId amount index current newer c lane) :
      Delivers percent s l (.migrateFunds block chainId amount)
        (l.accounts.renew c (some lane) none)
        ⟨c.news .pendingInbound ++ [.migrationStarted index chainId amount], none⟩
  /-- The attempt in flight of a transaction is settled. -/
  | settlement {block : Block} {m : OutboundVote} {isNew : Bool} {c d : Cctx}
      {lane : Option Lane} {ballot : Ballot} (hcctx : l.accounts.cctx m.cctxIndex = some c)
      (hopen : c.openTicket? = some ⟨⟨c.current.signingKey, m.chainId⟩, m.nonce⟩)
      (hsettled : OutboundSettled l.accounts m c d lane ballot) :
      Delivers percent s l (.voteOutbound block m)
        (l.accounts.renew d lane (some ⟨⟨c.current.signingKey, m.chainId⟩, m.nonce⟩))
        ⟨ballotEvents isNew m.digest .outbound m.chainId ++ d.news c.status, d.owes percent⟩

theorem eq_of_mem_ballotEvents {isNew : Bool} {ballot : Digest} {observation : Observation}
    {chainId : ChainId} {e : Event} (h : e ∈ ballotEvents isNew ballot observation chainId) :
    ∃ x o chainId, e = .ballotCreated x o chainId := by
  rw [ballotEvents] at h
  split at h
  · exact ⟨ballot, observation, chainId, List.mem_singleton.1 h⟩
  · cases h

section Votes

variable {σ γ : Type} [WritableStore σ] [LawfulStore σ] [Gateway γ] {s s' : σ} {l : Ledger}
  {policy : StalePolicy} {config : SettlementConfig} {percent : UInt8} {block : Block}
  {receipt : VoteReceipt} {effects : Effects} {m : InboundVote}

omit [LawfulStore σ] in
theorem effects_of_counted
    (hintake : intake policy config s block m = .ok (.counted receipt s' effects)) :
    ∃ isNew, effects = ⟨ballotEvents isNew m.digest .inbound m.senderChain, none⟩ := by
  obtain ⟨_, outcome, _, hlinks⟩ := links_of_intake hintake
  cases hlinks.ends with
  | pending | failed => exact ⟨outcome.isNew, rfl⟩

omit [LawfulStore σ] in
theorem effects_of_opened {p : Progress σ}
    (hintake : intake policy config s block m = .ok (.opened receipt p)) :
    ∃ isNew, p.effects = ⟨ballotEvents isNew m.digest .inbound m.senderChain ++
      [.inboundFinalized m.digest m.senderChain m.inboundHash], none⟩ := by
  obtain ⟨_, outcome, _, hlinks⟩ := links_of_intake hintake
  cases hlinks.ends with
  | opened => exact ⟨outcome.isNew, rfl⟩

/-- A vote on an inbound transaction tells of what it opens. -/
theorem delivers_of_voteInbound {g g' : γ} (h : Records s l) (hl : l.Legible)
    (hballots : BallotsFiled l.ballots)
    (hvote : voteInbound policy config g s block m = (.ok (receipt, s', effects), g')) :
    ∃ a ballots, Delivers percent s l (.voteInbound block m) a effects ∧
      Books s' a ballots := by
  obtain ⟨hintake, -⟩ | ⟨receipt₀, p, p', hintake, hdeposit, hfinish⟩ :=
    intake_of_voteInbound hvote
  · obtain ⟨isNew, rfl⟩ := effects_of_counted hintake
    obtain ⟨_, ballots, -, -, hends⟩ := taken_of_intake h hl hballots hintake
    rcases hends with ⟨-, hbooks⟩ | ⟨-, -, hbooks⟩
    · exact ⟨l.accounts, ballots, .quiet rfl rfl fun _ => eq_of_mem_ballotEvents, hbooks⟩
    · exact ⟨l.accounts.mark m.origin, ballots,
        .quiet rfl rfl fun _ => eq_of_mem_ballotEvents, hbooks⟩
  · obtain ⟨isNew, hopened⟩ := effects_of_opened hintake
    obtain ⟨_, ballots, htaken, hends⟩ := taken_of_intake h hl hballots hintake
    obtain ⟨-, _, lane, henters, hbooks⟩ := enters_of_opened hl htaken hends hdeposit hfinish
    obtain ⟨htells, -, key, -, hcctx, -⟩ := hends
    have hblank : p.cctx.IsBlank := hcctx ▸ Cctx.isBlank_ofInbound ..
    have heffects := (tells_of_finish htells hfinish).2.trans
      (publishes_of_deposit hblank hdeposit).effects_eq
    rw [hopened, hblank.status_eq, List.append_assoc] at heffects
    subst heffects
    exact ⟨_, ballots, .report htaken.coinType_ne henters, hbooks⟩

/-- A vote on an outbound transaction tells of what it settles. -/
theorem delivers_of_voteOutbound {m : OutboundVote} (h : Records s l) (hl : l.Legible)
    (hballots : BallotsFiled l.ballots) (hfiled : l.accounts.Filed)
    (hvote : voteOutbound policy config s block m = .ok (receipt, s', effects)) :
    ∃ a ballots, Delivers config.poolPercent s l (.voteOutbound block m) a effects ∧
      Books s' a ballots := by
  obtain ⟨c, outcome, s₁, hstored, hcheck, hcast, hlinks⟩ := links_of_voteOutbound hvote
  have hc := (eq_of_cctx? h hl hstored).symm
  have hopen := openTicket?_of_checkAttempt hcheck
  obtain ⟨ballots, hvoted, hbooks⟩ := Registry.voted_of_castVote h hl hballots hcast
  rcases hlinks with ⟨-, rfl, -, rfl⟩ |
    ⟨-, c₁, p, s₂, s₃, receipt₁, hobserve, hsettle, hrelease, hclear, htells, hfinish⟩
  · exact ⟨l.accounts, ballots, .quiet rfl rfl fun _ => eq_of_mem_ballotEvents, hbooks⟩
  obtain ⟨-, lane, hsettled, hbooks'⟩ := entered_of_decided hl hfiled hc hopen hbooks hobserve
    hsettle hrelease hclear htells hfinish
  have hstatus : c₁.status = c.status := by
    rw [(eq_of_observe hobserve).1, Cctx.status_updateCurrent, Cctx.status_updateCurrent]
  have hconcludes : p.effects = _ := concludes_of_settle rfl hsettle
  have heffects := (tells_of_finish htells hfinish).2.trans hconcludes
  rw [hstatus] at heffects
  subst heffects
  exact ⟨_, ballots, .settlement hc hopen hsettled, hbooks'⟩

/-- A fund migration tells of what it opens. -/
theorem delivers_of_migrateFunds {chainId : ChainId} {amount : U256} {index : Digest}
    (h : Records s l) (hl : l.Legible)
    (hmigrate : migrateFunds config s block chainId amount = .ok (index, s', effects)) :
    ∃ a ballots, Delivers percent s l (.migrateFunds block chainId amount) a effects ∧
      Books s' a ballots := by
  obtain ⟨current, newer, p₁, p₂, p₃, hlinks⟩ := links_of_migrateFunds hmigrate
  obtain ⟨lane, htaken, hbooks⟩ := enters_of_migration h hl hlinks
  obtain ⟨chain, hassign⟩ := hlinks.assigned
  obtain ⟨message, -, hadvance⟩ := hlinks.advanced
  have hpublishes := Progress.publishes_of_assign rfl hassign hadvance rfl
  have hsaved : p₃.effects = p₂.effects := by
    obtain ⟨s, -, rfl⟩ := Progress.eq_of_save hlinks.saved
    rfl
  have heffects := hlinks.effects_eq
  rw [hsaved, hpublishes.effects_eq] at heffects
  subst heffects
  exact ⟨_, l.ballots, .migration hlinks.current_eq hlinks.newer_eq htaken, hbooks⟩

end Votes

end Journal

/-- A call that is not about transactions releases nothing. -/
theorem Service.effects_of_handle {σ γ : Type} [WritableStore σ] [Gateway γ] {service : Service}
    {g g' : γ} {s s' : σ} {call : Call} {answer : Answer} {effects : Effects}
    (hhandled : service.handle g s call = (.ok (answer, s', effects), g'))
    (hcall : call.isTransaction = false) : effects = .none := by
  have hregistry {x : Except RegistryError (Answer × σ)}
      (h : Handled.ofRegistry g x = (.ok (answer, s', effects), g')) : effects = .none := by
    obtain ⟨_, -, heq⟩ := map_eq_ok_iff.1 (mapError_eq_ok_iff.1 (congrArg Prod.fst h))
    cases heq
    rfl
  cases call with
  | voteInbound | voteOutbound | migrateFunds => cases hcall
  | registerChain chain params =>
    rw [handle] at hhandled
    split at hhandled
    · cases hhandled
    · exact hregistry hhandled
  | pruneBallots height =>
    rw [handle] at hhandled
    split at hhandled
    · cases hhandled
      rfl
    · exact hregistry hhandled
  | addOutboundTracker | addInboundTracker =>
    obtain ⟨_, -, heq⟩ := Handled.exists_of_ok hhandled
    cases heq
    rfl
  | _ => exact hregistry hhandled

section Calls

variable {γ : Type} [Gateway γ] {service : Service} {w : World γ} {call : Call}

/-- **What a call releases goes with what it makes of the accounts.** A call that is refused
releases nothing. -/
theorem World.Sound.delivers (h : w.Sound)
    (hstore : (service.execute w call).world.store.Addressable) :
    ∃ effects, Journal.Delivers service.settlement.poolPercent (.fresh w.store : Draft)
        w.store.ledger call (service.execute w call).world.accounts effects ∧
      (service.execute w call).events = (World.release w.pool effects).1 ∧
      (service.execute w call).world.pool = (World.release w.pool effects).2 := by
  obtain ⟨e, g, hrefused⟩ | ⟨answer, draft, effects, g, b, hhandled, hcontents, hreply⟩ :=
    service.committed_cases w call
  · rw [hrefused]
    exact ⟨.none, .quiet rfl rfl (List.forall_mem_nil _), rfl, rfl⟩
  -- What is released was collected with the draft, and the draft is what is stored then.
  have hstored (hdelivers : ∃ a ballots, Journal.Delivers service.settlement.poolPercent
      (.fresh w.store : Draft) w.store.ledger call a effects ∧ Books draft a ballots) :
      Journal.Delivers service.settlement.poolPercent (.fresh w.store : Draft) w.store.ledger call
        (service.execute w call).world.accounts effects := by
    obtain ⟨a, ballots, hdelivers, hbooks⟩ := hdelivers
    rw [hreply] at hstore ⊢
    obtain ⟨-, rfl, -⟩ := (hbooks.congr hcontents).ledger hstore
    exact hdelivers
  refine ⟨effects, ?_, by rw [hreply], by rw [hreply]⟩
  cases htransaction : call.isTransaction with
  | false =>
    have hsame : (service.execute w call).world.accounts = w.accounts :=
      Service.accounts_eq service w htransaction
    rw [Service.effects_of_handle hhandled htransaction, hsame]
    exact .quiet rfl rfl (List.forall_mem_nil _)
  | true =>
    cases call with
    | voteInbound block m =>
      obtain ⟨⟨receipt, draft', effects'⟩, hvote, heq⟩ := Handled.exists_of_ok hhandled
      cases heq
      exact hstored (Journal.delivers_of_voteInbound h.records.fresh h.legible h.ballotsFiled
        (Prod.ext hvote rfl))
    | voteOutbound block m =>
      obtain ⟨⟨receipt, draft', effects'⟩, hvote, heq⟩ := Handled.exists_of_ok hhandled
      cases heq
      exact hstored (Journal.delivers_of_voteOutbound h.records.fresh h.legible h.ballotsFiled
        h.accounts.toFiled hvote)
    | migrateFunds block chainId amount =>
      obtain ⟨⟨index, draft', effects'⟩, hmigrate, heq⟩ := Handled.exists_of_ok hhandled
      cases heq
      exact hstored (Journal.delivers_of_migrateFunds h.records.fresh h.legible hmigrate)
    | _ => cases htransaction

end Calls

end Settlement
