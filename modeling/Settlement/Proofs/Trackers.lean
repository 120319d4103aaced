import Settlement.Proofs.Atomicity
import Settlement.Proofs.SettledOnce
import Settlement.Proofs.Settings
import Settlement.Proofs.WorkLists

/-!
# Outbound trackers

A tracker is kept for a signing key, a chain and a nonce, while several keys may have the same nonce
open on the same chain. What is added is checked against the transactions, and a tracker is removed
where an attempt is settled; so that trackers and transactions have to agree after any calls in any
order. They do: in every world that is reached, what is tracked is an attempt whose outcome is not
known yet (`Settlement.World.Tracked`), and a tracker goes away or gets shorter only with it.

Main statement: `Settlement.Reachable.trackers_live`.
-/

namespace Settlement

variable {σ γ : Type}

/-! ### What a tracker has -/

/-- The hashes of a tracker are in order: there are no more of them than is allowed, none of them is
empty, and no two are the same up to case. The tracker is that of its ticket. -/
structure OutboundTracker.Orderly (r : OutboundTracker) (t : Ticket) (max : Nat) : Prop where
  signingKey_eq : r.signingKey = t.lane.signingKey
  chainId_eq : r.chainId = t.lane.chainId
  nonce_eq : r.nonce = t.nonce
  length_le : r.hashes.length ≤ max
  txHash_ne : ∀ h ∈ r.hashes, h.txHash ≠ ""
  pairwise : r.hashes.Pairwise fun h h' => foldCase h.txHash ≠ foldCase h'.txHash

namespace OutboundTracker.Orderly

variable {r : OutboundTracker} {t : Ticket} {max : Nat} {report : HashReport}

theorem fresh (t : Ticket) (max : Nat) :
    (OutboundTracker.fresh t.lane.signingKey t.lane.chainId t.nonce).Orderly t max :=
  ⟨rfl, rfl, rfl, Nat.zero_le max, List.forall_mem_nil _, .nil⟩

/-- **A hash that is not there yet may be added**, as long as there is room. -/
theorem add (h : r.Orderly t max) (hne : report.txHash ≠ "")
    (hnew : r.contains report.txHash = false) (hroom : r.hashes.length < max) :
    (r.add report).Orderly t max where
  signingKey_eq := h.signingKey_eq
  chainId_eq := h.chainId_eq
  nonce_eq := h.nonce_eq
  length_le := by
    rw [OutboundTracker.add, List.length_append, List.length_singleton]
    exact hroom
  txHash_ne h' hh' := by
    rcases List.mem_append.1 hh' with hh' | hh'
    · exact h.txHash_ne h' hh'
    · obtain rfl := List.mem_singleton.1 hh'
      exact hne
  pairwise := by
    refine List.pairwise_append.2 ⟨h.pairwise, List.pairwise_singleton _ _, fun h' hh' q hq => ?_⟩
    obtain rfl := List.mem_singleton.1 hq
    have hother := List.any_eq_false.1 hnew h' hh'
    rwa [sameUpToCase_iff] at hother

end OutboundTracker.Orderly

/-- An attempt whose outcome is not known is the one in flight, and its ticket is open. -/
theorem Cctx.Formed.openTicket?_of_mem {c : Cctx} (h : c.Formed) {a : Attempt} {t : Ticket}
    (ha : a ∈ c.attempts) (hopen : a.isExecuted = false) (ht : a.ticket? = some t) :
    c.openTicket? = some t := by
  have hstage := h.isAt
  rw [attempts] at ha
  rw [openTicket?_eq_some_iff]
  cases hstatus : c.status with
  | pendingInbound =>
    rw [hstatus] at hstage
    exact hstage.elim
  | pendingOutbound =>
    rw [hstatus] at hstage
    obtain rfl : a = c.outbound := by simpa [hstage.1] using ha
    rw [current_eq_outbound hstage.1]
    exact ⟨.inl rfl, ht, hopen⟩
  | pendingRevert =>
    rw [hstatus] at hstage
    obtain ⟨-, hfirst, r, hr, -⟩ := hstage
    rw [current_eq_revert hr]
    rw [hr] at ha
    rcases List.mem_cons.1 ha with rfl | ha
    · rw [hfirst] at hopen
      cases hopen
    · obtain rfl := List.mem_singleton.1 ha
      exact ⟨.inr rfl, ht, hopen⟩
  | outboundMined =>
    rw [hstatus] at hstage
    obtain rfl : a = c.outbound := by simpa [hstage.1] using ha
    rw [hstage.2] at hopen
    cases hopen
  | reverted =>
    rw [hstatus] at hstage
    obtain ⟨hfirst, r, hr, hsecond⟩ := hstage
    rw [hr] at ha
    rcases List.mem_cons.1 ha with rfl | ha
    · rw [hfirst] at hopen
      cases hopen
    · obtain rfl := List.mem_singleton.1 ha
      rw [hsecond] at hopen
      cases hopen
  | aborted =>
    rw [hstatus] at hstage
    rw [hstage a ha] at hopen
    cases hopen

/-! ### Reports -/

namespace Journal

variable [WritableStore σ] [LawfulStore σ] {s s' : σ} {config : SettlementConfig}
  {m : OutboundHashReport} {l : Ledger}

/-- **A nonce that belongs to an attempt that is not settled is an open ticket.** -/
theorem open_of_ownsUnsettled (h : Records s l) (hl : l.Legible) (hsound : l.accounts.Sound)
    {t : Ticket}
    (howns : ownsUnsettled s t.lane.signingKey t.lane.chainId t.nonce = .ok true) :
    ∃ x c, l.accounts.cctx x = some c ∧ c.openTicket? = some t := by
  obtain ⟨owner, -, howns⟩ := bind_eq_ok_iff.1 howns
  split at howns
  swap
  · cases howns
  obtain ⟨stored, hstored, howns⟩ := bind_eq_ok_iff.1 howns
  split at howns
  swap
  · cases howns
  next c =>
  have hc := (eq_of_cctx? h hl hstored).symm
  obtain ⟨a, ha, hmatches⟩ := List.any_eq_true.1 (pure_eq_ok_iff.1 howns)
  obtain ⟨hkey, hchain, hnonce, hopen⟩ := of_decide_eq_true hmatches
  refine ⟨_, c, hc, (hsound.formed _ c hc).openTicket?_of_mem ha ?_
    (Attempt.ticket?_eq_some_iff.2 ⟨hkey, hchain, hnonce⟩)⟩
  rw [Attempt.isExecuted, hopen]
  rfl

/-! ### Settled attempts -/

/-- As long as its ballot is not decided, a vote on an outbound transaction is about ballots. The
deciding vote removes the tracker of the attempt in flight, and touches no other. -/
theorem untracked_of_voteOutbound {policy : StalePolicy} {block : Block} {m : OutboundVote}
    {receipt : VoteReceipt} {effects : Effects}
    (hvote : voteOutbound policy config s block m = .ok (receipt, s', effects)) :
    (receipt.finalized = false → Touches Key.IsTransacted s s') ∧
      (receipt.finalized = true → ∃ c, cctx? s m.cctxIndex = .ok (some c) ∧
        checkAttempt c m = .ok () ∧
        Touches (fun k => k.IsTransacted ∨ c.current.IsTrackedUnder k ∨ k.IsMigration) s s' ∧
        ∀ k, c.current.IsTrackedUnder k → contents s' k.bytes = none) := by
  obtain ⟨c, outcome, s₁, hstored, hcheck, hcast, htells, hends⟩ :=
    touches_renewed_of_voteOutbound hvote
  have hvoted : Touches Key.IsTransacted s s₁ :=
    (Registry.touches_castVote hcast).mono fun _ hk => hk.isPoll.isTransacted
  rw [htells.finalized_eq]
  rcases hends with ⟨hpending, rfl⟩ | ⟨hfinalized, d, -, huntracked, hrenewed⟩
  · exact ⟨fun _ => hvoted, fun hfinalized => by simp [hpending] at hfinalized⟩
  refine ⟨fun hpending => by simp [hpending] at hfinalized, fun _ => ⟨c, hstored, hcheck,
    (hvoted.mono fun _ => .inl).trans (hrenewed.mono fun k hk => ?_), huntracked⟩⟩
  rcases hk with rfl | hreleased | ⟨-, hreverted⟩ | ⟨-, -, rfl⟩
  · exact .inl trivial
  · exact hreleased.isEntered_or.imp Key.IsEntered.isTransacted .inl
  · exact .inl hreverted.isReservedUnder.isEntered.isTransacted
  · exact .inr (.inr trivial)

end Journal

/-! ### What calls make of trackers -/

/-- The outbound trackers, by the tickets of the attempts that are tracked. -/
abbrev Trackers : Type :=
  Ticket → Option OutboundTracker

namespace Trackers

/-- The tracker of a ticket, which is fresh if there is none. -/
def of (T : Trackers) (t : Ticket) : OutboundTracker :=
  (T t).getD (.fresh t.lane.signingKey t.lane.chainId t.nonce)

/-- Every tracker is in order and not empty, and is that of an attempt whose outcome is not known
yet. -/
structure Sound (T : Trackers) (a : Accounts) (max : Nat) : Prop where
  orderly : ∀ t r, T t = some r → r.Orderly t max
  ne_nil : ∀ t r, T t = some r → r.hashes ≠ []
  isOpen : ∀ t r, T t = some r → ∃ x c, a.cctx x = some c ∧ c.openTicket? = some t

/-- What a call makes of trackers. The vote is that on the outbound transaction whose attempt the
call has settled, if it has settled one. -/
inductive Step (T : Trackers) (a : Accounts) (max : Nat) : Option OutboundVote → Trackers → Prop
  /-- Nothing. -/
  | keep : Step T a max none T
  /-- A hash that is not there yet is added for an attempt whose outcome is not known. -/
  | report {t : Ticket} {report : HashReport}
      (hopen : ∃ x c, a.cctx x = some c ∧ c.openTicket? = some t)
      (horderly : ((T.of t).add report).Orderly t max) :
      Step T a max none (Function.update T t (some ((T.of t).add report)))
  /-- The tracker of the attempt that is settled is removed, if there is one. -/
  | settle {m : OutboundVote} {c : Cctx} (hc : a.cctx m.cctxIndex = some c) :
      Step T a max (some m)
        (Function.update T ⟨⟨c.current.signingKey, m.chainId⟩, m.nonce⟩ none)

variable {T T' : Trackers} {a b : Accounts} {max : Nat} {settled : Option OutboundVote}

theorem Sound.orderly_of (h : T.Sound a max) (t : Ticket) : (T.of t).Orderly t max := by
  rw [of]
  cases hstored : T t with
  | none => exact .fresh t max
  | some r => exact h.orderly t r hstored

/-- A ticket that is open stays open, unless it is that of the attempt that is settled. -/
theorem isOpen_of_step (hstep : a.Step settled b) (hfiled : a.Filed) {t : Ticket}
    (hopen : ∃ x c, a.cctx x = some c ∧ c.openTicket? = some t)
    (hother : ∀ m c, settled = some m → a.cctx m.cctxIndex = some c →
      t ≠ ⟨⟨c.current.signingKey, m.chainId⟩, m.nonce⟩) :
    ∃ x c, b.cctx x = some c ∧ c.openTicket? = some t := by
  obtain ⟨x, c, hc, ht⟩ := hopen
  refine ⟨x, c, ?_, ht⟩
  cases settled with
  | none => exact hstep.cctx_eq hc
  | some m =>
    cases hstep with
    | settle hcctx hticket hsettles _ =>
      rw [Accounts.Renews.renew_cctx, if_neg, hc]
      rintro rfl
      rw [hsettles.index_eq, hfiled.index_eq _ _ hcctx, hcctx] at hc
      cases hc
      exact hother m _ rfl hcctx (Option.some.inj (ht.symm.trans hticket))

/-- What is found after a change is what was entered, or was there before under another ticket. -/
theorem eq_of_update {t u : Ticket} {v : Option OutboundTracker} {r : OutboundTracker}
    (hr : Function.update T u v t = some r) : t = u ∧ v = some r ∨ t ≠ u ∧ T t = some r := by
  rcases eq_or_ne t u with rfl | hne
  · rw [Function.update_self] at hr
    exact .inl ⟨rfl, hr⟩
  · rw [Function.update_of_ne hne] at hr
    exact .inr ⟨hne, hr⟩

/-- **A call leaves trackers in order**: what is tracked stays in flight until its tracker is
removed. -/
theorem Sound.step (h : T.Sound a max) (hstep : a.Step settled b) (hfiled : a.Filed)
    (htracks : T.Step a max settled T') : T'.Sound b max := by
  cases htracks with
  | keep =>
    exact ⟨h.orderly, h.ne_nil, fun t r hr =>
      isOpen_of_step hstep hfiled (h.isOpen t r hr) (by rintro _ _ ⟨⟩)⟩
  | report hopen horderly =>
    refine ⟨fun t r hr => ?_, fun t r hr => ?_, fun t r hr =>
      isOpen_of_step hstep hfiled ?_ (by rintro _ _ ⟨⟩)⟩
    · rcases eq_of_update hr with ⟨rfl, ⟨⟩⟩ | ⟨-, hr⟩
      · exact horderly
      · exact h.orderly t r hr
    · rcases eq_of_update hr with ⟨rfl, ⟨⟩⟩ | ⟨-, hr⟩
      · exact List.append_ne_nil_of_right_ne_nil _ (List.cons_ne_nil _ _)
      · exact h.ne_nil t r hr
    · rcases eq_of_update hr with ⟨rfl, -⟩ | ⟨-, hr⟩
      · exact hopen
      · exact h.isOpen t r hr
  | @settle m c hc =>
    have hkept {t : Ticket} {r : OutboundTracker}
        (hr : Function.update T ⟨⟨c.current.signingKey, m.chainId⟩, m.nonce⟩ none t = some r) :
        t ≠ ⟨⟨c.current.signingKey, m.chainId⟩, m.nonce⟩ ∧ T t = some r :=
      (eq_of_update hr).resolve_left fun hremoved => by cases hremoved.2
    refine ⟨fun t r hr => h.orderly t r (hkept hr).2, fun t r hr => h.ne_nil t r (hkept hr).2,
      fun t r hr => isOpen_of_step hstep hfiled (h.isOpen t r (hkept hr).2) ?_⟩
    rintro _ c' ⟨⟩ hc'
    cases hc.symm.trans hc'
    exact (hkept hr).1

/-- **A tracker goes away or gets shorter only with its attempt.** -/
theorem Step.kept (h : T.Step a max settled T') {t : Ticket} {r : OutboundTracker}
    (hr : T t = some r) (hother : ∀ m c, settled = some m → a.cctx m.cctxIndex = some c →
      t ≠ ⟨⟨c.current.signingKey, m.chainId⟩, m.nonce⟩) :
    ∃ r', T' t = some r' ∧ r.hashes <+: r'.hashes := by
  cases h with
  | keep => exact ⟨r, hr, List.prefix_rfl⟩
  | @report u report =>
    rcases eq_or_ne t u with rfl | hne
    · refine ⟨_, Function.update_self .., ?_⟩
      rw [of, hr]
      exact List.prefix_append _ _
    · exact ⟨r, (Function.update_of_ne hne ..).trans hr, List.prefix_rfl⟩
  | settle hc =>
    exact ⟨r, (Function.update_of_ne (hother _ _ rfl hc) ..).trans hr, List.prefix_rfl⟩

end Trackers

/-! ### Trackers in the store -/

/-- The outbound trackers that are stored in a world. -/
def World.trackers (w : World γ) : Trackers := fun t =>
  w.store.ledger (.outboundTracker t.lane.signingKey t.lane.chainId t.nonce)

theorem Ticket.eq_of_trackerKey_eq {t u : Ticket}
    (h : Key.outboundTracker t.lane.signingKey t.lane.chainId t.nonce
      = .outboundTracker u.lane.signingKey u.lane.chainId u.nonce) : t = u := by
  obtain ⟨⟨key, chainId⟩, nonce⟩ := t
  cases h
  rfl

namespace World

variable {w w' : World γ} {max : Nat}

theorem trackers_eq_of_entries_eq (h : w'.store.entries = w.store.entries) :
    w'.trackers = w.trackers :=
  funext fun _ => congrFun (ledger_eq_of_entries_eq h) _

theorem Sound.outboundTracker?_eq (h : w.Sound) (t : Ticket) :
    Journal.outboundTracker? w.store.restored t.lane.signingKey t.lane.chainId t.nonce
      = .ok (w.trackers t) :=
  storeError_lift_settlement_eq_ok_iff.2
    (getRecord_restored h.records h.legible (.outboundTracker _ _ _))

/-- **A report enters its hash into one tracker at most.** -/
theorem step_of_report {draft : Draft} {b : Backend} {config : SettlementConfig}
    {m : OutboundHashReport} (h : w.Sound)
    (htracked : w.trackers.Sound w.accounts config.maxTrackerHashes.toNat)
    (hreport : Journal.addOutboundTracker config (.fresh w.store : Draft) m = .ok draft)
    (hb : b.Addressable) (hcontents : contents b = contents draft) :
    ∃ T, w.trackers.Step w.accounts config.maxTrackerHashes.toNat none T ∧
      ∀ t, b.ledger (.outboundTracker t.lane.signingKey t.lane.chainId t.nonce) = T t := by
  obtain ⟨t, stored, hlinks⟩ := Journal.links_of_addOutboundTracker hreport
  obtain rfl : stored = w.trackers t :=
    getRecord_of_records h.records.fresh (.outboundTracker _ _ _) (h.legible.fits _)
      (storeError_lift_settlement_eq_ok_iff.1 hlinks.stored_eq)
  rcases hlinks.entered with hsame | ⟨hnew, hroom, hset⟩
  · subst hsame
    exact ⟨_, .keep, fun u =>
      (h.records.fresh.congr hcontents).ledger_eq hb (.outboundTracker _ _ _)⟩
  have horderly : ((w.trackers.of t).add ⟨m.txHash, m.creator.account⟩).Orderly t _ :=
    (htracked.orderly_of t).add hlinks.txHash_ne hnew hroom
  have hopen := Journal.open_of_ownsUnsettled h.records.fresh h.legible h.accounts hlinks.owns
  refine ⟨_, .report hopen horderly, fun u => ?_⟩
  -- The tracker is stored under its own key, which is that of the ticket.
  have hput : putRecord (.fresh w.store : Draft)
      (Key.outboundTracker t.lane.signingKey t.lane.chainId t.nonce).bytes
      ((w.trackers.of t).add ⟨m.txHash, m.creator.account⟩) = .ok draft := by
    have hput := storeError_lift_settlement_eq_ok_iff.1 hset
    change putRecord _ (Key.outboundTracker (w.trackers.of t).signingKey (w.trackers.of t).chainId
      (w.trackers.of t).nonce).bytes _ = _ at hput
    rwa [(htracked.orderly_of t).signingKey_eq, (htracked.orderly_of t).chainId_eq,
      (htracked.orderly_of t).nonce_eq] at hput
  have hledger := ((h.records.fresh.put (.outboundTracker _ _ _) hput).congr hcontents).ledger_eq hb
    (.outboundTracker u.lane.signingKey u.lane.chainId u.nonce)
  refine hledger.trans ?_
  rcases eq_or_ne u t with rfl | hne
  · rw [Function.update_self]
    exact Ledger.set_self ..
  · rw [Function.update_of_ne hne]
    exact Ledger.set_of_ne _ _ fun heq => hne (Ticket.eq_of_trackerKey_eq heq)

/-- **A vote on an outbound transaction removes the tracker of the attempt that it settles.** -/
theorem step_of_vote {draft : Draft} {b : Backend} {policy : StalePolicy}
    {config : SettlementConfig} {block : Block} {m : OutboundVote} {receipt : VoteReceipt}
    {effects : Effects} (h : w.Sound)
    (hvote : Journal.voteOutbound policy config (.fresh w.store : Draft) block m
      = .ok (receipt, draft, effects)) (hcontents : contents b = contents draft) :
    ∃ T, w.trackers.Step w.accounts max (if receipt.finalized then some m else none) T ∧
      ∀ t, b.ledger (.outboundTracker t.lane.signingKey t.lane.chainId t.nonce) = T t := by
  obtain ⟨hpending, hdecided⟩ := Journal.untracked_of_voteOutbound hvote
  cases hfinalized : receipt.finalized with
  | false =>
    have htouches : Touches Key.IsTransacted w.store b := (hpending hfinalized).congr rfl hcontents
    exact ⟨_, .keep, fun t => htouches.ledger_eq (k := .outboundTracker _ _ _) id⟩
  | true =>
    obtain ⟨c, hstored, hchecked, htouches, hremoved⟩ := hdecided hfinalized
    have hc := (Journal.eq_of_cctx? h.records.fresh h.legible hstored).symm
    obtain ⟨hticket, -, -⟩ := Cctx.eq_of_openTicket? (Journal.openTicket?_of_checkAttempt hchecked)
    obtain ⟨-, hchain, hnonce⟩ := Attempt.ticket?_eq_some_iff.1 hticket
    have htracked (t : Ticket) : c.current.IsTrackedUnder
        (.outboundTracker t.lane.signingKey t.lane.chainId t.nonce) ↔
          t = ⟨⟨c.current.signingKey, m.chainId⟩, m.nonce⟩ := by
      rw [← hchain]
      constructor
      · rintro ⟨nonce, hn, heq⟩
        cases hnonce.symm.trans hn
        exact Ticket.eq_of_trackerKey_eq (u := ⟨⟨c.current.signingKey, _⟩, m.nonce⟩) heq
      · rintro rfl
        exact ⟨m.nonce, hnonce, rfl⟩
    refine ⟨_, .settle hc, fun t => ?_⟩
    by_cases ht : t = ⟨⟨c.current.signingKey, m.chainId⟩, m.nonce⟩
    · have hnone : contents b (Key.outboundTracker t.lane.signingKey t.lane.chainId t.nonce).bytes
          = none := hcontents ▸ hremoved _ ((htracked t).2 ht)
      rw [ht, Function.update_self, ← ht]
      exact congrArg (Option.bind · _) hnone
    · rw [Function.update_of_ne ht]
      exact (htouches.congr rfl hcontents : Touches _ w.store b).ledger_eq
        (k := .outboundTracker _ _ _)
        fun hwrites => ht ((htracked t).1 ((hwrites.resolve_left id).resolve_right id))

end World

section Calls

variable [Gateway γ] {service : Service} {w : World γ} {call : Call}

/-- **Only reports and votes on outbound transactions are about outbound trackers.** -/
theorem Service.trackers_eq (hreport : ∀ m, call ≠ .addOutboundTracker m)
    (hvote : ∀ block m, call ≠ .voteOutbound block m) :
    (service.execute w call).world.trackers = w.trackers := by
  refine funext fun t => (service.touches w call).ledger_eq (k := .outboundTracker _ _ _) ?_
  intro hwrites
  cases call with
  | addOutboundTracker m => exact hreport m rfl
  | voteOutbound block m => exact hvote block m rfl
  | migrateFunds => exact hwrites.elim id id
  | castVote | pruneBallots | voteInbound | addInboundTracker | setObserverSet | addObserver
  | replaceObserver | registerChain | updateChainParams | setSwitches | registerKey
  | activateKey => exact hwrites

/-- **What any call makes of the trackers.** -/
theorem World.Sound.trackers_step (h : w.Sound)
    (htracked : w.trackers.Sound w.accounts service.settlement.maxTrackerHashes.toNat)
    (hstore : (service.execute w call).world.store.Addressable) :
    w.trackers.Step w.accounts service.settlement.maxTrackerHashes.toNat
      (Service.settledBy call (service.execute w call).answer)
      (service.execute w call).world.trackers := by
  have hkeep (hreport : ∀ m, call ≠ .addOutboundTracker m)
      (hvote : ∀ block m, call ≠ .voteOutbound block m) :
      w.trackers.Step w.accounts service.settlement.maxTrackerHashes.toNat
        (Service.settledBy call (service.execute w call).answer)
        (service.execute w call).world.trackers := by
    have hnone : Service.settledBy call (service.execute w call).answer = none := by
      refine Option.eq_none_iff_forall_ne_some.2 fun m hm => ?_
      obtain ⟨block, _, rfl, -⟩ := Service.settledBy_eq_some_iff.1 hm
      exact hvote block m rfl
    rw [hnone, Service.trackers_eq hreport hvote]
    exact .keep
  obtain ⟨e, g, hrefused⟩ | ⟨answer, draft, effects, g, b, hhandled, hcontents, hreply⟩ :=
    service.committed_cases w call
  · rw [hrefused, Service.settledBy_eq_none (acceptedVote?_error w.observers call e)]
    exact .keep
  cases call with
  | addOutboundTracker m =>
    rw [hreply] at hstore ⊢
    obtain ⟨draft', hreport, heq⟩ := Handled.exists_of_ok hhandled
    cases heq
    obtain ⟨T, hT, heq⟩ := World.step_of_report h htracked hreport hstore hcontents
    obtain rfl := funext heq
    exact hT
  | voteOutbound block m =>
    rw [hreply]
    obtain ⟨⟨receipt, draft', effects'⟩, hvote, heq⟩ := Handled.exists_of_ok hhandled
    cases heq
    obtain ⟨T, hT, heq⟩ := World.step_of_vote h hvote hcontents
    obtain rfl := funext heq
    exact hT
  | _ => exact hkeep (by simp) (by simp)

/-- **Every tracker that is reached is in order**, and what it tracks is in flight. -/
theorem Reachable.trackers_sound (h : Reachable service w) :
    w.trackers.Sound w.accounts service.settlement.maxTrackerHashes.toNat := by
  obtain ⟨w₀, turns, hempty, hrun⟩ := h
  have h₀ := World.sound_of_entries_eq_empty hempty
  induction hrun with
  | start =>
    have hnone (t : Ticket) : w₀.trackers t = none :=
      congrFun (World.ledger_eq_empty hempty) _
    exact ⟨fun t r hr => by simp [hnone] at hr, fun t r hr => by simp [hnone] at hr,
      fun t r hr => by simp [hnone] at hr⟩
  | call hrun c hstore ih =>
    have hsound := hrun.sound h₀
    exact ih.step (hsound.execute hstore).2 hsound.accounts.toFiled (hsound.trackers_step ih hstore)
  | outside _ hentries ih =>
    rw [World.trackers_eq_of_entries_eq hentries, World.accounts_eq_of_entries_eq hentries]
    exact ih

/-- **Outbound trackers live as long as what they track.** In a world that is reached from an empty
store, the tracker that is found for a signing key, a chain and a nonce is stored with this key,
this chain and this nonce; the nonce is pending; and there are hashes in it, at most as many as are
allowed, none of them empty and no two the same up to case. Whatever is called then, unless it is a
vote that settles the attempt with this key, this chain and this nonce, the tracker is still there
with the same hashes, and others behind them at most. -/
theorem Reachable.trackers_live (h : Reachable service w) {key : String} {chainId : ChainId}
    {n : UInt64} {r : OutboundTracker}
    (hr : Journal.outboundTracker? w.store.restored key chainId n = .ok (some r)) :
    r.signingKey = key ∧ r.chainId = chainId ∧ r.nonce = n ∧
    (∃ pending, Registry.pendingNonces w.store.restored key chainId = .ok pending ∧
      n ∈ pending.toList) ∧
    r.hashes ≠ [] ∧ r.hashes.length ≤ service.settlement.maxTrackerHashes.toNat ∧
    (∀ h ∈ r.hashes, h.txHash ≠ "") ∧
    (r.hashes.Pairwise fun h h' => foldCase h.txHash ≠ foldCase h'.txHash) ∧
    ∀ call, (service.execute w call).world.store.Addressable →
      (∀ m c, Service.settledBy call (service.execute w call).answer = some m →
        w.Stores m.cctxIndex c →
        ¬(c.current.signingKey = key ∧ m.chainId = chainId ∧ m.nonce = n)) →
      ∃ r', Journal.outboundTracker? (service.execute w call).world.store.restored key chainId n
          = .ok (some r') ∧ r.hashes <+: r'.hashes := by
  have hsound := h.sound
  have htrackers := h.trackers_sound
  have hstored : w.trackers ⟨⟨key, chainId⟩, n⟩ = some r :=
    Except.ok.inj ((hsound.outboundTracker?_eq ⟨⟨key, chainId⟩, n⟩).symm.trans hr)
  have horderly := htrackers.orderly _ r hstored
  refine ⟨horderly.signingKey_eq, horderly.chainId_eq, horderly.nonce_eq,
    ⟨_, hsound.pendingNonces_eq ⟨key, chainId⟩,
      hsound.mem_pending_iff.2 (htrackers.isOpen _ r hstored)⟩,
    htrackers.ne_nil _ r hstored, horderly.length_le, horderly.txHash_ne, horderly.pairwise,
    fun call hstore hother => ?_⟩
  obtain ⟨r', hr', hprefix⟩ := (hsound.trackers_step htrackers hstore).kept hstored
    fun m c hsettled hc heq => by
      cases heq
      exact hother m c hsettled (hsound.stores_iff.2 hc) ⟨rfl, rfl, rfl⟩
  refine ⟨r', ?_, hprefix⟩
  rw [← hr']
  exact (hsound.execute hstore).1.outboundTracker?_eq ⟨⟨key, chainId⟩, n⟩

end Calls

/-! ### A transaction that was broadcast -/

namespace Sample

/-- The outbound transaction of the deposit was broadcast. -/
def sighting : OutboundHashReport where
  creator := observer
  chainId := chainId
  nonce := 0
  txHash := "0xCD"
  signingKey := none

/-- What is known of it. -/
def sighted : OutboundTracker :=
  ⟨"key", chainId, 0, [⟨"0xCD", "observer"⟩]⟩

/-- The world after the report of that. -/
def tracked : World ScriptedGateway :=
  (service.execute world (.addOutboundTracker sighting)).world

/-- The tracker is entered for the key to which the nonce belongs. Another hash comes behind the
first one. -/
theorem tracker_of_deposit :
    Journal.outboundTracker? tracked.store.restored "key" chainId 0 = .ok (some sighted) ∧
    ∃ r, Journal.outboundTracker? (service.execute tracked
        (.addOutboundTracker { sighting with txHash := "0xEF" })).world.store.restored
        "key" chainId 0 = .ok (some r) ∧ sighted.hashes <+: r.hashes := by
  have hevaluated :
      (service.execute world (.addOutboundTracker sighting)).world.store.Addressable ∧
      tracked.trackers ⟨⟨"key", chainId⟩, 0⟩ = some sighted ∧
      (service.execute tracked
        (.addOutboundTracker { sighting with txHash := "0xEF" })).world.store.Addressable := by
    decide +kernel
  obtain ⟨hstore, htracker, hstore'⟩ := hevaluated
  have hreachable : Reachable service tracked := ⟨start, _, rfl, run.call _ hstore⟩
  have hfound : Journal.outboundTracker? tracked.store.restored "key" chainId 0
      = .ok (some sighted) :=
    (hreachable.sound.outboundTracker?_eq ⟨⟨"key", chainId⟩, 0⟩).trans (congrArg _ htracker)
  obtain ⟨-, -, -, -, -, -, -, -, hkept⟩ := Reachable.trackers_live hreachable hfound
  refine ⟨hfound, hkept _ hstore' fun m c hsettled => ?_⟩
  obtain ⟨_, _, hcall, -⟩ := Service.settledBy_eq_some_iff.1 hsettled
  cases hcall

end Sample

end Settlement
