import Settlement.Proofs.Queries

/-!
# Every attempt is settled once

Votes on outbound transactions may be repeated, come late, or come for the first attempt when
the revert is already under way; nonces of different chains may be equal, and ballots may have
been pruned. A transaction changes its state only by a vote that decides its ballot, and only
if the vote names the chain and the nonce of the attempt in flight. The attempt is executed from
then on, and attempts of one transaction never share a chain and a nonce, so that no other vote
can settle it again.

The invariant of a run is that every vote that has settled something has left an executed attempt
behind, and that no two of them were about the same one (`Settlement.Accounts.Settled`).

Main statement: `Settlement.Run.settled_once`.
-/

namespace Settlement

variable {γ : Type}

/-- The attempt that a vote is about: the transaction, and the chain and the nonce in it. -/
def OutboundVote.attempt (m : OutboundVote) : Digest × ChainId × UInt64 :=
  (m.cctxIndex, m.chainId, m.nonce)

/-- The votes that have settled an attempt in some turns, in their order. -/
def Service.settlements [Gateway γ] (service : Service) (turns : List (Turn γ)) :
    List OutboundVote :=
  turns.filterMap fun t => settledBy t.call (service.execute t.world t.call).answer

theorem Service.settlements_concat [Gateway γ] (service : Service) (turns : List (Turn γ))
    (t : Turn γ) : service.settlements (turns ++ [t]) = service.settlements turns
      ++ (settledBy t.call (service.execute t.world t.call).answer).toList := by
  rw [settlements, List.filterMap_append, List.filterMap_cons]
  cases settledBy t.call (service.execute t.world t.call).answer <;> rfl

/-! ### Attempts that are settled -/

namespace Accounts

variable {a b : Accounts} {ms : List OutboundVote}

/-- The votes have each settled another attempt. -/
structure Settled (a : Accounts) (ms : List OutboundVote) : Prop where
  executed : ∀ m ∈ ms, ∃ (c : Cctx) (i : Nat) (e : Attempt),
    a.cctx m.cctxIndex = some c ∧ c.attempts[i]? = some e ∧ e.chainId = m.chainId ∧
    e.nonce = some m.nonce ∧ e.isExecuted = true
  nodup : (ms.map OutboundVote.attempt).Nodup

namespace Settled

theorem of_extends (h : a.Settled ms) (hextends : a.Extends b) : b.Settled ms := by
  refine ⟨fun m hm => ?_, h.nodup⟩
  obtain ⟨c, i, e, hc, he, hchain, hnonce, hexecuted⟩ := h.executed m hm
  obtain ⟨d, hd, hfollows⟩ := hextends.cctx _ c hc
  obtain ⟨f, hf, hef⟩ := hfollows.attempts i e he
  exact ⟨d, i, f, hd, hf, (congrArg Lane.chainId hef.lane_eq).trans hchain,
    hef.nonce_eq.trans hnonce, hef.isExecuted hexecuted⟩

/-- **An attempt that was settled is executed.** No other attempt of the transaction has its chain
and its nonce. -/
theorem isExecuted (h : a.Settled ms) (hsound : a.Sound) {m : OutboundVote} {c : Cctx}
    {e : Attempt} (hm : m.attempt ∈ ms.map OutboundVote.attempt)
    (hc : a.cctx m.cctxIndex = some c) (he : e ∈ c.attempts) (hchain : e.chainId = m.chainId)
    (hnonce : e.nonce = some m.nonce) : e.isExecuted = true := by
  obtain ⟨m', hm', heq⟩ := List.mem_map.1 hm
  obtain ⟨hindex, hrest⟩ := Prod.mk.inj heq
  obtain ⟨hchain', hnonce'⟩ := Prod.mk.inj hrest
  obtain ⟨d, i, f, hd, hf, hfchain, hfnonce, hexecuted⟩ := h.executed m' hm'
  rw [hindex, hc] at hd
  cases hd
  obtain ⟨j, hj⟩ := List.mem_iff_getElem?.1 he
  -- The executed attempt is in the place of the one that is asked for.
  have hslot := hsound.slot_eq hc hf hj (hfchain.trans (hchain'.trans hchain.symm))
    (hfnonce.trans (congrArg some hnonce')) hnonce
  rw [hslot, hj] at hf
  cases hf
  exact hexecuted

/-- What was settled is not in flight any more. -/
theorem attempt_notMem (h : a.Settled ms) (hsound : a.Sound) {m : OutboundVote} {c : Cctx}
    {key : String} (hc : a.cctx m.cctxIndex = some c)
    (hopen : c.openTicket? = some ⟨⟨key, m.chainId⟩, m.nonce⟩) :
    m.attempt ∉ ms.map OutboundVote.attempt := by
  intro hmem
  obtain ⟨hticket, -, hpending⟩ := Cctx.eq_of_openTicket? hopen
  obtain ⟨-, hchain, hnonce⟩ := Attempt.ticket?_eq_some_iff.1 hticket
  have hexecuted := h.isExecuted hsound hmem hc c.current_mem_attempts hchain hnonce
  rw [hpending] at hexecuted
  cases hexecuted

/-- **A step settles at most one attempt, and none that was settled before.** -/
theorem step (h : a.Settled ms) (hsound : a.Sound) {settled : Option OutboundVote}
    (hstep : a.Step settled b) : b.Settled (ms ++ settled.toList) := by
  have hextends := hsound.extends_of_step hstep
  have hkept := h.of_extends hextends
  cases hstep with
  | keep | mark | openInbound | openMigration =>
    rw [Option.toList_none, List.append_nil]
    exact hkept
  | @settle m c d lane hcctx hopen hsettles =>
    have hnew := h.attempt_notMem hsound hcctx hopen
    rw [Option.toList_some]
    refine ⟨fun m' hm' => ?_, ?_⟩
    · rcases List.mem_append.1 hm' with hm' | hm'
      · exact hkept.executed m' hm'
      · obtain rfl := List.mem_singleton.1 hm'
        obtain ⟨e, he, hfollows, hexecuted⟩ := hsettles.exists_executed
        obtain ⟨i, hi⟩ := List.mem_iff_getElem?.1 he
        obtain ⟨-, hchain, hnonce⟩ :=
          Attempt.ticket?_eq_some_iff.1 (Cctx.eq_of_openTicket? hopen).1
        refine ⟨d, i, e, ?_, hi, (congrArg Lane.chainId hfollows.lane_eq).trans hchain,
          hfollows.nonce_eq.trans hnonce, hexecuted⟩
        rw [Renews.renew_cctx, if_pos]
        rw [hsettles.index_eq, hsound.index_eq _ _ hcctx]
    · rw [List.map_append, List.map_singleton]
      refine List.nodup_append.2 ⟨h.nodup, List.nodup_singleton _, fun p hp q hq => ?_⟩
      obtain rfl := List.mem_singleton.1 hq
      exact fun heq => hnew (heq ▸ hp)

/-- **No transaction is settled more often than it has attempts.** -/
theorem length_filter_le (h : a.Settled ms) (x : Digest) :
    (ms.filter (·.cctxIndex = x)).length ≤ 2 := by
  by_cases hnil : ms.filter (·.cctxIndex = x) = []
  · rw [hnil]
    exact Nat.zero_le 2
  obtain ⟨m, hm⟩ := List.exists_mem_of_ne_nil _ hnil
  obtain ⟨hmem, hindex⟩ := List.mem_filter.1 hm
  obtain ⟨c, -, -, hc, -⟩ := h.executed m hmem
  rw [of_decide_eq_true hindex] at hc
  have hnodup : ((ms.filter (·.cctxIndex = x)).map OutboundVote.attempt).Nodup :=
    h.nodup.sublist (List.filter_sublist.map _)
  have hsubset : (ms.filter (·.cctxIndex = x)).map OutboundVote.attempt ⊆
      c.attempts.map fun b => (x, b.chainId, b.nonce.getD 0) := by
    intro p hp
    obtain ⟨m, hm, rfl⟩ := List.mem_map.1 hp
    obtain ⟨hmem, hindex⟩ := List.mem_filter.1 hm
    obtain ⟨d, i, e, hd, he, hchain, hnonce, -⟩ := h.executed m hmem
    rw [of_decide_eq_true hindex, hc] at hd
    cases hd
    refine List.mem_map.2 ⟨e, List.mem_of_getElem? he, ?_⟩
    rw [OutboundVote.attempt, of_decide_eq_true hindex, hchain, hnonce, Option.getD_some]
  have hle := hnodup.length_le_of_subset hsubset
  rw [List.length_map, List.length_map] at hle
  exact Nat.le_trans hle c.length_attempts_le

end Settled

/-- A step that settles nothing leaves every transaction as it is. -/
theorem Step.cctx_eq (h : a.Step none b) {x : Digest} {c : Cctx} (hc : a.cctx x = some c) :
    b.cctx x = some c := by
  cases h with
  | keep | mark => exact hc
  | openInbound hmark hopens =>
    rw [Renews.renew_cctx, if_neg (hopens.index_ne hc)]
    exact hc
  | openMigration hcmd hopens =>
    rw [Renews.renew_cctx, if_neg (hopens.index_ne hc), hc]

end Accounts

/-! ### The vote that changes a state -/

/-- What a vote on an outbound transaction rests on that changes the state of a transaction, and
what it leaves behind. -/
structure World.Justifies (w w' : World γ) (m : OutboundVote) (c d : Cctx) : Prop where
  /-- The vote is about the attempt in flight, -/
  chainId_eq : c.current.chainId = m.chainId
  nonce_eq : c.current.nonce = some m.nonce
  /-- whose outcome is not known yet. -/
  isExecuted_eq : c.current.isExecuted = false
  /-- If that is a revert, the vote is not about the first attempt. -/
  not_first : c.isReverting = true →
    ¬(c.outbound.chainId = m.chainId ∧ c.outbound.nonce = some m.nonce)
  /-- The voter is an observer, -/
  isObserver : ∃ observers, Registry.observerSet w.store.restored = .ok observers ∧
    observers.contains m.creator = true
  /-- and the first to decide the ballot, who has not voted on it before. -/
  ballot_before : ∃ stored, Registry.ballot? w.store.restored m.digest = .ok stored ∧
    ∀ b, stored = some b → b.status = .pending ∧ b.hasVoted m.creator = false
  /-- The ballot is decided, and the new state is what it says. -/
  ballot_after : ∃ b, Registry.ballot? w'.store.restored m.digest = .ok (some b) ∧
    b.isFinalized = true ∧
    (d.status = .outboundMined ∨ d.status = .reverted ↔ b.status = .success) ∧
    (d.status = .pendingRevert ∨ d.status = .aborted ↔ b.status = .failure) ∧
    (b.status = .success → m.valueReceived = c.current.amount)

namespace BallotStatus.LeadsTo

variable {b : BallotStatus} {s : CctxStatus}

theorem success_iff (h : b.LeadsTo s) : s = .outboundMined ∨ s = .reverted ↔ b = .success := by
  cases b with
  | pending => cases h
  | success => exact iff_of_true h rfl
  | failure => rcases h with rfl | rfl <;> simp

theorem failure_iff (h : b.LeadsTo s) : s = .pendingRevert ∨ s = .aborted ↔ b = .failure := by
  cases b with
  | pending => cases h
  | success => rcases h with rfl | rfl <;> simp
  | failure => exact iff_of_true h rfl

end BallotStatus.LeadsTo

/-- Only a vote on an outbound transaction settles an attempt, and its receipt says so. -/
theorem Service.settledBy_eq_some_iff {call : Call} {answer : Except CallError Answer}
    {m : OutboundVote} : settledBy call answer = some m ↔
      ∃ block receipt, call = .voteOutbound block m ∧ answer = .ok (.receipt receipt) ∧
        receipt.finalized = true := by
  constructor
  · intro h
    rw [settledBy.eq_def] at h
    split at h
    · next block m' receipt =>
      obtain ⟨hfinalized, heq⟩ := Option.ite_none_right_eq_some.1 h
      cases heq
      exact ⟨block, receipt, rfl, rfl, hfinalized⟩
    · cases h
  · rintro ⟨block, receipt, rfl, rfl, hfinalized⟩
    exact if_pos hfinalized

section Runs

variable [Gateway γ] {service : Service} {w w₀ : World γ} {turns : List (Turn γ)}

/-- **A vote that settles an attempt is justified in what it makes of the transaction**, and leaves
all other transactions as they are. -/
theorem World.Sound.justifies (h : w.Sound) {block : Block} {m : OutboundVote}
    {receipt : VoteReceipt}
    (hstore : (service.execute w (.voteOutbound block m)).world.store.Addressable)
    (hanswer : (service.execute w (.voteOutbound block m)).answer = .ok (.receipt receipt))
    (hfinalized : receipt.finalized = true) : ∃ c d, w.accounts.cctx m.cctxIndex = some c ∧
      w.Justifies (service.execute w (.voteOutbound block m)).world m c d ∧
      ∀ x, (service.execute w (.voteOutbound block m)).world.accounts.cctx x =
        if x = m.cctxIndex then some d else w.accounts.cctx x := by
  have hafter := (h.execute hstore).1
  obtain ⟨e, hrefused⟩ | ⟨receipt', c, outcome, ballots, hanswer', htaken, htells, -, hdecided⟩ :=
    Service.voteOutbound_cases service h.records h.legible h.ballotsFiled h.accounts.toFiled block m
  · rw [hrefused] at hanswer
    cases hanswer
  cases hanswer.symm.trans hanswer'
  have houtcome : outcome.finalized = true := htells.finalized_eq.symm.trans hfinalized
  obtain ⟨d, lane, hsettled, hbooks, -⟩ := hdecided houtcome
  obtain ⟨-, haccounts, hballots⟩ := hbooks.ledger hstore
  obtain ⟨hbefore, hstored, hended⟩ := htaken.voted.decides houtcome
  have hcctx : w.accounts.cctx m.cctxIndex = some c := htaken.cctx_eq
  have hindex : d.index = m.cctxIndex :=
    hsettled.settles.index_eq.trans (h.accounts.index_eq _ _ hcctx)
  obtain ⟨hticket, -, hopen⟩ := Cctx.eq_of_openTicket? htaken.openTicket?_eq
  obtain ⟨-, hchain, hnonce⟩ := Attempt.ticket?_eq_some_iff.1 hticket
  refine ⟨c, d, hcctx, ⟨hchain, hnonce, hopen, fun hreverting hfirst => ?_,
    ⟨_, h.observerSet_eq, htaken.isObserver⟩,
    ⟨_, h.ballot?_eq _, fun b hb => ⟨hbefore b hb, htaken.not_voted b hb⟩⟩,
    ⟨outcome.ballot, ?_, hended, hsettled.leadsTo.success_iff, hsettled.leadsTo.failure_iff,
      hsettled.value_eq⟩⟩, fun x => ?_⟩
  · -- The first attempt and the revert are in different places.
    obtain ⟨r, hr⟩ := Option.isSome_iff_exists.1 hreverting
    have hcurrent : c.attempts[1]? = some c.current := by
      rw [Cctx.attempts, Cctx.current, hr]
      rfl
    have hslot := h.accounts.slot_eq hcctx (i := 0) rfl hcurrent
      (hfirst.1.trans hchain.symm) hfirst.2 hnonce
    cases hslot
  · rw [hafter.ballot?_eq, World.ballots, hballots, hstored]
  · rw [World.accounts, haccounts, Accounts.Renews.renew_cctx, hindex]
    rfl

/-- What was settled in a run. -/
theorem Run.settled (hrun : Run service w₀ turns w) (hempty : w₀.store.entries = .empty) :
    w.accounts.Settled (service.settlements turns) := by
  have h₀ := World.sound_of_entries_eq_empty hempty
  induction hrun with
  | start => exact ⟨by simp [Service.settlements], List.nodup_nil⟩
  | @call turns w hrun c hstore ih =>
    have hsound := hrun.sound h₀
    rw [Service.settlements_concat]
    exact ih.step hsound.accounts (hsound.execute hstore).2
  | outside _ hentries ih =>
    rw [World.accounts_eq_of_entries_eq hentries]
    exact ih

/-- **Every change of a state is justified, and every attempt is settled once.** In a world that
is reached from an empty store, whatever call is made, a stored transaction stays stored. If its
state changes, the call is a vote on an outbound transaction that names it and decides its
ballot. In the run up to there, no two votes have settled the same attempt, and no more than two
have settled an attempt of the same transaction. -/
theorem Run.settled_once (hrun : Run service w₀ turns w) (hempty : w₀.store.entries = .empty) :
    (∀ call, (service.execute w call).world.store.Addressable → ∀ x c, w.Stores x c →
      ∃ d, (service.execute w call).world.Stores x d ∧ (d.status ≠ c.status →
        ∃ block m receipt, call = .voteOutbound block m ∧ m.cctxIndex = x ∧
          (service.execute w call).answer = .ok (.receipt receipt) ∧
          receipt.finalized = true ∧ w.Justifies (service.execute w call).world m c d)) ∧
    ((service.settlements turns).map OutboundVote.attempt).Nodup ∧
    ∀ x, ((service.settlements turns).filter (·.cctxIndex = x)).length ≤ 2 := by
  have hsound := hrun.sound (World.sound_of_entries_eq_empty hempty)
  have hsettled := hrun.settled hempty
  refine ⟨fun call hstore x c hc => ?_, hsettled.nodup, hsettled.length_filter_le⟩
  obtain ⟨hafter, hstep⟩ := hsound.execute hstore
  simp only [hsound.stores_iff, hafter.stores_iff] at hc ⊢
  cases hby : Service.settledBy call (service.execute w call).answer with
  | none =>
    rw [hby] at hstep
    exact ⟨c, hstep.cctx_eq hc, fun hne => absurd rfl hne⟩
  | some m =>
    obtain ⟨block, receipt, rfl, hanswer, hfinalized⟩ := Service.settledBy_eq_some_iff.1 hby
    obtain ⟨c', d, hc', hjustifies, hcctx⟩ := hsound.justifies hstore hanswer hfinalized
    by_cases hx : x = m.cctxIndex
    · subst hx
      cases hc.symm.trans hc'
      exact ⟨d, by rw [hcctx, if_pos rfl], fun _ =>
        ⟨block, m, receipt, rfl, rfl, hanswer, hfinalized, hjustifies⟩⟩
    · exact ⟨c, by rw [hcctx, if_neg hx, hc], fun hne => absurd rfl hne⟩

/-- The attempt that the deposit waits for fails. -/
def Sample.failure : OutboundVote where
  creator := observer
  cctxIndex := deposit.digest
  hash := "0xCD"
  height := 2
  gasUsed := 21000
  gasPrice := .ofNat 1
  effectiveGasLimit := 21000
  valueReceived := deposit.amount
  outcome := .failed
  chainId := chainId
  nonce := 0
  coinType := .gas

/-- The vote of the only observer starts the revert of the deposit. -/
theorem Sample.failure_justified : ∃ d,
    (Sample.service.execute Sample.world (.voteOutbound ⟨2, 2⟩ Sample.failure)).world.Stores
        Sample.deposit.digest d ∧
      d.status = .pendingRevert ∧
      Sample.world.Justifies
        (Sample.service.execute Sample.world (.voteOutbound ⟨2, 2⟩ Sample.failure)).world
        Sample.failure Sample.cctx d := by
  have hafter : (Sample.service.execute Sample.world
        (.voteOutbound ⟨2, 2⟩ Sample.failure)).world.store.Addressable ∧
      ((Sample.service.execute Sample.world
        (.voteOutbound ⟨2, 2⟩ Sample.failure)).world.accounts.cctx Sample.deposit.digest).map
          Cctx.status = some .pendingRevert := by decide +kernel
  obtain ⟨hstore, hstatus⟩ := hafter
  obtain ⟨d, hd, hchanged⟩ :=
    (Run.settled_once Sample.run rfl).1 _ hstore _ _ Sample.stores
  have hsound := (Sample.reachable.sound.execute hstore).1
  rw [hsound.stores_iff.1 hd] at hstatus
  have hstatus := Option.some.inj hstatus
  obtain ⟨_, _, _, hcall, -, -, -, hjustifies⟩ := hchanged (by rw [hstatus]; decide)
  cases hcall
  exact ⟨d, hd, hstatus, hjustifies⟩

end Runs

end Settlement
