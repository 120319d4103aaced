import Settlement.Proofs.Deposits
import Settlement.Proofs.Independence
import Settlement.Proofs.Listings
import Settlement.Proofs.SettledHistory

/-!
# Votes that commute

Two votes are apart (`Settlement.TransactionVote.Apart`) if they are on different ballots, about
different transactions, and involve no common chain. Then neither writes under a key that the other
one sees, so each of them is shown the same before and after the other one, and makes the same
writes. Under every key only one of them writes, and so the order does not matter.

Main statement: `Settlement.Reachable.votes_commute`.
-/

namespace Settlement

variable {γ : Type}

/-! ### Writes in either order -/

namespace Backend

variable {b : Backend} {writes writes' : List Write}

theorem contents_written (b : Backend) (writes : List Write) :
    contents (b.written writes) = writes.foldl Contents.apply (contents b) :=
  find?_applyAll b.entries writes

/-- The writes change nothing in a place of the store. -/
def Spares (b : Backend) (writes : List Write) (bs : Bytes) : Prop :=
  contents (b.written writes) bs = contents b bs

/-- In a place that some writes spare before and after others, they may come first or last. -/
theorem contents_written_comm {bs : Bytes} (h : b.Spares writes bs)
    (h' : (b.written writes').Spares writes bs) :
    contents ((b.written writes).written writes') bs
      = contents ((b.written writes').written writes) bs := by
  calc contents ((b.written writes).written writes') bs
      = writes'.foldl Contents.apply (contents (b.written writes)) bs := by rw [contents_written]
    _ = writes'.foldl Contents.apply (contents b) bs := Contents.foldl_apply_congr h writes'
    _ = contents (b.written writes') bs := by rw [contents_written]
    _ = contents ((b.written writes').written writes) bs := h'.symm

/-- **Writes commute if every place is spared by some of them**, before and after the others. -/
theorem written_comm (h : ∀ bs,
      b.Spares writes bs ∧ (b.written writes').Spares writes bs ∨
        b.Spares writes' bs ∧ (b.written writes).Spares writes' bs) :
    (b.written writes).written writes' = (b.written writes').written writes := by
  have hentries : ((b.written writes).written writes').entries
      = ((b.written writes').written writes).entries := by
    refine ByteMap.ext_find? fun bs => ?_
    rcases h bs with ⟨hfirst, hlast⟩ | ⟨hfirst, hlast⟩
    · exact contents_written_comm hfirst hlast
    · exact (contents_written_comm hfirst hlast).symm
  exact congrArg (fun entries => { b with entries }) hentries

end Backend

/-! ### What calls leave -/

namespace Service

variable [Gateway γ] (service : Service) (w : World γ)

theorem exists_written (c : Call) :
    ∃ writes, (service.execute w c).world.store = w.store.written writes := by
  obtain ⟨e, hreply, -⟩ | ⟨answer, r, effects, -, hreply⟩ := service.execute_cases w c
  · rw [hreply]
    exact ⟨[], rfl⟩
  · rw [hreply]
    exact ⟨r.writes, rfl⟩

/-- A call does not make the pool work or fail. -/
theorem isFailing_execute (c : Call) :
    (service.execute w c).world.pool.isFailing = w.pool.isFailing := by
  obtain ⟨e, hreply, -⟩ | ⟨answer, r, effects, -, hreply⟩ := service.execute_cases w c
  · rw [hreply]
  · rw [hreply, World.release]
    split <;> rfl

end Service

namespace TransactionVote

variable [Gateway γ] (service : Service) {w : World γ} {v v' : TransactionVote}

/-- A vote leaves the gateway after some requests. -/
theorem exists_after_execute (w : World γ) (v : TransactionVote) :
    ∃ requests, (service.execute w v.call).world.gateway = Gateway.after w.gateway requests := by
  rw [Service.execute_eq, World.gateway_conclude]
  cases v with
  | inbound block m => exact Journal.exists_after_voteInbound _ _ _ block m w.gateway
  | outbound block m => exact ⟨[], rfl⟩

/-- A vote leaves marks of fund migrations that were there before, and no others. -/
theorem exists_marks_execute (h : w.Sound) (v : TransactionVote) :
    ∃ marks, Marks (service.execute w v.call).world.store marks ∧
      ∀ chainId f, marks chainId = some f → w.migrations chainId = some f := by
  cases v with
  | inbound block m =>
    exact ⟨_, (service.touches w (.voteInbound block m)).marks (fun _ => id) h.records.marks,
      fun _ _ => id⟩
  | outbound block m =>
    obtain ⟨e, hrefused⟩ | ⟨receipt, c, outcome, ballots, -, -, -, hpending, hdecided⟩ :=
      Service.voteOutbound_cases service h.records h.legible h.ballotsFiled h.accounts.toFiled
        block m
    · exact ⟨_, by rw [call, hrefused]; exact h.records.marks, fun _ _ => id⟩
    cases hfinalized : outcome.finalized with
    | false => exact ⟨_, (hpending hfinalized).2, fun _ _ => id⟩
    | true =>
      obtain ⟨d, lane, -, -, hmarks⟩ := hdecided hfinalized
      exact ⟨_, hmarks, fun _ _ => Cctx.eq_of_clear⟩

/-! ### Votes that are apart -/

/-- Two votes are on different ballots, about different transactions, and involve no common
chain. -/
structure Apart (w : World γ) (v v' : TransactionVote) : Prop where
  ballot_ne : v.ballot ≠ v'.ballot
  cctx_ne : v.cctx ≠ v'.cctx
  not_involves : ∀ chainId, v.Involves w chainId → ¬v'.Involves w chainId

namespace Apart

variable (hapart : v.Apart w v')

include hapart

omit [Gateway γ] in
theorem symm : v'.Apart w v :=
  ⟨hapart.ballot_ne.symm, hapart.cctx_ne.symm, fun chainId h h' => hapart.not_involves chainId h' h⟩

omit [Gateway γ] in
/-- No key concerns both votes. -/
theorem not_concerns {k : Key} (hk : v.Concerns w k) : ¬v'.Concerns w k := by
  cases k with
  | ballot | ballotByHeight => exact fun hk' => hapart.ballot_ne (hk.symm.trans hk')
  | cctx => exact fun hk' => hapart.cctx_ne (hk.symm.trans hk')
  | nonces | nonceOwner | fundMigration | outboundTracker | inboundTracker | finalizedInbound =>
    exact hapart.not_involves _ hk
  | observerSet | chain | chainParams | switches | currentKey | keyHistory => exact id

/-- **After the other vote, a vote is shown the same as before.** -/
theorem shown (h : w.Sound) (hmigrating : w.accounts.Migrating w.migrations) :
    v.Shown w (service.execute w v'.call).world.store := by
  have htouches : Touches (v'.Concerns w) w.store (service.execute w v'.call).world.store :=
    (Shown.self h).touches service h hmigrating
  refine ⟨?_, ?_, fun k hk => htouches.contents_eq fun hk' => ?_, exists_marks_execute service h v'⟩
  · obtain ⟨writes, hwritten⟩ := service.exists_written w v'.call
    rw [hwritten]
    rfl
  · obtain ⟨writes, hwritten⟩ := service.exists_written w v'.call
    rw [hwritten]
    rfl
  · rw [concerns_folded] at hk'
    exact hk.elim hk'.not_isGoverned fun hk => hapart.not_concerns hk hk'

end Apart

/-- Wherever it is shown the same, a vote spares every place but those under the keys that concern
it. -/
theorem Shown.spares {w' : World γ} (hshown : v.Shown w w'.store) (h : w.Sound)
    (hmigrating : w.accounts.Migrating w.migrations) {writes : List Write}
    (hwritten : (service.execute w' v.call).world.store = w'.store.written writes) {bs : Bytes}
    (hbs : ∀ k : Key, k.bytes = bs → ¬v.Concerns w k)
    (hnone : (∀ k : Key, k.bytes ≠ bs) → contents w'.store bs = none) :
    w'.store.Spares writes bs := by
  have htouches := hshown.touches service h hmigrating
  rw [Backend.Spares, ← hwritten]
  by_cases hkey : ∃ k : Key, k.bytes = bs
  · obtain ⟨k, rfl⟩ := hkey
    exact htouches.contents_eq fun hk => hbs k rfl (concerns_folded.1 hk)
  · have hkey : ∀ k : Key, k.bytes ≠ bs := fun k hk => hkey ⟨k, hk⟩
    exact (htouches.contents_eq_none hkey (hnone hkey)).trans (hnone hkey).symm

namespace Apart

variable (hapart : v.Apart w v') (h : w.Sound) (hmigrating : w.accounts.Migrating w.migrations)

include hapart h hmigrating

/-- **After the other vote, a vote has the reply that it has before it**, and makes the same
writes. -/
theorem execute {f : DepositRequest → DepositAnswer} (hgateway : Gateway.Answers w.gateway f) :
    (service.execute (service.execute w v'.call).world v.call).answer
        = (service.execute w v.call).answer ∧
      (service.execute (service.execute w v'.call).world v.call).events
        = (service.execute w v.call).events ∧
      ∃ writes, (service.execute w v.call).world.store = w.store.written writes ∧
        (service.execute (service.execute w v'.call).world v.call).world.store
          = (service.execute w v'.call).world.store.written writes := by
  obtain ⟨requests, hasked⟩ := v'.exists_after_execute service w
  exact (hapart.shown service h hmigrating).execute service h hmigrating hgateway
    (hasked ▸ hgateway.after requests) (service.isFailing_execute w v'.call)

/-- Both before and after the other vote, a vote spares every place but those under the keys that
concern it. -/
theorem spares (hintact : Intact w.store) {writes : List Write}
    (hfirst : (service.execute w v.call).world.store = w.store.written writes)
    (hlast : (service.execute (service.execute w v'.call).world v.call).world.store
      = (service.execute w v'.call).world.store.written writes) {bs : Bytes}
    (hbs : ∀ k : Key, k.bytes = bs → ¬v.Concerns w k) :
    w.store.Spares writes bs ∧
      (service.execute w v'.call).world.store.Spares writes bs := by
  have htouches := (Shown.self (v := v') h).touches service h hmigrating
  exact ⟨(Shown.self h).spares service h hmigrating hfirst hbs hintact.contents_eq_none,
    (hapart.shown service h hmigrating).spares service h hmigrating hlast hbs fun hkey =>
      htouches.contents_eq_none hkey (hintact.contents_eq_none hkey)⟩

/-- **In either order the same is stored.** -/
theorem store_comm {f : DepositRequest → DepositAnswer} (hgateway : Gateway.Answers w.gateway f)
    (hintact : Intact w.store) :
    (service.execute (service.execute w v.call).world v'.call).world.store
      = (service.execute (service.execute w v'.call).world v.call).world.store := by
  obtain ⟨-, -, writes, hfirst, hlast⟩ := hapart.execute service h hmigrating hgateway
  obtain ⟨-, -, writes', hfirst', hlast'⟩ := hapart.symm.execute service h hmigrating hgateway
  have hcomm : (w.store.written writes).written writes'
      = (w.store.written writes').written writes := by
    refine Backend.written_comm fun bs => ?_
    rw [← hfirst, ← hfirst']
    -- No place is under a key that concerns the one vote and under one that concerns the other.
    by_cases hbs : ∀ k : Key, k.bytes = bs → ¬v.Concerns w k
    · exact .inl (hapart.spares service h hmigrating hintact hfirst hlast hbs)
    · obtain ⟨k, rfl, hk⟩ : ∃ k : Key, k.bytes = bs ∧ v.Concerns w k := by simpa using hbs
      exact .inr (hapart.symm.spares service h hmigrating hintact hfirst' hlast' fun j hj hj' =>
        hapart.not_concerns hk ((concerns_iff_of_bytes_eq hj).1 hj'))
  rw [hlast, hlast', hfirst, hfirst', hcomm]

end Apart

end TransactionVote

/-- **Votes that are apart commute.** In every world that is reached from an empty store, whatever
its gateway answers as long as that is a function of the request, two votes on transactions that are
on different ballots, about different transactions and involve no common chain may be cast in either
order. Each of them is answered in the same way, with the same events, whether it is cast before the
other one or after it, and in the end the same is stored. -/
theorem Reachable.votes_commute [Gateway γ] {service : Service} {w : World γ}
    (h : Reachable service w) {f : DepositRequest → DepositAnswer}
    (hgateway : Gateway.Answers w.gateway f) {v v' : TransactionVote} (hapart : v.Apart w v') :
    (service.after w [v.call, v'.call]).store = (service.after w [v'.call, v.call]).store ∧
      ((service.execute (service.execute w v'.call).world v.call).answer
          = (service.execute w v.call).answer ∧
        (service.execute (service.execute w v'.call).world v.call).events
          = (service.execute w v.call).events) ∧
      (service.execute (service.execute w v.call).world v'.call).answer
          = (service.execute w v'.call).answer ∧
        (service.execute (service.execute w v.call).world v'.call).events
          = (service.execute w v'.call).events := by
  have hsound := h.sound
  have hmigrating := h.migrating
  obtain ⟨hanswer, hevents, -⟩ := hapart.execute service hsound hmigrating hgateway
  obtain ⟨hanswer', hevents', -⟩ := hapart.symm.execute service hsound hmigrating hgateway
  exact ⟨hapart.store_comm service hsound hmigrating hgateway h.intact, ⟨hanswer, hevents⟩,
    hanswer', hevents'⟩

namespace Sample

/-- A deposit on another chain, where it is to be paid out. -/
def remoteDeposit : InboundVote :=
  { deposit with senderChain := ⟨2⟩, receiverChain := ⟨2⟩, inboundHash := "0xCD" }

/-- The first deposit waits on its chain, and another chain is set up. -/
def remoteCalls : List Call :=
  calls ++ [.registerChain ⟨⟨2⟩, "remote", .evm⟩ (.ofThreshold ⟨2⟩ 50)]

/-- The world after that. -/
def remoteWorld : World ScriptedGateway :=
  service.after start remoteCalls

/-- The attempt to pay out the first deposit has failed. -/
def failureVote : TransactionVote :=
  .outbound ⟨2, 2⟩ failure

/-- The second deposit is reported. -/
def remoteVote : TransactionVote :=
  .inbound ⟨3, 3⟩ remoteDeposit

/-- **One deposit is sent back and another one is reported, in either order.** Both votes reserve a
nonce, each on its own chain. -/
theorem failureVote_commutes :
    ((service.execute remoteWorld failureVote.call).world.statusOf deposit.digest
        = some .pendingRevert ∧
      (service.execute remoteWorld remoteVote.call).world.statusOf remoteDeposit.digest
        = some .pendingOutbound) ∧
    (service.after remoteWorld [failureVote.call, remoteVote.call]).store
      = (service.after remoteWorld [remoteVote.call, failureVote.call]).store ∧
    (service.execute (service.execute remoteWorld remoteVote.call).world failureVote.call).answer
      = (service.execute remoteWorld failureVote.call).answer := by
  have hevaluated :
      (∀ t ∈ service.turnsOf start remoteCalls,
        (service.execute t.world t.call).world.store.Addressable) ∧
      remoteWorld.accounts.cctx deposit.digest = some cctx ∧
      remoteWorld.gateway.script = [] ∧
      failureVote.ballot ≠ remoteVote.ballot ∧ failureVote.cctx ≠ remoteVote.cctx ∧
      (service.execute remoteWorld failureVote.call).world.statusOf deposit.digest
        = some .pendingRevert ∧
      (service.execute remoteWorld remoteVote.call).world.statusOf remoteDeposit.digest
        = some .pendingOutbound := by decide +kernel
  obtain ⟨hstores, hcctx, hscript, hballots, hcctxs, hfailure, hremote⟩ := hevaluated
  have hreachable : Reachable service remoteWorld := ⟨start, _, rfl, Run.start.calls _ hstores⟩
  have hapart : failureVote.Apart remoteWorld remoteVote := by
    refine ⟨hballots, hcctxs, ?_⟩
    rintro involved ⟨c, hc, hchain⟩
    obtain rfl : cctx = c := Option.some.inj (hcctx.symm.trans (hreachable.sound.stores_iff.1 hc))
    obtain rfl : involved = chainId := hchain.elim id id
    have hother : chainId ≠ ⟨2⟩ := by decide
    exact fun h => h.elim hother hother
  obtain ⟨hstore, ⟨hanswer, -⟩, -⟩ :=
    hreachable.votes_commute (ScriptedGateway.answers hscript) hapart
  exact ⟨⟨hfailure, hremote⟩, hstore, hanswer⟩

end Sample

end Settlement
