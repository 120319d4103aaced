import Settlement.Proofs.BallotHistory
import Settlement.Proofs.Decisions
import Settlement.Proofs.Receipts
import Settlement.Proofs.Unanimity

/-!
# Inbound ballots never fail

Whoever reports an inbound transaction votes for it, so a ballot on one has only votes in favour.
There can be no quorum against it, and it is never stale: the votes on it and the observers without
one are together no fewer than the observers, and no quorum asks for more
(`Settlement.Ballot.verdict?_ne_failure`). It does not matter who has left or joined the set since a
vote was cast, nor which threshold there was then.

Two things could get in the way. A vote that is cast alone may be against any ballot; so there must
be none. And a report of an outbound transaction may be negative; it is about another ballot, unless
it has the digest of an inbound one.

Main statement: `Settlement.Run.inbound_never_fails`.
-/

namespace Settlement

/-! ### Ballots with votes in favour -/

namespace Ballot

variable {b : Ballot} {s : ObserverSet} {quorum : Nat}

/-- **A ballot with votes in favour only is not closed as a failure**, whoever has cast them. -/
theorem verdict?_ne_failure (policy : StalePolicy) (hyes : ∀ v ∈ b.votes, v.vote = .yes)
    (hpos : 0 < quorum) (hquorum : quorum ≤ s.size) :
    b.verdict? quorum (s.size - b.countOf s) policy ≠ some .failure := by
  rw [verdict?_of_agree policy (by decide) hyes hpos hquorum]
  split
  · simp [Vote.verdict]
  · simp

/-- What is known of a ballot by the message whose digest is its index. A ballot on an inbound
transaction has votes in favour only, and has not failed. -/
inductive ComesFrom (hashed : List Bytes) (index : Digest) (b : Ballot) : Prop
  | inbound {m : InboundVote} (hm : m.preimage.bytes ∈ hashed) (hindex : m.digest = index)
      (hobservation : b.observation = .inbound) (hyes : ∀ v ∈ b.votes, v.vote = .yes)
      (hstatus : b.status ≠ .failure) : ComesFrom hashed index b
  | outbound {m : OutboundVote} (hm : m.preimage.bytes ∈ hashed) (hindex : m.digest = index)
      (hobservation : b.observation = .outbound) : ComesFrom hashed index b

namespace ComesFrom

variable {hashed hashed' : List Bytes} {index : Digest}

theorem mono (h : b.ComesFrom hashed index) (hsubset : hashed ⊆ hashed') :
    b.ComesFrom hashed' index := by
  rcases h with ⟨hm, hindex, hobservation, hyes, hstatus⟩ | ⟨hm, hindex, hobservation⟩
  · exact .inbound (hsubset hm) hindex hobservation hyes hstatus
  · exact .outbound (hsubset hm) hindex hobservation

/-- The ballot of an inbound message is not that of an outbound one. -/
theorem inbound_of_digest {m : InboundVote} (hfree : CollisionFree hashed)
    (hm : m.preimage.bytes ∈ hashed) (h : b.ComesFrom hashed m.digest) :
    b.observation = .inbound ∧ (∀ v ∈ b.votes, v.vote = .yes) ∧ b.status ≠ .failure := by
  rcases h with ⟨-, -, hobservation, hyes, hstatus⟩ | @⟨n, hn, hindex, -⟩
  · exact ⟨hobservation, hyes, hstatus⟩
  · exact absurd (hfree _ hm _ hn hindex.symm) (m.bytes_ne n)

/-- The ballot of an outbound message is not that of an inbound one. -/
theorem outbound_of_digest {m : OutboundVote} (hfree : CollisionFree hashed)
    (hm : m.preimage.bytes ∈ hashed) (h : b.ComesFrom hashed m.digest) :
    b.observation = .outbound := by
  rcases h with @⟨n, hn, hindex, -, -, -⟩ | ⟨-, -, hobservation⟩
  · exact absurd (hfree _ hn _ hm hindex) (n.bytes_ne m)
  · exact hobservation

end ComesFrom

end Ballot

/-! ### One vote -/

/-- Every ballot comes from one of the messages of which these byte strings are hashed. -/
def BallotsComeFrom (hashed : List Bytes) (ballots : Digest → Option Ballot) : Prop :=
  ∀ index b, ballots index = some b → b.ComesFrom hashed index

section Vote

variable {hashed : List Bytes} {policy : StalePolicy} {l : Ledger} {height : UInt64}
  {outcome : Registry.VoteOutcome} {ballots : Digest → Option Ballot}

/-- After a vote all ballots come from messages, if the one that was voted on does. -/
theorem BallotsComeFrom.update (h : BallotsComeFrom hashed l.ballots) (index : Digest)
    {after : Ballot} (hafter : after.ComesFrom hashed index) :
    BallotsComeFrom hashed (Function.update l.ballots index (some after)) := by
  intro index' b hb
  rw [Function.update_apply] at hb
  split at hb
  · next heq =>
    cases hb
    exact heq ▸ hafter
  · exact h index' b hb

/-- **A vote on an inbound message leaves its ballot with votes in favour only**, and does not make
it fail. -/
theorem BallotsComeFrom.voted_inbound (h : BallotsComeFrom hashed l.ballots)
    (hfree : CollisionFree hashed) (hl : l.Constituted) {m : InboundVote}
    (hm : m.preimage.bytes ∈ hashed)
    (hvoted : Registry.Voted policy l m.request height outcome ballots) :
    BallotsComeFrom hashed ballots := by
  cases hvoted with
  | late => exact h
  | @counted before recorded after quorum outstanding finalized hbefore hpending hrecorded
      hevaluate hmay _ hquorum houtstanding =>
    refine h.update m.request.ballot ?_
    obtain ⟨hobservation, hyes⟩ : before.observation = .inbound ∧
        ∀ v ∈ before.votes, v.vote = .yes := by
      rw [hbefore]
      cases hstored : l.ballots m.request.ballot with
      | none => exact ⟨rfl, by rintro _ ⟨⟩⟩
      | some b =>
        obtain ⟨hobservation, hyes, -⟩ := (h _ b hstored).inbound_of_digest (m := m) hfree hm
        exact ⟨hobservation, hyes⟩
    have hyes' : ∀ v ∈ recorded.votes, v.vote = .yes := by
      rw [hrecorded]
      exact List.forall_mem_append.2 ⟨hyes, List.forall_mem_singleton.2 rfl⟩
    have hrecorded' := Ballot.isFinalized_of_recorded hpending hrecorded
    obtain ⟨hgrows, -⟩ := Ballot.GrowsTo.of_evaluate hpending hrecorded hevaluate
    obtain ⟨hvotes, -, hstatus⟩ := Ballot.decided_of_evaluate hrecorded' hevaluate
    refine .inbound hm rfl (hgrows.observation_eq.trans hobservation) (hvotes ▸ hyes') ?_
    -- The voter is an observer, so that the quorum is no more than the observers are.
    obtain ⟨params, hparams, rfl⟩ := hquorum
    have hle := hl.quorum_le_size hparams (ObserverSet.size_pos_of_contains hmay.isObserver)
    have hverdict := Ballot.verdict?_ne_failure policy hyes'
      (l.observers.quorum_pos params.thresholdPercent) hle
    rw [hstatus, houtstanding]
    cases hcase : recorded.verdict? (l.observers.quorum params.thresholdPercent)
      (l.observers.size - recorded.countOf l.observers) policy with
    | none => decide
    | some status => exact fun heq => hverdict (hcase.trans (congrArg some heq))

/-- A vote on an outbound message is on no ballot of an inbound one. -/
theorem BallotsComeFrom.voted_outbound (h : BallotsComeFrom hashed l.ballots)
    (hfree : CollisionFree hashed) {m : OutboundVote} (hm : m.preimage.bytes ∈ hashed)
    (hvoted : Registry.Voted policy l m.request height outcome ballots) :
    BallotsComeFrom hashed ballots := by
  cases hvoted with
  | late => exact h
  | @counted before recorded after _ _ _ hbefore hpending hrecorded hevaluate =>
    refine h.update m.request.ballot ?_
    have hobservation : before.observation = .outbound := by
      rw [hbefore]
      cases hstored : l.ballots m.request.ballot with
      | none => rfl
      | some b => exact (h _ b hstored).outbound_of_digest hfree hm
    obtain ⟨hgrows, -⟩ := Ballot.GrowsTo.of_evaluate hpending hrecorded hevaluate
    exact .outbound hm rfl (hgrows.observation_eq.trans hobservation)

/-- **A call that is no vote without a message leaves every ballot with a message.** -/
theorem Polled.comeFrom {c : Call} {answer : Except CallError Answer}
    (hpolled : Polled policy l c answer ballots) (halone : c.isAlone = false)
    (hfree : CollisionFree hashed) (hhashed : ∀ bs, c.hashed? = some bs → bs ∈ hashed)
    (hl : l.Constituted) (h : BallotsComeFrom hashed l.ballots) :
    BallotsComeFrom hashed ballots := by
  rcases hpolled with hnone | ⟨haccepted, -, -, hvoted⟩ | ⟨-, hfewer⟩
  · exact h
  · rw [acceptedVote?.eq_def] at haccepted
    split at haccepted
    · cases halone
    · cases haccepted
      exact h.voted_inbound hfree hl (hhashed _ rfl) hvoted
    · cases haccepted
      exact h.voted_outbound hfree (hhashed _ rfl) hvoted
    · cases haccepted
  · exact fun index b hb => h index b (hfewer index b hb)

end Vote

/-! ### Runs -/

section Runs

variable {γ : Type} [Gateway γ] {service : Service} {w w₀ : World γ} {turns : List (Turn γ)}

omit [Gateway γ] in
theorem hashedIn_concat (turns : List (Turn γ)) (t : Turn γ) :
    hashedIn (turns ++ [t]) = hashedIn turns ++ t.call.hashed?.toList := by
  rw [hashedIn, List.filterMap_append]
  cases h : t.call.hashed? with
  | none => simp [hashedIn, h]
  | some bs => simp [hashedIn, h]

theorem CollisionFree.mono {hashed hashed' : List Bytes} (h : CollisionFree hashed')
    (hsubset : hashed ⊆ hashed') : CollisionFree hashed :=
  fun x hx y hy => h x (hsubset hx) y (hsubset hy)

/-- **Every ballot comes from a message of the run**, if no vote is cast without one. -/
theorem Run.ballotsComeFrom (hrun : Run service w₀ turns w) (hempty : w₀.store.entries = .empty)
    (hfree : CollisionFree (hashedIn turns)) (halone : ∀ t ∈ turns, t.call.isAlone = false) :
    BallotsComeFrom (hashedIn turns) w.ballots := by
  have h₀ := World.sound_of_entries_eq_empty hempty
  induction hrun with
  | start =>
    rw [World.ballots, World.ledger_eq_empty hempty]
    rintro _ _ ⟨⟩
  | @call turns w hrun c hstore ih =>
    have hsubset : hashedIn turns ⊆ hashedIn (turns ++ [⟨w, c⟩]) := by
      rw [hashedIn_concat]
      exact List.subset_append_left _ _
    have hconstituted : w.store.ledger.Constituted :=
      Reachable.constituted ⟨w₀, turns, hempty, hrun⟩
    have hbefore := ih (hfree.mono hsubset) fun t ht => halone t (List.mem_append_left _ ht)
    have hcall : c.isAlone = false := halone ⟨w, c⟩ (List.mem_append_right _ (by simp))
    refine ((hrun.sound h₀).polled hstore).comeFrom hcall hfree (fun bs hbs => ?_) hconstituted
      fun index b hb => (hbefore index b hb).mono hsubset
    rw [hashedIn_concat, hbs]
    exact List.mem_append_right _ (List.mem_singleton_self bs)
  | outside hrun hentries ih =>
    rw [World.ballots, World.ledger_eq_of_entries_eq hentries]
    exact ih hfree halone

/-- The receipt of every deciding vote in a run names a transaction that is stored from then on. -/
theorem Run.receipts (hrun : Run service w₀ turns w) (hempty : w₀.store.entries = .empty)
    (hfree : CollisionFree (hashedIn turns)) (halone : ∀ t ∈ turns, t.call.isAlone = false)
    {t : Turn γ} (ht : t ∈ turns) {block : Block} {m : InboundVote} {receipt : VoteReceipt}
    (hcall : t.call = .voteInbound block m)
    (hanswer : (service.execute t.world t.call).answer = .ok (.receipt receipt))
    (hfinalized : receipt.finalized = true) :
    receipt.ballotIndex = m.digest ∧ receipt.cctxIndex = some m.digest ∧
      (∃ c, (service.execute t.world t.call).world.Stores m.digest c) ∧
      ∃ c, w.Stores m.digest c := by
  have h₀ := World.sound_of_entries_eq_empty hempty
  induction hrun with
  | start => cases ht
  | @call turns w hrun c hstore ih =>
    have hsound := hrun.sound h₀
    have hafter := hsound.execute hstore
    rcases List.mem_append.1 ht with ht | ht
    · -- What was stored before is stored after one more call.
      have hsubset : hashedIn turns ⊆ hashedIn (turns ++ [⟨w, c⟩]) := by
        rw [hashedIn_concat]
        exact List.subset_append_left _ _
      obtain ⟨hballot, hcctx, hthen, d, hd⟩ := ih (hfree.mono hsubset)
        (fun t ht => halone t (List.mem_append_left _ ht)) ht
      obtain ⟨e, he, -⟩ := (hsound.accounts.extends_of_step hafter.2).cctx _ d
        (hsound.stores_iff.1 hd)
      exact ⟨hballot, hcctx, hthen, e, hafter.1.stores_iff.2 he⟩
    · obtain rfl := List.mem_singleton.1 ht
      obtain rfl : c = .voteInbound block m := hcall
      obtain ⟨hballot, hdecided⟩ := hsound.receipt_of_voteInbound hstore hanswer
      rcases hdecided hfinalized with ⟨hcctx, hstored⟩ | ⟨b, hb, hfailure⟩
      · obtain ⟨d, hd⟩ := Option.isSome_iff_exists.1 hstored
        exact ⟨hballot, hcctx, ⟨d, hafter.1.stores_iff.2 hd⟩, d, hafter.1.stores_iff.2 hd⟩
      · -- The ballot of the message is an inbound one and has not failed.
        have hcome := (hrun.call _ hstore).ballotsComeFrom hempty hfree halone _ b hb
        have hm : m.preimage.bytes ∈ hashedIn (turns ++ [⟨w, .voteInbound block m⟩]) := by
          rw [hashedIn_concat]
          exact List.mem_append_right _ (List.mem_singleton_self _)
        exact absurd hfailure (hcome.inbound_of_digest hfree hm).2.2
  | outside hrun hentries ih =>
    obtain ⟨hballot, hcctx, hthen, c, hc⟩ := ih hfree halone ht
    have hsound := hrun.sound h₀
    refine ⟨hballot, hcctx, hthen, c, (hsound.congr hentries).stores_iff.2 ?_⟩
    rw [World.accounts_eq_of_entries_eq hentries]
    exact hsound.stores_iff.1 hc

/-- **A ballot on an inbound transaction never fails**, in a run without a vote that is cast alone
and with messages of which no two have the same digest. Stale ballots may be closed or kept, and
observers and thresholds may change at any time. So whenever a vote on an inbound transaction
decides its ballot, the receipt names a transaction with the index of the ballot, and it is stored
from then on. -/
theorem Run.inbound_never_fails (hrun : Run service w₀ turns w)
    (hempty : w₀.store.entries = .empty) (hfree : CollisionFree (hashedIn turns))
    (halone : ∀ t ∈ turns, t.call.isAlone = false) :
    (∀ index b, Registry.ballot? w.store.restored index = .ok (some b) →
      b.observation = .inbound → b.status ≠ .failure) ∧
    ∀ t ∈ turns, ∀ block m receipt, t.call = .voteInbound block m →
      (service.execute t.world t.call).answer = .ok (.receipt receipt) →
      receipt.finalized = true →
      receipt.ballotIndex = m.digest ∧ receipt.cctxIndex = some receipt.ballotIndex ∧
      (∃ c, (service.execute t.world t.call).world.Stores receipt.ballotIndex c) ∧
      ∃ c, w.Stores receipt.ballotIndex c := by
  have hsound := hrun.sound (World.sound_of_entries_eq_empty hempty)
  constructor
  · intro index b hb hobservation
    rw [hsound.ballot?_eq, Except.ok.injEq] at hb
    rcases hrun.ballotsComeFrom hempty hfree halone index b hb with
      ⟨-, -, -, -, hstatus⟩ | ⟨-, -, houtbound⟩
    · exact hstatus
    · rw [hobservation] at houtbound
      cases houtbound
  · intro t ht block m receipt hcall hanswer hfinalized
    obtain ⟨hballot, hcctx, hthen, hstored⟩ :=
      hrun.receipts hempty hfree halone ht hcall hanswer hfinalized
    rw [hballot]
    exact ⟨rfl, hcctx, hthen, hstored⟩

end Runs

/-! ### A deposit that is reported while the observers change -/

namespace Sample

/-- A service that closes stale ballots. -/
def closingService : Service :=
  { service with
    observers := ⟨.closeAsFailure, 100000⟩
    observers_valid := rfl }

/-- The deposit as another observer reports it. -/
def depositBy (account : String) : InboundVote :=
  { deposit with creator := ⟨account⟩ }

/-- Three observers have to agree. One of them reports the deposit and is replaced, and when another
one reports it, two are enough. -/
def changingCalls : List Call := [
  .setObserverSet [⟨"a"⟩, ⟨"b"⟩, ⟨"c"⟩],
  .registerChain ⟨chainId, "external", .evm⟩ (.ofThreshold chainId 100),
  .registerKey ⟨"key", 1, 1⟩ true,
  .voteInbound ⟨1, 1⟩ (depositBy "a"),
  .replaceObserver ⟨"a"⟩ ⟨"d"⟩,
  .updateChainParams (.ofThreshold chainId 50),
  .voteInbound ⟨2, 2⟩ (depositBy "b")]

/-- The world after the second report. -/
def changingWorld : World ScriptedGateway :=
  closingService.after start changingCalls

/-- **The report of a former observer and that of a present one decide the ballot**, and the
transaction that the receipt names is stored. -/
theorem inbound_with_former_observer :
    ∃ turns, Run closingService start turns changingWorld ∧ CollisionFree (hashedIn turns) ∧
      (∀ t ∈ turns, t.call.isAlone = false) ∧
      (∀ index b, Registry.ballot? changingWorld.store.restored index = .ok (some b) →
        b.observation = .inbound → b.status ≠ .failure) ∧
      ∃ t ∈ turns, ∃ receipt, t.call = .voteInbound ⟨2, 2⟩ (depositBy "b") ∧
        (closingService.execute t.world t.call).answer = .ok (.receipt receipt) ∧
        receipt.finalized = true ∧ receipt.cctxIndex = some deposit.digest ∧
        ∃ c, changingWorld.Stores deposit.digest c := by
  have hevaluated :
      (∀ t ∈ closingService.turnsOf start changingCalls,
        (closingService.execute t.world t.call).world.store.Addressable) ∧
      CollisionFree (hashedIn (closingService.turnsOf start changingCalls)) ∧
      (∀ t ∈ closingService.turnsOf start changingCalls, t.call.isAlone = false) ∧
      ∃ t ∈ closingService.turnsOf start changingCalls,
        t.call = .voteInbound ⟨2, 2⟩ (depositBy "b") ∧
        (closingService.execute t.world t.call).answer = .ok (.receipt ⟨deposit.digest, false,
          true, some deposit.digest, some .pendingOutbound⟩) := by
    decide +kernel
  obtain ⟨hstores, hfree, halone, t, ht, hcall, hanswer⟩ := hevaluated
  have hrun := Run.start.calls changingCalls hstores
  obtain ⟨hinbound, hreceipts⟩ := Run.inbound_never_fails hrun rfl hfree halone
  obtain ⟨-, hcctx, -, hstored⟩ := hreceipts t ht _ _ _ hcall hanswer rfl
  exact ⟨_, hrun, hfree, halone, hinbound, t, ht, _, hcall, hanswer, rfl, hcctx, hstored⟩

end Sample

end Settlement
