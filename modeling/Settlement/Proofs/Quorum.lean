import Settlement.Proofs.BallotHistory

/-!
# What decides a ballot

A vote decides a ballot by the quorum for its request: the current observers, and the threshold
of the chain that the request names. Against this quorum all votes on the ballot are counted. They
were cast by different observers of the moment, but an observer may have left the set since then,
and still counts besides the successor (`Settlement.Sample.success_with_former_observer`). And the
chain of the request may be another one than that of the ballot, with a lower threshold
(`Settlement.Sample.success_below_quorum`).

A ballot that is pruned may be voted on again, and then votes of before say nothing of it. So the
voters are looked for among the votes since the ballot was last not there. None of these is late
when the ballot is decided: every one has its entry
(`Settlement.BallotTold.votes_eq_of_finalized`).

Main statements: `Settlement.Run.success_by_quorum` on who has voted for what has succeeded, and
`Settlement.Reachable.decided_by_quorum` on the two chains.
-/

namespace Settlement

/-! ### The quorum -/

/-- A higher threshold needs no fewer votes. -/
theorem ObserverSet.quorum_mono (s : ObserverSet) {p q : UInt8} (h : p ≤ q) :
    s.quorum p ≤ s.quorum q := by
  have hshare : s.size * p.toNat ≤ s.size * q.toNat :=
    Nat.mul_le_mul_left _ (UInt8.le_iff_toNat_le.1 h)
  have hrounded : (s.size * p.toNat + 99) / 100 ≤ (s.size * q.toNat + 99) / 100 :=
    Nat.div_le_div_right (Nat.add_le_add_right hshare 99)
  rw [quorum, quorum]
  omega

namespace Ballot

variable {b : Ballot} {quorum outstanding : Nat} {policy : StalePolicy}

/-- A success rests on a quorum of votes for it. -/
theorem le_count_of_success (h : b.verdict? quorum outstanding policy = some .success) :
    quorum ≤ b.count .yes := by
  rw [verdict?] at h
  split at h
  · next hyes => exact hyes
  · split at h
    · cases h
    · split at h
      · cases h
      · cases h

/-- A failure rests on a quorum of votes for it, unless stale ballots are closed. -/
theorem le_count_of_failure (h : b.verdict? quorum outstanding .keepPending = some .failure) :
    quorum ≤ b.count .no := by
  rw [verdict?] at h
  split at h
  · cases h
  · split at h
    · next hno => exact hno
    · split at h
      · next hstale => exact absurd hstale.1 (by decide)
      · cases h

end Ballot

namespace Registry

variable {policy : StalePolicy} {l : Ledger} {request : VoteRequest} {height : UInt64}
  {outcome : VoteOutcome} {ballots : Digest → Option Ballot}

/-- **A ballot is decided by the rule with the quorum for the request.** -/
theorem Voted.verdict?_eq (h : Voted policy l request height outcome ballots)
    (hfinalized : outcome.finalized = true) : ∃ quorum outstanding, request.HasQuorum l quorum ∧
      outcome.ballot.verdict? quorum outstanding policy = some outcome.ballot.status := by
  cases h with
  | late => cases hfinalized
  | @counted before recorded after quorum outstanding finalized _ hpending hrecorded hevaluate _ _
      hquorum =>
    have hrecorded' := Ballot.isFinalized_of_recorded hpending hrecorded
    obtain ⟨hnot, -⟩ | ⟨-, status, hverdict, rfl⟩ := Ballot.eq_of_evaluate hrecorded' hevaluate
    · rw [show finalized = true from hfinalized] at hnot
      cases hnot
    · exact ⟨quorum, outstanding, hquorum, hverdict⟩

end Registry

/-! ### Who has voted -/

namespace BallotTold

variable {index : Digest} {votes : List AcceptedVote} {b : Ballot}

theorem nodup_voters (h : BallotTold index votes (some b)) : b.voters.Nodup := by
  cases h with
  | stored hhistory => exact hhistory.entries.nodup

/-- An entry on a ballot is that of an accepted vote, by an observer of that moment. -/
theorem exists_of_mem_votersFor (h : BallotTold index votes (some b)) {vote : Vote}
    {voter : ObserverId} (hvoter : voter ∈ b.votersFor vote) :
    ∃ v ∈ votes, v.request.voter = voter ∧ v.request.vote = vote ∧
      v.observers.contains voter = true := by
  cases h with
  | @stored counted late _ hhistory =>
    obtain ⟨entry, hentry, rfl⟩ := List.mem_map.1 hvoter
    obtain ⟨hentry, hvote⟩ := List.mem_filter.1 hentry
    rw [hhistory.entries.eq_map] at hentry
    obtain ⟨v, hv, rfl⟩ := List.mem_map.1 hentry
    have hmem : v ∈ counted ++ late := List.mem_append_left _ hv
    exact ⟨v, hmem, rfl, of_decide_eq_true hvote, hhistory.isObserver v hmem⟩

/-- **Nothing comes after the vote that decides.** The entries of the ballot are those of all votes
before it, and its own. -/
theorem votes_eq_of_finalized {v : AcceptedVote} (h : BallotTold index (votes ++ [v]) (some b))
    (hfinalized : v.finalized = true) : b.votes = votes.map AcceptedVote.entry ++ [v.entry] := by
  generalize hall : votes ++ [v] = all at h
  cases h with
  | @stored counted late _ hhistory =>
    -- The last of the late votes would be this one, and late votes decide nothing.
    have hlate : late = [] := by
      cases hhistory.ended with
      | pending _ _ hlate => exact hlate
      | decided _ _ _ _ hothers =>
        obtain hlate | ⟨rest, u, rfl⟩ := List.eq_nil_or_concat late
        · exact hlate
        rw [List.concat_eq_append] at hall hothers
        rw [← List.append_assoc] at hall
        obtain rfl : v = u := List.singleton_inj.1 (List.append_inj' hall rfl).2
        have hnot : v.finalized = false :=
          hothers v (List.mem_append_right _ (List.mem_append_right _ List.mem_cons_self))
        rw [hfinalized] at hnot
        cases hnot
    rw [hlate, List.append_nil] at hall
    rw [hhistory.entries.eq_map, ← hall, List.map_append]
    rfl

end BallotTold

section Runs

variable {γ : Type} {w : World γ} {policy : StalePolicy} {request : Registry.VoteRequest}
  {height : UInt64} {outcome : Registry.VoteOutcome} {draft : Draft}

/-- A vote that is accepted in a world is one on the ballots of the world. -/
theorem World.Sound.voted (h : w.Sound)
    (hvote : Registry.castVote policy (Overlay.fresh w.store : Draft) request height
      = .ok (outcome, draft)) :
    ∃ ballots, Registry.Voted policy w.store.ledger request height outcome ballots := by
  obtain ⟨ballots, hvoted, -⟩ :=
    Registry.voted_of_castVote h.records.fresh h.legible h.ballotsFiled hvote
  exact ⟨ballots, hvoted⟩

/-- The quorum for a request can be asked for. -/
theorem World.Sound.hasQuorum_iff (h : w.Sound) {quorum : Nat} :
    request.HasQuorum w.store.ledger quorum ↔ ∃ params,
      Registry.chainParams? w.store.restored request.chainId = .ok (some params) ∧
        quorum = w.observers.quorum params.thresholdPercent := by
  rw [h.chainParams?_eq]
  simp only [Registry.VoteRequest.HasQuorum, Except.ok.injEq]
  rfl

/-- **A ballot is decided by the quorum of the chain that the deciding request names.** The quorum
of the chain of the ballot decides it too, if its threshold is no higher; so it does if both chains
are the same. -/
theorem Reachable.decided_by_quorum [Gateway γ] {service : Service} (h : Reachable service w)
    {b : Ballot} (hb : Registry.ballot? w.store.restored request.ballot = .ok (some b))
    (hvote : Registry.castVote policy (Overlay.fresh w.store : Draft) request height
      = .ok (outcome, draft)) (hfinalized : outcome.finalized = true) :
    ∃ observers params, Registry.observerSet w.store.restored = .ok observers ∧
      Registry.chainParams? w.store.restored request.chainId = .ok (some params) ∧
      outcome.ballot.chainId = b.chainId ∧
      (outcome.ballot.status = .success →
        observers.quorum params.thresholdPercent ≤ outcome.ballot.count .yes) ∧
      (policy = .keepPending → outcome.ballot.status = .failure →
        observers.quorum params.thresholdPercent ≤ outcome.ballot.count .no) ∧
      ∀ own, Registry.chainParams? w.store.restored b.chainId = .ok (some own) →
        own.thresholdPercent ≤ params.thresholdPercent →
        (outcome.ballot.status = .success →
          observers.quorum own.thresholdPercent ≤ outcome.ballot.count .yes) ∧
        (policy = .keepPending → outcome.ballot.status = .failure →
          observers.quorum own.thresholdPercent ≤ outcome.ballot.count .no) := by
  have hsound := h.sound
  rw [hsound.ballot?_eq, Except.ok.injEq] at hb
  obtain ⟨ballots, hvoted⟩ := hsound.voted hvote
  obtain ⟨quorum, outstanding, hquorum, hverdict⟩ := hvoted.verdict?_eq hfinalized
  obtain ⟨params, hparams, rfl⟩ := hsound.hasQuorum_iff.1 hquorum
  obtain ⟨b', hb', hgrows⟩ := hvoted.growsTo hb
  obtain rfl : b' = outcome.ballot := Option.some.inj (hb'.symm.trans hvoted.stored_eq)
  have hyes (hsuccess : outcome.ballot.status = .success) :
      w.observers.quorum params.thresholdPercent ≤ outcome.ballot.count .yes := by
    rw [hsuccess] at hverdict
    exact Ballot.le_count_of_success hverdict
  have hno (hpolicy : policy = .keepPending) (hfailure : outcome.ballot.status = .failure) :
      w.observers.quorum params.thresholdPercent ≤ outcome.ballot.count .no := by
    rw [hpolicy, hfailure] at hverdict
    exact Ballot.le_count_of_failure hverdict
  refine ⟨w.observers, params, hsound.observerSet_eq, hparams, hgrows.chainId_eq, hyes, hno, ?_⟩
  intro own _ hle
  have hmono := w.observers.quorum_mono hle
  exact ⟨fun hsuccess => Nat.le_trans hmono (hyes hsuccess),
    fun hpolicy hfailure => Nat.le_trans hmono (hno hpolicy hfailure)⟩

/-- **The ballot after an accepted vote has a history**: that of the votes that were accepted since
the ballot was last not there, and of this one. -/
theorem Run.told_of_voted [Gateway γ] {service : Service} {w₀ : World γ} {turns : List (Turn γ)}
    (hrun : Run service w₀ turns w) (hempty : w₀.store.entries = .empty)
    {ballots : Digest → Option Ballot}
    (hvoted : Registry.Voted policy w.store.ledger request height outcome ballots) :
    ∃ earlier since w₁, turns = earlier ++ since ∧ Run service w₀ earlier w₁ ∧
      Run service w₁ since w ∧ Registry.ballot? w₁.store.restored request.ballot = .ok none ∧
      (∀ t ∈ since, service.Spares request.ballot t) ∧
      BallotTold request.ballot (service.votesOn request.ballot since
        ++ [⟨request, height, w.observers, outcome.isNew, outcome.finalized⟩])
        (some outcome.ballot) := by
  obtain ⟨earlier, since, w₁, rfl, hearlier, hsince, habsent, hspared⟩ :=
    hrun.exists_since hempty request.ballot
  have hsound₁ := hearlier.sound (World.sound_of_entries_eq_empty hempty)
  have htold := (hsince.told hsound₁ habsent hspared).concat
    (v := ⟨request, height, w.observers, _, _⟩) rfl rfl rfl rfl hvoted
  rw [hvoted.stored_eq] at htold
  exact ⟨earlier, since, w₁, rfl, hearlier, hsince,
    (hsound₁.ballot?_eq _).trans (congrArg Except.ok habsent), hspared, htold⟩

/-- **A success rests on a quorum of different observers**, each of whom was a member of the set
when it voted for this ballot: the deciding voter is one now, and the votes of the others were
accepted since the ballot was last not there. The ballot has not been pruned since then, and has an
entry for each of these votes and for the deciding one, and no other. If none of the voters has left
the set since then, the quorum is one of current members. -/
theorem Run.success_by_quorum [Gateway γ] {service : Service} {w₀ : World γ}
    {turns : List (Turn γ)} (hrun : Run service w₀ turns w) (hempty : w₀.store.entries = .empty)
    (hvote : Registry.castVote policy (Overlay.fresh w.store : Draft) request height
      = .ok (outcome, draft)) (hfinalized : outcome.finalized = true)
    (hsuccess : outcome.ballot.status = .success) :
    ∃ observers params, Registry.observerSet w.store.restored = .ok observers ∧
      Registry.chainParams? w.store.restored request.chainId = .ok (some params) ∧
      observers.contains request.voter = true ∧
      (outcome.ballot.votersFor .yes).Nodup ∧
      observers.quorum params.thresholdPercent ≤ (outcome.ballot.votersFor .yes).length ∧
      (∃ earlier since w₁, turns = earlier ++ since ∧ Run service w₀ earlier w₁ ∧
        Run service w₁ since w ∧ Registry.ballot? w₁.store.restored request.ballot = .ok none ∧
        (∀ t ∈ since, service.Spares request.ballot t) ∧
        outcome.ballot.votes
          = (service.votesOn request.ballot since).map AcceptedVote.entry ++ [request.entry] ∧
        ∀ voter ∈ outcome.ballot.votersFor .yes,
          voter = request.voter ∧ request.vote = .yes ∨
          ∃ v ∈ service.votesOn request.ballot since, v.request.voter = voter ∧
            v.request.vote = .yes ∧ v.observers.contains voter = true) ∧
      ((∀ voter ∈ outcome.ballot.votersFor .yes, observers.contains voter = true) →
        observers.quorum params.thresholdPercent ≤
          ((outcome.ballot.votersFor .yes).filter observers.contains).length) := by
  have hsound := hrun.sound (World.sound_of_entries_eq_empty hempty)
  obtain ⟨ballots, hvoted⟩ := hsound.voted hvote
  obtain ⟨quorum, outstanding, hquorum, hverdict⟩ := hvoted.verdict?_eq hfinalized
  obtain ⟨params, hparams, rfl⟩ := hsound.hasQuorum_iff.1 hquorum
  have hcount : w.observers.quorum params.thresholdPercent
      ≤ (outcome.ballot.votersFor .yes).length := by
    rw [hsuccess] at hverdict
    rw [Ballot.length_votersFor]
    exact Ballot.le_count_of_success hverdict
  obtain ⟨earlier, since, w₁, hturns, hearlier, hsince, habsent, hspared, htold⟩ :=
    hrun.told_of_voted hempty hvoted
  refine ⟨w.observers, params, hsound.observerSet_eq, hparams, hvoted.isObserver,
    htold.nodup_voters.sublist (Ballot.votersFor_sublist _), hcount, ?_, ?_⟩
  · refine ⟨earlier, since, w₁, hturns, hearlier, hsince, habsent, hspared,
      htold.votes_eq_of_finalized hfinalized, fun voter hvoter => ?_⟩
    obtain ⟨v, hv, hvoter, hyes, hobserver⟩ := htold.exists_of_mem_votersFor hvoter
    rcases List.mem_append.1 hv with hv | hv
    · exact .inr ⟨v, hv, hvoter, hyes, hobserver⟩
    · obtain rfl := List.mem_singleton.1 hv
      exact .inl ⟨hvoter.symm, hyes⟩
  · intro hcurrent
    rw [List.filter_eq_self.2 hcurrent]
    exact hcount

end Runs

/-! ### A former observer, and a chain with a lower threshold -/

namespace Sample

/-- Of two observers, who have to agree, one votes and is replaced. -/
def replacedCalls : List Call := [
  .setObserverSet [⟨"a"⟩, ⟨"b"⟩],
  .registerChain ⟨chainId, "external", .evm⟩ (.ofThreshold chainId 100),
  pollVote chainId "a" .yes 1,
  .replaceObserver ⟨"a"⟩ ⟨"c"⟩]

/-- The world in which the successor is an observer. -/
def replacedWorld : World ScriptedGateway :=
  service.after start replacedCalls

/-- The successor votes as the former observer has. -/
def successorVote : Registry.VoteRequest :=
  ⟨poll, .inbound, chainId, ⟨"c"⟩, .yes⟩

/-- The ballot after the vote of the successor. -/
def successorBallot : Ballot :=
  ⟨poll, chainId, .inbound, [⟨⟨"a"⟩, .yes⟩, ⟨⟨"c"⟩, .yes⟩], .success, 1, some 2⟩

/-- The calls and the vote after them are evaluated once for all that is to be known of them. -/
theorem evaluation_of_replaced :
    (∀ t ∈ service.turnsOf start replacedCalls,
      (service.execute t.world t.call).world.store.Addressable) ∧
    (Registry.castVote service.observers.stalePolicy
      (Overlay.fresh replacedWorld.store : Draft) successorVote 2).map Prod.fst
      = .ok ⟨true, false, successorBallot⟩ ∧
    Registry.observerSet replacedWorld.store.restored = .ok ⟨[⟨"c"⟩, ⟨"b"⟩]⟩ ∧
    Registry.chainParams? replacedWorld.store.restored chainId
      = .ok (some (.ofThreshold chainId 100)) := by
  decide +kernel

theorem run_replaced : Run service start (service.turnsOf start replacedCalls) replacedWorld :=
  Run.start.calls replacedCalls evaluation_of_replaced.1

theorem exists_successorVote : ∃ draft, Registry.castVote service.observers.stalePolicy
    (Overlay.fresh replacedWorld.store : Draft) successorVote 2
    = .ok (⟨true, false, successorBallot⟩, draft) := by
  obtain ⟨-, hanswer, -⟩ := evaluation_of_replaced
  obtain ⟨⟨outcome, draft⟩, hvote, rfl⟩ := map_eq_ok_iff.1 hanswer
  exact ⟨draft, hvote⟩

/-- The vote of the former observer was accepted on this ballot, while it was one. -/
theorem former_observer_was_member :
    ∃ earlier since w₁, service.turnsOf start replacedCalls = earlier ++ since ∧
      Run service w₁ since replacedWorld ∧
      Registry.ballot? w₁.store.restored poll = .ok none ∧
      (∀ t ∈ since, service.Spares poll t) ∧
      successorBallot.votes
        = (service.votesOn poll since).map AcceptedVote.entry ++ [successorVote.entry] ∧
      ∃ v ∈ service.votesOn poll since,
        v.request.voter = ⟨"a"⟩ ∧ v.request.vote = .yes ∧ v.observers.contains ⟨"a"⟩ = true := by
  obtain ⟨draft, hvote⟩ := exists_successorVote
  obtain ⟨observers, params, -, -, -, -, -,
    ⟨earlier, since, w₁, hturns, -, hsince, habsent, hspared, hentries, horigin⟩, -⟩ :=
    Run.success_by_quorum run_replaced rfl hvote rfl rfl
  refine ⟨earlier, since, w₁, hturns, hsince, habsent, hspared, hentries, ?_⟩
  obtain ⟨hsuccessor, -⟩ | hformer := horigin ⟨"a"⟩ (by decide)
  · exact absurd hsuccessor (by decide)
  · exact hformer

/-- **The vote of a former observer and that of its successor decide a ballot**, although only one
of the two is an observer and the quorum is two. -/
theorem success_with_former_observer :
    Reachable service replacedWorld ∧ ∃ outcome draft observers params,
      Registry.castVote service.observers.stalePolicy (Overlay.fresh replacedWorld.store : Draft)
        successorVote 2 = .ok (outcome, draft) ∧
      outcome.finalized = true ∧ outcome.ballot.status = .success ∧
      Registry.observerSet replacedWorld.store.restored = .ok observers ∧
      Registry.chainParams? replacedWorld.store.restored successorVote.chainId
        = .ok (some params) ∧
      ((outcome.ballot.votersFor .yes).filter observers.contains).length
        < observers.quorum params.thresholdPercent := by
  obtain ⟨-, -, hobservers, hparams⟩ := evaluation_of_replaced
  obtain ⟨draft, hvote⟩ := exists_successorVote
  exact ⟨⟨start, _, rfl, run_replaced⟩, _, draft, _, _, hvote, rfl, rfl, hobservers, hparams,
    by decide⟩

/-- A chain with a lower threshold. -/
def otherChainId : ChainId :=
  ⟨2⟩

/-- Three observers have to agree on the first chain, and two on the second. One of them votes on a
ballot of the first. -/
def twoChainCalls : List Call := [
  .setObserverSet [⟨"a"⟩, ⟨"b"⟩, ⟨"c"⟩],
  .registerChain ⟨chainId, "external", .evm⟩ (.ofThreshold chainId 100),
  .registerChain ⟨otherChainId, "other", .evm⟩ (.ofThreshold otherChainId 50),
  pollVote chainId "a" .yes 1]

/-- The world with one vote on the ballot. -/
def twoChainWorld : World ScriptedGateway :=
  service.after start twoChainCalls

/-- The second observer names the second chain. -/
def otherChainVote : Registry.VoteRequest :=
  ⟨poll, .inbound, otherChainId, ⟨"b"⟩, .yes⟩

/-- The ballot of the first chain after the first vote. -/
def ownBallot : Ballot :=
  ⟨poll, chainId, .inbound, [⟨⟨"a"⟩, .yes⟩], .pending, 1, none⟩

/-- The ballot of the first chain after the second vote. -/
def otherChainBallot : Ballot :=
  ⟨poll, chainId, .inbound, [⟨⟨"a"⟩, .yes⟩, ⟨⟨"b"⟩, .yes⟩], .success, 1, some 2⟩

/-- These calls and the vote after them are evaluated once, too. -/
theorem evaluation_of_twoChain :
    (∀ t ∈ service.turnsOf start twoChainCalls,
      (service.execute t.world t.call).world.store.Addressable) ∧
    Registry.ballot? twoChainWorld.store.restored otherChainVote.ballot = .ok (some ownBallot) ∧
    (Registry.castVote service.observers.stalePolicy
      (Overlay.fresh twoChainWorld.store : Draft) otherChainVote 2).map Prod.fst
      = .ok ⟨true, false, otherChainBallot⟩ ∧
    Registry.observerSet twoChainWorld.store.restored = .ok ⟨[⟨"a"⟩, ⟨"b"⟩, ⟨"c"⟩]⟩ ∧
    Registry.chainParams? twoChainWorld.store.restored chainId
      = .ok (some (.ofThreshold chainId 100)) := by
  decide +kernel

theorem reachable_twoChain : Reachable service twoChainWorld :=
  ⟨start, _, rfl, Run.start.calls twoChainCalls evaluation_of_twoChain.1⟩

theorem exists_otherChainVote : ∃ draft, Registry.castVote service.observers.stalePolicy
    (Overlay.fresh twoChainWorld.store : Draft) otherChainVote 2
    = .ok (⟨true, false, otherChainBallot⟩, draft) := by
  obtain ⟨-, -, hanswer, -⟩ := evaluation_of_twoChain
  obtain ⟨⟨outcome, draft⟩, hvote, rfl⟩ := map_eq_ok_iff.1 hanswer
  exact ⟨draft, hvote⟩

/-- The two votes are a quorum of the chain that is named. -/
theorem success_by_named_chain : ∃ observers params,
    Registry.observerSet twoChainWorld.store.restored = .ok observers ∧
    Registry.chainParams? twoChainWorld.store.restored otherChainId = .ok (some params) ∧
    observers.quorum params.thresholdPercent ≤ otherChainBallot.count .yes := by
  obtain ⟨-, hballot, -⟩ := evaluation_of_twoChain
  obtain ⟨draft, hvote⟩ := exists_otherChainVote
  obtain ⟨observers, params, hobservers, hparams, -, hsuccess, -⟩ :=
    Reachable.decided_by_quorum reachable_twoChain hballot hvote rfl
  exact ⟨observers, params, hobservers, hparams, hsuccess rfl⟩

/-- **Two votes decide a ballot whose own chain asks for three**, because the second of them names
another chain. -/
theorem success_below_quorum :
    Reachable service twoChainWorld ∧ ∃ b outcome draft observers own,
      Registry.ballot? twoChainWorld.store.restored otherChainVote.ballot = .ok (some b) ∧
      Registry.castVote service.observers.stalePolicy (Overlay.fresh twoChainWorld.store : Draft)
        otherChainVote 2 = .ok (outcome, draft) ∧
      outcome.finalized = true ∧ outcome.ballot.status = .success ∧
      Registry.observerSet twoChainWorld.store.restored = .ok observers ∧
      Registry.chainParams? twoChainWorld.store.restored b.chainId = .ok (some own) ∧
      outcome.ballot.count .yes < observers.quorum own.thresholdPercent := by
  obtain ⟨-, hballot, -, hobservers, hown⟩ := evaluation_of_twoChain
  obtain ⟨draft, hvote⟩ := exists_otherChainVote
  exact ⟨reachable_twoChain, ownBallot, _, draft, _, _, hballot, hvote, rfl, rfl, hobservers,
    hown, by decide⟩

end Sample

end Settlement
