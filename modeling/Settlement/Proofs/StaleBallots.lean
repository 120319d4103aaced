import Settlement.Proofs.Electorate
import Settlement.Proofs.Quorum

/-!
# Stale ballots

If stale ballots are closed, a ballot on which neither side can win any more is closed as a failure
by the vote that makes it so. Whether a side can win is a matter of the votes that may still come:
further votes of the observers without one, recorded one after the other
(`Settlement.Ballot.recordAll`), may bring it to the quorum or not
(`Settlement.Ballot.CanBeDecided`). The rule looks at numbers only, and it is right because the
number of outstanding votes is that of the observers without a vote.

Main statement: `Settlement.Reachable.closes_dead_ballots`.
-/

namespace Settlement

namespace Ballot

/-! ### Further votes -/

/-- The ballot with further votes at the end, if each of them can be recorded. -/
def recordAll (b : Ballot) : List CastVote → Except Refusal Ballot
  | [] => .ok b
  | v :: rest => do
    let b ← b.record v.voter v.vote
    b.recordAll rest

/-- Further votes of the observers without one can bring a side to the quorum. -/
def CanBeDecided (b : Ballot) (s : ObserverSet) (quorum : Nat) : Prop :=
  ∃ (more : List CastVote) (b' : Ballot), (∀ v ∈ more, v.voter ∈ b.outstanding s) ∧
    b.recordAll more = .ok b' ∧ (quorum ≤ b'.count .yes ∨ quorum ≤ b'.count .no)

section Further

variable {b b' : Ballot} {s : ObserverSet} {quorum : Nat} {more : List CastVote} {vote : Vote}

theorem hasVoted_of_record {voter : ObserverId} (h : b.record voter vote = .ok b') :
    b.hasVoted voter = false := by
  rw [record] at h
  split at h
  · cases h
  · split at h
    · cases h
    · next hnot_voted => exact Bool.not_eq_true _ ▸ hnot_voted

theorem votes_of_recordAll (h : b.recordAll more = .ok b') : b'.votes = b.votes ++ more := by
  induction more generalizing b with
  | nil =>
    cases h
    exact (List.append_nil _).symm
  | cons v rest ih =>
    obtain ⟨b₁, hrecord, hrest⟩ := bind_eq_ok_iff.1 h
    obtain ⟨-, rfl⟩ := Registry.eq_of_record hrecord
    exact (ih hrest).trans (List.append_assoc _ _ _)

/-- Votes that are recorded one after the other are those of different accounts, none of which has
voted before. -/
theorem voters_of_recordAll (hvotes : ∀ v ∈ b.votes, v.vote ≠ .absent)
    (h : b.recordAll more = .ok b') :
    (more.map CastVote.voter).Nodup ∧ ∀ v ∈ more, v.voter ∉ b.voters := by
  induction more generalizing b with
  | nil => exact ⟨List.nodup_nil, by rintro _ ⟨⟩⟩
  | cons v rest ih =>
    obtain ⟨b₁, hrecord, hrest⟩ := bind_eq_ok_iff.1 h
    have hfresh : v.voter ∉ b.voters := notMem_voters hvotes (hasVoted_of_record hrecord)
    obtain ⟨hvote, rfl⟩ := Registry.eq_of_record hrecord
    obtain ⟨hnodup, hothers⟩ := ih (List.forall_mem_append.2
      ⟨hvotes, List.forall_mem_singleton.2 hvote⟩) hrest
    have hvoters (id : ObserverId) : id ∉ voters { b with votes := b.votes ++ [v] } ↔
        id ∉ b.voters ∧ id ≠ v.voter := by
      simp [voters, List.map_append, not_or]
    refine ⟨List.nodup_cons.2 ⟨fun hmem => ?_, hnodup⟩, ?_⟩
    · obtain ⟨u, hu, heq⟩ := List.mem_map.1 hmem
      exact ((hvoters u.voter).1 (hothers u hu)).2 heq
    · exact List.forall_mem_cons.2 ⟨hfresh, fun u hu => ((hvoters u.voter).1 (hothers u hu)).1⟩

/-- Different accounts without a vote may all vote for the same side. -/
theorem exists_recordAll {ids : List ObserverId} (hids : ids.Nodup) (hvote : vote ≠ .absent)
    (hfresh : ∀ id ∈ ids, id ∉ b.voters) :
    ∃ b', b.recordAll (ids.map (⟨·, vote⟩)) = .ok b' := by
  induction ids generalizing b with
  | nil => exact ⟨b, rfl⟩
  | cons id rest ih =>
    obtain ⟨hid, hrest⟩ := List.nodup_cons.1 hids
    obtain ⟨hidFresh, hrestFresh⟩ := List.forall_mem_cons.1 hfresh
    obtain ⟨b', hb'⟩ := ih (b := { b with votes := b.votes ++ [⟨id, vote⟩] }) hrest fun i hi => by
      have hne : i ≠ id := fun heq => hid (heq ▸ hi)
      have hnotMem := hrestFresh i hi
      simp_all [voters]
    exact ⟨b', bind_eq_ok_iff.2 ⟨_, record_eq hvote (hasVoted_of_notMem_voters hidFresh), hb'⟩⟩

theorem count_of_recordAll (h : b.recordAll more = .ok b') :
    b'.count vote = b.count vote + more.countP (·.vote = vote) := by
  rw [count, count, votes_of_recordAll h, List.countP_append]

/-- **A side can be brought to the quorum exactly if all outstanding votes would do it.** -/
theorem canBeDecided_iff (hs : s.members.Nodup) (hvotes : ∀ v ∈ b.votes, v.vote ≠ .absent) :
    b.CanBeDecided s quorum ↔ quorum ≤ b.count .yes + (b.outstanding s).length ∨
      quorum ≤ b.count .no + (b.outstanding s).length := by
  constructor
  · rintro ⟨more, b', hmore, hrecorded, hquorum⟩
    -- The further voters are different and outstanding, so there are no more of them.
    have hlength : more.length ≤ (b.outstanding s).length := by
      have hnodup := (voters_of_recordAll hvotes hrecorded).1
      have hle := hnodup.length_le_of_subset fun id hid => by
        obtain ⟨v, hv, rfl⟩ := List.mem_map.1 hid
        exact hmore v hv
      rwa [List.length_map] at hle
    rw [count_of_recordAll hrecorded, count_of_recordAll hrecorded] at hquorum
    have hyes := List.countP_le_length (p := fun v : CastVote => v.vote = .yes) (l := more)
    have hno := List.countP_le_length (p := fun v : CastVote => v.vote = .no) (l := more)
    omega
  · intro hquorum
    have hfresh : ∀ id ∈ b.outstanding s, id ∉ b.voters := by
      intro id hid hmem
      have hnot_voted := (List.mem_filter.1 hid).2
      rw [(hasVoted_iff hvotes).2 hmem] at hnot_voted
      cases hnot_voted
    have hall (vote : Vote) (hvote : vote ≠ .absent)
        (hreach : quorum ≤ b.count vote + (b.outstanding s).length) :
        ∃ (more : List CastVote) (b' : Ballot), (∀ v ∈ more, v.voter ∈ b.outstanding s) ∧
          b.recordAll more = .ok b' ∧ quorum ≤ b'.count vote := by
      obtain ⟨b', hb'⟩ := exists_recordAll (hs.filter _) hvote hfresh
      refine ⟨_, b', fun v hv => ?_, hb', ?_⟩
      · obtain ⟨id, hid, rfl⟩ := List.mem_map.1 hv
        exact hid
      · rw [count_of_recordAll hb', List.countP_map]
        simpa [Function.comp_def, outstanding] using hreach
    rcases hquorum with hyes | hno
    · obtain ⟨more, b', hmore, hrecorded, hcount⟩ := hall .yes (by decide) hyes
      exact ⟨more, b', hmore, hrecorded, .inl hcount⟩
    · obtain ⟨more, b', hmore, hrecorded, hcount⟩ := hall .no (by decide) hno
      exact ⟨more, b', hmore, hrecorded, .inr hcount⟩

/-- The rule decides nothing only if neither side is at the quorum and one can still be brought
there, and it closes a ballot without a quorum of votes against it only if none can. -/
theorem verdict?_closeAsFailure (b : Ballot) (quorum outstanding : Nat) :
    (b.verdict? quorum outstanding .closeAsFailure = none →
      (b.count .yes < quorum ∧ b.count .no < quorum) ∧
        (quorum ≤ b.count .yes + outstanding ∨ quorum ≤ b.count .no + outstanding)) ∧
    (b.verdict? quorum outstanding .closeAsFailure = some .failure → b.count .no < quorum →
      ¬(quorum ≤ b.count .yes + outstanding ∨ quorum ≤ b.count .no + outstanding)) := by
  rw [verdict?]
  split
  · exact ⟨by simp, by simp⟩
  · next hyes =>
    split
    · next hno => exact ⟨by simp, fun _ hlt => absurd hno (Nat.not_le.2 hlt)⟩
    · next hno =>
      split
      · next hstale => exact ⟨by simp, fun _ _ => by omega⟩
      · next hlive =>
        refine ⟨fun _ => ⟨⟨Nat.not_le.1 hyes, Nat.not_le.1 hno⟩, ?_⟩, by simp⟩
        by_contra hdead
        exact hlive ⟨rfl, by omega, by omega⟩

/-- **The rule tells dead ballots from others**, if the outstanding votes are counted right. -/
theorem dead_of_evaluate {after : Ballot} {finalized : Bool} {height : UInt64}
    (hs : s.members.Nodup) (hvotes : ∀ v ∈ b.votes, v.vote ≠ .absent)
    (hpending : b.isFinalized = false)
    (h : b.evaluate quorum (b.outstanding s).length .closeAsFailure height = (finalized, after)) :
    (after.status = .failure → after.count .no < quorum → ¬b.CanBeDecided s quorum) ∧
      (after.status = .pending → b.CanBeDecided s quorum) ∧
      ((∀ id ∈ s.members, after.hasVoted id = true) → after.status ≠ .pending) := by
  obtain ⟨hnone, hclosed⟩ := verdict?_closeAsFailure b quorum (b.outstanding s).length
  have hstatus : b.status = .pending := bne_eq_false_iff_eq.1 hpending
  rw [canBeDecided_iff hs hvotes]
  obtain ⟨-, hverdict, rfl⟩ | ⟨-, status, hverdict, rfl⟩ := eq_of_evaluate hpending h
  · obtain ⟨hbelow, hreach⟩ := hnone hverdict
    refine ⟨fun hfailure => ?_, fun _ => hreach, fun hall => ?_⟩
    · rw [hstatus] at hfailure
      cases hfailure
    · -- With nothing outstanding, a side that can be brought to the quorum is there.
      have hempty : after.outstanding s = [] := List.filter_eq_nil_iff.2 fun id hid => by
        rw [hall id hid]
        decide
      rw [hempty, List.length_nil] at hreach
      omega
  · have hdecided := isFinalized_of_verdict? hverdict
    have hne : status ≠ .pending := fun heq => by
      rw [heq] at hdecided
      cases hdecided
    refine ⟨fun hfailure hno => hclosed ?_ hno, fun hleft => absurd hleft hne, fun _ => hne⟩
    rw [hverdict]
    exact congrArg some hfailure

end Further

end Ballot

/-! ### Votes that close a ballot -/

section Runs

variable {γ : Type} [Gateway γ] {service : Service} {w : World γ} {policy : StalePolicy}
  {request : Registry.VoteRequest} {height : UInt64} {outcome : Registry.VoteOutcome}
  {draft : Draft}

/-- The ballot after an accepted vote has a history. -/
theorem Reachable.told_of_voted (h : Reachable service w)
    {ballots : Digest → Option Ballot}
    (hvoted : Registry.Voted policy w.store.ledger request height outcome ballots) :
    ∃ votes, BallotTold request.ballot votes (some outcome.ballot) := by
  obtain ⟨w₀, turns, hempty, hrun⟩ := h
  obtain ⟨-, since, -, -, -, -, -, -, htold⟩ := hrun.told_of_voted hempty hvoted
  exact ⟨_, htold⟩

/-- **The ballots that are closed are the dead ones.** When a vote on a pending or new ballot is
accepted and stale ballots are closed, the votes that are counted as outstanding are those of the
observers without a vote. A ballot that is closed without a quorum of votes against it could not be
decided by any further votes of these observers, and a ballot that is left pending could. So it is
never left pending once all observers have voted. -/
theorem Reachable.closes_dead_ballots (h : Reachable service w)
    (hpending : ∀ b, Registry.ballot? w.store.restored request.ballot = .ok (some b) →
      b.status = .pending)
    (hvote : Registry.castVote .closeAsFailure (Overlay.fresh w.store : Draft) request height
      = .ok (outcome, draft)) :
    ∃ observers params stored recorded quorum,
      Registry.observerSet w.store.restored = .ok observers ∧
      Registry.chainParams? w.store.restored request.chainId = .ok (some params) ∧
      Registry.ballot? w.store.restored request.ballot = .ok stored ∧
      (stored.getD (.fresh request.ballot request.chainId request.observation height)).record
        request.voter request.vote = .ok recorded ∧
      quorum = observers.quorum params.thresholdPercent ∧
      recorded.evaluate quorum (observers.size - recorded.countOf observers) .closeAsFailure height
        = (outcome.finalized, outcome.ballot) ∧
      observers.size - recorded.countOf observers
        = (observers.members.filter fun id => !recorded.hasVoted id).length ∧
      (outcome.ballot.status = .failure → outcome.ballot.count .no < quorum →
        ¬recorded.CanBeDecided observers quorum) ∧
      (outcome.ballot.status = .pending → recorded.CanBeDecided observers quorum) ∧
      ((∀ id ∈ observers.members, outcome.ballot.hasVoted id = true) →
        outcome.ballot.status ≠ .pending) := by
  have hsound := h.sound
  have hnodup := h.constituted.nodup
  obtain ⟨ballots, hvoted⟩ := hsound.voted hvote
  obtain ⟨votes, htold⟩ := h.told_of_voted hvoted
  simp only [hsound.ballot?_eq, Except.ok.injEq] at hpending ⊢
  cases hvoted with
  | late hstored hdecided =>
    rw [Ballot.isFinalized, hpending _ hstored] at hdecided
    cases hdecided
  | @counted before recorded after quorum outstanding finalized hbefore hundecided hrecorded
      hevaluate hmay hcast hquorum houtstanding =>
    obtain ⟨params, hparams, rfl⟩ := hsound.hasQuorum_iff.1 hquorum
    have hrecorded' := Ballot.isFinalized_of_recorded hundecided hrecorded
    obtain ⟨hvotes, -, -⟩ := Ballot.decided_of_evaluate hrecorded' hevaluate
    -- What is known of the entries of the ballot in the end is known of the recorded one.
    obtain ⟨hdistinct, hcastVotes⟩ : recorded.voters.Nodup ∧
        ∀ v ∈ recorded.votes, v.vote ≠ .absent := by
      rw [Ballot.voters, ← hvotes]
      cases htold with
      | stored hhistory => exact ⟨hhistory.entries.nodup, hhistory.entries.ne_absent⟩
    have hopen : w.observers.size - recorded.countOf w.observers
        = (recorded.outstanding w.observers).length :=
      Ballot.size_sub_countOf hnodup hdistinct hcastVotes
    obtain rfl : outstanding = w.observers.size - recorded.countOf w.observers := houtstanding
    have hdead := Ballot.dead_of_evaluate hnodup hcastVotes hrecorded' (hopen ▸ hevaluate)
    refine ⟨w.observers, params, _, recorded, _, hsound.observerSet_eq, hparams, rfl, ?_, rfl,
      hevaluate, hopen, hdead⟩
    rw [hrecorded]
    exact hbefore ▸ Ballot.record_eq hcast hmay.not_voted

end Runs

/-! ### A ballot with the vote of a former observer -/

namespace Sample

/-- Three observers have to agree. One of them votes for the ballot and is replaced, and the two
others vote against it. -/
def deadlockCalls : List Call := [
  .setObserverSet [⟨"a"⟩, ⟨"b"⟩, ⟨"c"⟩],
  .registerChain ⟨chainId, "external", .evm⟩ (.ofThreshold chainId 100),
  pollVote chainId "a" .yes 1,
  .replaceObserver ⟨"a"⟩ ⟨"d"⟩,
  pollVote chainId "b" .no 2,
  pollVote chainId "c" .no 3]

/-- The world in which only the successor has not voted. -/
def deadlockWorld : World ScriptedGateway :=
  service.after start deadlockCalls

/-- The successor votes as the former observer has. -/
def deadlockVote : Registry.VoteRequest :=
  ⟨poll, .inbound, chainId, ⟨"d"⟩, .yes⟩

/-- The ballot with that vote: of its four votes only three are those of observers. -/
def deadlockBallot : Ballot :=
  ⟨poll, chainId, .inbound, [⟨⟨"a"⟩, .yes⟩, ⟨⟨"b"⟩, .no⟩, ⟨⟨"c"⟩, .no⟩, ⟨⟨"d"⟩, .yes⟩], .pending, 1,
    none⟩

/-- The calls and the vote after them are evaluated once for all that is to be known of them. -/
theorem evaluation_of_deadlock :
    (∀ t ∈ service.turnsOf start deadlockCalls,
      (service.execute t.world t.call).world.store.Addressable) ∧
    Registry.ballot? deadlockWorld.store.restored deadlockVote.ballot
      = .ok (some { deadlockBallot with votes := deadlockBallot.votes.dropLast }) ∧
    (Registry.castVote .closeAsFailure (Overlay.fresh deadlockWorld.store : Draft)
      deadlockVote 4).map Prod.fst
      = .ok ⟨true, false, { deadlockBallot with status := .failure, finalizedHeight := some 4 }⟩ ∧
    Registry.observerSet deadlockWorld.store.restored = .ok ⟨[⟨"d"⟩, ⟨"b"⟩, ⟨"c"⟩]⟩ ∧
    Registry.chainParams? deadlockWorld.store.restored chainId
      = .ok (some (.ofThreshold chainId 100)) := by
  decide +kernel

/-- **The last vote closes the ballot**, with two votes on each side and a quorum of three: none of
the three observers can vote any more. -/
theorem closes_with_former_observer :
    (∀ b, Registry.ballot? deadlockWorld.store.restored deadlockVote.ballot = .ok (some b) →
      b.status = .pending) ∧
    ∃ outcome draft, Registry.castVote .closeAsFailure
        (Overlay.fresh deadlockWorld.store : Draft) deadlockVote 4 = .ok (outcome, draft) ∧
      outcome.ballot.status = .failure ∧ outcome.ballot.count .no < 3 ∧
      ¬deadlockBallot.CanBeDecided ⟨[⟨"d"⟩, ⟨"b"⟩, ⟨"c"⟩]⟩ 3 := by
  obtain ⟨hstores, hstored, hanswer, hobservers, hparams⟩ := evaluation_of_deadlock
  have hreachable : Reachable service deadlockWorld :=
    ⟨start, _, rfl, Run.start.calls deadlockCalls hstores⟩
  have hpending : ∀ b, Registry.ballot? deadlockWorld.store.restored deadlockVote.ballot
      = .ok (some b) → b.status = .pending := by
    intro b hb
    cases hstored.symm.trans hb
    rfl
  obtain ⟨⟨outcome, draft⟩, hvote, rfl⟩ := map_eq_ok_iff.1 hanswer
  obtain ⟨observers, params, stored, recorded, quorum, hobservers', hparams', hstored', hrecord,
    rfl, -, -, hdead, -⟩ := Reachable.closes_dead_ballots hreachable hpending hvote
  cases hobservers.symm.trans hobservers'
  cases hparams.symm.trans hparams'
  cases hstored.symm.trans hstored'
  cases hrecord
  exact ⟨hpending, _, draft, hvote, rfl, by decide, hdead rfl (by decide)⟩

end Sample

end Settlement
