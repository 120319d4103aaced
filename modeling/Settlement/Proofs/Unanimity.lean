import Settlement.Proofs.Electorate

/-!
# Votes that agree

If all votes on a ballot agree, then the rule is simple: the ballot is decided as soon as the votes
are a quorum, for the side that they are for, and not before
(`Settlement.Ballot.verdict?_of_agree`). It does not matter what becomes of stale ballots, because a
ballot on which all votes agree is never stale.

Observers who vote alike and one after the other therefore know when their ballot is decided
(`Settlement.Ballot.Gathering.voted`).
-/

namespace Settlement

/-- The state to which a quorum of a vote leads. -/
def Vote.verdict : Vote → BallotStatus
  | .yes => .success
  | .no => .failure
  | .absent => .pending

namespace Ballot

/-! ### The rule -/

section Rule

variable {b : Ballot} {s : ObserverSet} {quorum : Nat} {vote : Vote}

theorem count_of_agree (hagree : ∀ v ∈ b.votes, v.vote = vote) (side : Vote) :
    b.count side = if side = vote then b.votes.length else 0 := by
  split
  · next heq =>
    exact List.countP_eq_length.2 fun v hv => decide_eq_true ((hagree v hv).trans heq.symm)
  · next hne =>
    refine List.countP_eq_zero.2 fun v hv => ?_
    rw [hagree v hv]
    simpa using Ne.symm hne

/-- **A ballot on which all votes agree is decided by a quorum of them**, whoever has cast them. -/
theorem verdict?_of_agree (policy : StalePolicy) (hvote : vote ≠ .absent)
    (hagree : ∀ v ∈ b.votes, v.vote = vote) (hpos : 0 < quorum) (hquorum : quorum ≤ s.size) :
    b.verdict? quorum (s.size - b.countOf s) policy
      = if quorum ≤ b.votes.length then some vote.verdict else none := by
  have hcountOf : b.countOf s ≤ b.votes.length := List.countP_le_length
  have hyes := count_of_agree hagree .yes
  have hno := count_of_agree hagree .no
  rw [verdict?]
  cases vote with
  | absent => exact absurd rfl hvote
  | yes =>
    rw [if_pos rfl] at hyes
    rw [if_neg (by decide)] at hno
    rw [hyes, hno, if_neg (Nat.not_le.2 hpos)]
    split
    · rfl
    · exact if_neg fun hstale => by omega
  | no =>
    rw [if_neg (by decide)] at hyes
    rw [if_pos rfl] at hno
    rw [hyes, hno, if_neg (Nat.not_le.2 hpos)]
    split
    · rfl
    · exact if_neg fun hstale => by omega

/-- The rule decides a pending ballot if and only if the votes are a quorum. -/
theorem decided_of_agree {after : Ballot} {finalized : Bool} {policy : StalePolicy}
    {height : UInt64} (hvote : vote ≠ .absent) (hagree : ∀ v ∈ b.votes, v.vote = vote)
    (hpos : 0 < quorum) (hquorum : quorum ≤ s.size) (hpending : b.isFinalized = false)
    (h : b.evaluate quorum (s.size - b.countOf s) policy height = (finalized, after)) :
    finalized = decide (quorum ≤ b.votes.length) ∧
      (finalized = true → after.status = vote.verdict) ∧ (finalized = false → after = b) := by
  have hverdict := verdict?_of_agree policy hvote hagree hpos hquorum
  obtain ⟨rfl, hnone, rfl⟩ | ⟨rfl, status, hsome, rfl⟩ := eq_of_evaluate hpending h
  · rw [hnone] at hverdict
    refine ⟨(decide_eq_false fun hreached => ?_).symm, fun hdecided => ?_, fun _ => rfl⟩
    · rw [if_pos hreached] at hverdict
      cases hverdict
    · cases hdecided
  · rw [hsome] at hverdict
    obtain ⟨hreached, hstatus⟩ := Option.ite_none_right_eq_some.1 hverdict.symm
    refine ⟨(decide_eq_true hreached).symm, fun _ => (Option.some.inj hstatus).symm,
      fun hleft => ?_⟩
    cases hleft

end Rule

/-! ### One vote after the other -/

/-- Some observers have cast the same vote on a ballot, which is not decided. Before the first of
them there is no ballot. -/
inductive Gathering (vote : Vote) : List ObserverId → Option Ballot → Prop
  | absent : Gathering vote [] none
  | stored {voters : List ObserverId} {b : Ballot} (hpending : b.isFinalized = false)
      (hvotes : b.votes = voters.map (⟨·, vote⟩)) : Gathering vote voters (some b)

namespace Gathering

variable {vote : Vote} {voters : List ObserverId} {stored : Option Ballot} {fresh : Ballot}

/-- The ballot to which the next vote is added. -/
theorem getD (h : Gathering vote voters stored) (hpending : fresh.isFinalized = false)
    (hvotes : fresh.votes = []) : Gathering vote voters (some (stored.getD fresh)) := by
  cases h with
  | absent => exact .stored hpending hvotes
  | stored hpending hvotes => exact .stored hpending hvotes

theorem votes_eq {b : Ballot} (h : Gathering vote voters (some b)) :
    b.votes = voters.map (⟨·, vote⟩) := by
  cases h with
  | stored _ hvotes => exact hvotes

theorem not_voted {b : Ballot} {voter : ObserverId} (h : Gathering vote voters (some b))
    (hvoter : voter ∉ voters) : b.hasVoted voter = false := by
  refine hasVoted_of_notMem_voters ?_
  rw [Ballot.voters, h.votes_eq, List.map_map]
  simpa using hvoter

/-- **One more vote that agrees with the others decides the ballot if they are a quorum with it**,
and otherwise it is one more. -/
theorem voted {policy : StalePolicy} {l : Ledger} {request : Registry.VoteRequest}
    {height : UInt64} {outcome : Registry.VoteOutcome} {ballots : Digest → Option Ballot}
    {quorum : Nat} (h : Gathering request.vote voters (l.ballots request.ballot))
    (hvoted : Registry.Voted policy l request height outcome ballots)
    (hquorum : request.HasQuorum l quorum) (hle : quorum ≤ l.observers.size) :
    outcome.finalized = decide (quorum ≤ voters.length + 1) ∧
      (outcome.finalized = true → outcome.ballot.status = request.vote.verdict) ∧
      (outcome.finalized = false →
        Gathering request.vote (voters ++ [request.voter]) (ballots request.ballot)) := by
  cases hvoted with
  | late hstored hdecided =>
    rw [hstored] at h
    cases h with
    | stored hpending =>
      rw [hpending] at hdecided
      cases hdecided
  | @counted before recorded after _ outstanding finalized hbefore hpending hrecorded hevaluate hmay
      hvote hquorum' houtstanding =>
    have hbefore' : Gathering request.vote voters (some before) := by
      rw [hbefore]
      exact h.getD rfl rfl
    have hvotes' : recorded.votes = (voters ++ [request.voter]).map (⟨·, request.vote⟩) := by
      rw [hrecorded, List.map_append, ← hbefore'.votes_eq]
      rfl
    have hagree : ∀ v ∈ recorded.votes, v.vote = request.vote := by
      rw [hvotes']
      rintro v hv
      obtain ⟨_, -, rfl⟩ := List.mem_map.1 hv
      rfl
    -- The quorum is that of the chain which the request names.
    obtain ⟨params, hparams, rfl⟩ := hquorum
    obtain ⟨params', hparams', rfl⟩ := hquorum'
    obtain rfl : params' = params := Option.some.inj (hparams'.symm.trans hparams)
    have hrecorded' := isFinalized_of_recorded hpending hrecorded
    obtain ⟨hfinalized, hstatus, hleft⟩ := decided_of_agree hvote hagree
      (l.observers.quorum_pos params'.thresholdPercent) hle hrecorded' (houtstanding ▸ hevaluate)
    rw [hvotes', List.length_map, List.length_append, List.length_singleton] at hfinalized
    refine ⟨hfinalized, hstatus, fun hundecided => ?_⟩
    obtain rfl : after = recorded := hleft hundecided
    rw [Function.update_self]
    exact .stored hrecorded' hvotes'

end Gathering

end Ballot

end Settlement
