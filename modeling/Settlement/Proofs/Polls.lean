import Settlement.Proofs.Voting

/-!
# What calls make of the ballots

A vote is cast alone or comes with a message, and an accepted one is told in the same way
whichever call it was (`Settlement.AcceptedVote`). A call makes no more of the ballots than its
vote does: without an accepted vote they stay as they are, unless the call prunes them
(`Settlement.Polled`).
-/

namespace Settlement

/-! ### Accepted votes -/

/-- The vote that comes with a report of an inbound transaction. -/
def InboundVote.request (m : InboundVote) : Registry.VoteRequest :=
  ⟨m.digest, .inbound, m.senderChain, m.creator, .yes⟩

/-- The vote that comes with a report of an outbound transaction. -/
def OutboundVote.request (m : OutboundVote) : Registry.VoteRequest :=
  ⟨m.digest, .outbound, m.chainId, m.creator, m.vote⟩

/-- A vote that was accepted, with what the call has answered. -/
structure AcceptedVote where
  request : Registry.VoteRequest
  /-- The host height of the call. -/
  height : UInt64
  /-- The observers when the vote was cast. -/
  observers : ObserverSet
  /-- Whether the vote is said to have created the ballot. -/
  isNew : Bool
  /-- Whether the vote is said to have decided the ballot. -/
  finalized : Bool
  deriving DecidableEq

/-- The vote of a call that was made among some observers, if it was a vote and accepted. -/
def acceptedVote? (observers : ObserverSet) (c : Call) (answer : Except CallError Answer) :
    Option AcceptedVote :=
  match c, answer with
  | .castVote request block, .ok (.outcome outcome) =>
    some ⟨request, block.height, observers, outcome.isNew, outcome.finalized⟩
  | .voteInbound block m, .ok (.receipt receipt) =>
    some ⟨m.request, block.height, observers, receipt.isNewBallot, receipt.finalized⟩
  | .voteOutbound block m, .ok (.receipt receipt) =>
    some ⟨m.request, block.height, observers, receipt.isNewBallot, receipt.finalized⟩
  | _, _ => none

/-- A vote that was refused is not accepted. -/
theorem acceptedVote?_error (observers : ObserverSet) (c : Call) (e : CallError) :
    acceptedVote? observers c (.error e) = none := by
  cases c <;> rfl

theorem observers_of_acceptedVote? {observers : ObserverSet} {c : Call}
    {answer : Except CallError Answer} {v : AcceptedVote}
    (h : acceptedVote? observers c answer = some v) : v.observers = observers := by
  rw [acceptedVote?.eq_def] at h
  split at h
  · cases h
    rfl
  · cases h
    rfl
  · cases h
    rfl
  · cases h

/-! ### The ballots after a call -/

/-- What a call makes of the ballots of a ledger, by what it has answered. -/
inductive Polled (policy : StalePolicy) (l : Ledger) (c : Call)
    (answer : Except CallError Answer) : (Digest → Option Ballot) → Prop
  /-- Without an accepted vote the ballots stay as they are. -/
  | kept (hnone : acceptedVote? l.observers c answer = none) : Polled policy l c answer l.ballots
  /-- An accepted vote does what a vote does. -/
  | voted {v : AcceptedVote} {outcome : Registry.VoteOutcome} {ballots : Digest → Option Ballot}
      (haccepted : acceptedVote? l.observers c answer = some v)
      (hnew : v.isNew = outcome.isNew) (hfinalized : v.finalized = outcome.finalized)
      (hvoted : Registry.Voted policy l v.request v.height outcome ballots) :
      Polled policy l c answer ballots
  /-- Pruning removes ballots. -/
  | pruned {height : UInt64} {ballots : Digest → Option Ballot} (hcall : c = .pruneBallots height)
      (hfewer : ∀ index b, ballots index = some b → l.ballots index = some b) :
      Polled policy l c answer ballots

theorem Polled.filed {policy : StalePolicy} {l : Ledger} {c : Call}
    {answer : Except CallError Answer} {ballots : Digest → Option Ballot}
    (h : Polled policy l c answer ballots) (hfiled : BallotsFiled l.ballots) :
    BallotsFiled ballots := by
  cases h with
  | kept => exact hfiled
  | voted _ _ _ hvoted => exact hvoted.filed hfiled
  | pruned _ hfewer => exact fun index b hb => hfiled index b (hfewer index b hb)

end Settlement
