import Settlement.Observer

/-!
# Ballots

A ballot collects the votes of observers on one observation, and is indexed by the digest of
the observation. After every vote the finalization rule is applied
(`Settlement.Ballot.verdict?`): the side that has reached the quorum wins, success first. A
ballot that neither side can win any more stays pending, or is closed as a failure, as the
stale policy says.
-/

namespace Settlement

/-- The vote of an observer. -/
inductive Vote where
  | yes
  | no
  /-- No vote has been cast. -/
  | absent
  deriving DecidableEq

/-- The votes, in the order in which records number them. -/
def Vote.all : List Vote :=
  [.yes, .no, .absent]

/-- What a ballot is about: a deposit on another chain or the outcome of an outbound
transaction. -/
inductive Observation where
  | inbound
  | outbound
  deriving DecidableEq

/-- The kinds of observation, in the order in which records number them. -/
def Observation.all : List Observation :=
  [.inbound, .outbound]

/-- The state of a ballot. -/
inductive BallotStatus where
  | pending
  | success
  | failure
  deriving DecidableEq

/-- The states, in the order in which records number them. -/
def BallotStatus.all : List BallotStatus :=
  [.pending, .success, .failure]

/-- A ballot that is not pending is finalized. -/
def BallotStatus.isFinalized (s : BallotStatus) : Bool :=
  s != .pending

/-- What happens to a ballot that neither side can win any more. -/
inductive StalePolicy where
  /-- It stays pending. -/
  | keepPending
  /-- It is closed as a failure. -/
  | closeAsFailure
  deriving DecidableEq

/-- The policies, in the order in which records number them. -/
def StalePolicy.all : List StalePolicy :=
  [.keepPending, .closeAsFailure]

/-- A vote with its voter. -/
structure CastVote where
  voter : ObserverId
  vote : Vote
  deriving DecidableEq

/-- A ballot. -/
structure Ballot where
  /-- The digest of the observation. -/
  index : Digest
  chainId : ChainId
  observation : Observation
  /-- The votes in the order in which they were cast. -/
  votes : List CastVote
  status : BallotStatus
  /-- The host height of the first vote. -/
  creationHeight : UInt64
  /-- The host height of the deciding vote. -/
  finalizedHeight : Option UInt64
  deriving DecidableEq

namespace Ballot

/-- A ballot without votes. -/
def fresh (index : Digest) (chainId : ChainId) (observation : Observation) (height : UInt64) :
    Ballot :=
  ⟨index, chainId, observation, [], .pending, height, none⟩

/-- Whether the ballot is decided. -/
def isFinalized (b : Ballot) : Bool :=
  b.status.isFinalized

/-! ### Votes -/

/-- The first vote that is recorded for an account. -/
def voteOf (b : Ballot) (voter : ObserverId) : Vote :=
  match b.votes.find? (·.voter = voter) with
  | some v => v.vote
  | none => .absent

/-- Whether an account has voted. -/
def hasVoted (b : Ballot) (voter : ObserverId) : Bool :=
  b.voteOf voter != .absent

/-- Why a vote is not recorded. -/
inductive Refusal where
  /-- It is no vote. -/
  | absentVote
  /-- The account has voted already. -/
  | alreadyVoted
  deriving DecidableEq

/-- The ballot with a vote at the end. -/
def record (b : Ballot) (voter : ObserverId) (vote : Vote) : Except Refusal Ballot :=
  if vote = .absent then .error .absentVote
  else if b.hasVoted voter then .error .alreadyVoted
  else .ok { b with votes := b.votes ++ [⟨voter, vote⟩] }

/-- How often a vote was cast. -/
def count (b : Ballot) (vote : Vote) : Nat :=
  b.votes.countP (·.vote = vote)

/-- How many of the given observers have an entry on the ballot, repeated entries counted. -/
def countOf (b : Ballot) (observers : ObserverSet) : Nat :=
  b.votes.countP fun v => observers.contains v.voter

/-! ### The finalization rule -/

/-- The state that the votes decide, if they do. The quorum is the number of votes that a side
needs, and `outstanding` is how many observers may still vote. -/
def verdict? (b : Ballot) (quorum outstanding : Nat) (policy : StalePolicy) :
    Option BallotStatus :=
  if quorum ≤ b.count .yes then some .success
  else if quorum ≤ b.count .no then some .failure
  else if policy = .closeAsFailure ∧ b.count .yes + outstanding < quorum ∧
      b.count .no + outstanding < quorum then some .failure
  else none

/-- The ballot after the finalization rule, and whether the rule has just decided it. A ballot
that was decided before stays as it is. -/
def evaluate (b : Ballot) (quorum outstanding : Nat) (policy : StalePolicy) (height : UInt64) :
    Bool × Ballot :=
  if b.isFinalized then (false, b)
  else
    match b.verdict? quorum outstanding policy with
    | none => (false, b)
    | some status => (true, { b with status := status, finalizedHeight := some height })

end Ballot

/-! ### Layouts -/

instance : Layout Vote :=
  .ofAlternatives Vote.all

instance : Layout Observation :=
  .ofAlternatives Observation.all

instance : Layout BallotStatus :=
  .ofAlternatives BallotStatus.all

instance : Layout StalePolicy :=
  .ofAlternatives StalePolicy.all

instance : Fields CastVote (ObserverId × Vote) where
  split v := (v.voter, v.vote)
  join := fun (voter, vote) => ⟨voter, vote⟩

instance : Layout CastVote :=
  .ofFields

instance : Fields Ballot (Digest × ChainId × Observation × List CastVote × BallotStatus × UInt64
    × Option UInt64) where
  split b := (b.index, b.chainId, b.observation, b.votes, b.status, b.creationHeight,
    b.finalizedHeight)
  join := fun (index, chainId, observation, votes, status, creationHeight, finalizedHeight) =>
    ⟨index, chainId, observation, votes, status, creationHeight, finalizedHeight⟩

instance : Layout Ballot :=
  .ofFields

end Settlement
