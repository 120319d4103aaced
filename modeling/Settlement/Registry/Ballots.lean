import Settlement.Registry.Governance

/-!
# Voting on ballots

`Settlement.Registry.castVote` takes one vote: only members of the current observer set may
vote, on a chain that is served, and once on every ballot. The quorum is that of the chain
which the request names. A vote on a decided ballot is accepted and changes nothing.

Ballots are found by their index, and by the height of their creation for pruning. Pruning
removes the decided ballots that were created up to some height; pending ballots stay, with
their height entries.
-/

namespace Settlement

namespace Registry

variable {σ : Type}

/-! ### Ballots in the store -/

/-- The ballot with an index. -/
def ballot? [ReadableStore σ] (s : σ) (index : Digest) : Except RegistryError (Option Ballot) :=
  do return ← getRecord s (Key.ballot index).bytes

/-- Stores a ballot. -/
def setBallot [WritableStore σ] (s : σ) (ballot : Ballot) : Except RegistryError σ :=
  do return ← putRecord s (Key.ballot ballot.index).bytes ballot

/-- Enters the index of a ballot under the height of its creation. -/
def addHeightEntry [WritableStore σ] (s : σ) (height : UInt64) (index : Digest) :
    Except RegistryError σ :=
  do return ← putRecord s (Key.ballotByHeight height index).bytes index

/-- The indices of the ballots that were created at a height. -/
def ballotsCreatedAt [ReadableStore σ] (s : σ) (height : UInt64) :
    Except RegistryError (List Digest) :=
  do return ← scanRecords s (KeyRange.ballotsAt height).bytes

/-! ### Casting a vote -/

/-- The vote of an observer on a ballot. -/
structure VoteRequest where
  ballot : Digest
  observation : Observation
  /-- The chain whose threshold decides. -/
  chainId : ChainId
  voter : ObserverId
  vote : Vote
  deriving DecidableEq

/-- What a vote did. -/
structure VoteOutcome where
  /-- Whether the vote decided the ballot. -/
  finalized : Bool
  /-- Whether the vote created the ballot. -/
  isNew : Bool
  /-- The ballot after the vote. -/
  ballot : Ballot
  deriving DecidableEq

/-- Why a ballot refuses a vote, as an error of the registry. -/
def refusalError (voter : ObserverId) (index : Digest) : Ballot.Refusal → RegistryError
  | .absentVote => .absentVote
  | .alreadyVoted => .duplicateVote voter index

/-- Casts a vote at a host height. -/
def castVote [WritableStore σ] (policy : StalePolicy) (s : σ) (request : VoteRequest)
    (height : UInt64) : Except RegistryError (VoteOutcome × σ) := do
  let observers ← observerSet s
  unless observers.contains request.voter do
    throw (.notAuthorized request.voter)
  let (_, params) ← supportedChain s request.chainId
  let stored ← ballot? s request.ballot
  let isNew := stored.isNone
  let ballot := stored.getD
    (.fresh request.ballot request.chainId request.observation height)
  if ballot.hasVoted request.voter then
    throw (.duplicateVote request.voter ballot.index)
  if ballot.isFinalized then
    return (⟨false, false, ballot⟩, s)
  let ballot ← (ballot.record request.voter request.vote).mapError
    (refusalError request.voter ballot.index)
  let quorum := observers.quorum params.thresholdPercent
  let outstanding := observers.size - ballot.countOf observers
  let (finalized, ballot) := ballot.evaluate quorum outstanding policy height
  let s ← if isNew then addHeightEntry s height ballot.index else pure s
  let s ← setBallot s ballot
  return (⟨finalized, isNew, ballot⟩, s)

/-! ### Pruning -/

/-- The height and the ballot index that a key of the height entries holds, if it is long
enough for both. -/
def heightEntry? (key : Bytes) : Option (UInt64 × Digest) :=
  let body := key.drop KeyRange.ballotsByHeight.bytes.length
  (Digest.ofBytes? ((body.drop 8).take 32)).map fun index =>
    (UInt64.ofNat (Bytes.toNatBig (body.take 8)), index)

/-- Removes the decided ballots among the given height entries, up to the first that is above
the greatest height, and gives their number with the store. A height entry without a ballot is
removed as well. -/
def pruneEntries [WritableStore σ] (maxHeight : UInt64) :
    List Bytes → Nat → σ → Except RegistryError (Nat × σ)
  | [], pruned, s => return (pruned, s)
  | key :: rest, pruned, s => do
    match heightEntry? key with
    | none => pruneEntries maxHeight rest pruned s
    | some (height, index) =>
      if maxHeight < height then
        return (pruned, s)
      match ← ballot? s index with
      | none => pruneEntries maxHeight rest pruned (← deleteRecord s key)
      | some ballot =>
        if ballot.isFinalized then
          let s ← deleteRecord s (Key.ballot index).bytes
          pruneEntries maxHeight rest (pruned + 1) (← deleteRecord s key)
        else
          pruneEntries maxHeight rest pruned s

/-- Removes the decided ballots that were created up to a height, and gives their number. -/
def pruneBallots [WritableStore σ] (s : σ) (maxHeight : UInt64) :
    Except RegistryError (Nat × σ) := do
  let entries ← (ReadableStore.scan s KeyRange.ballotsByHeight.bytes).mapError fun fault =>
    RegistryError.store (.store fault)
  pruneEntries maxHeight (entries.map Prod.fst) 0 s

end Registry

end Settlement
