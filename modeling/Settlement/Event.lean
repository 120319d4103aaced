import Settlement.Ballot
import Settlement.Cctx.Status

/-!
# Events

What signers and indexers are told once a transition is committed.
-/

namespace Settlement

/-- An event. -/
inductive Event where
  /-- A first vote created a ballot. -/
  | ballotCreated (ballot : Digest) (observation : Observation) (chainId : ChainId)
  /-- A decided deposit created a cross-chain transaction. -/
  | inboundFinalized (cctx : Digest) (senderChain : ChainId) (inboundHash : String)
  | statusChanged (cctx : Digest) (before after : CctxStatus) (message : String)
  /-- A nonce was reserved, and the transaction is to be signed. -/
  | nonceReserved (cctx : Digest) (signingKey : String) (chainId : ChainId) (nonce : UInt64)
  | migrationStarted (cctx : Digest) (chainId : ChainId) (amount : U256)
  /-- The stability pool was credited. -/
  | poolFunded (cctx : Digest) (chainId : ChainId) (amount : U256)
  /-- The stability pool could not be credited. -/
  | poolFundingFailed (cctx : Digest) (chainId : ChainId) (reason : String)
  deriving DecidableEq

namespace Event

/-- The number of alternatives. -/
def alternatives : Nat := 7

/-- The bytes of an event: the number of the alternative and the fields. -/
def write : Event → Bytes
  | .ballotCreated ballot observation chainId =>
    Bytes.little 4 0 ++ Layout.write (ballot, observation, chainId)
  | .inboundFinalized cctx senderChain inboundHash =>
    Bytes.little 4 1 ++ Layout.write (cctx, senderChain, inboundHash)
  | .statusChanged cctx before after message =>
    Bytes.little 4 2 ++ Layout.write (cctx, before, after, message)
  | .nonceReserved cctx signingKey chainId nonce =>
    Bytes.little 4 3 ++ Layout.write (cctx, signingKey, chainId, nonce)
  | .migrationStarted cctx chainId amount =>
    Bytes.little 4 4 ++ Layout.write (cctx, chainId, amount)
  | .poolFunded cctx chainId amount =>
    Bytes.little 4 5 ++ Layout.write (cctx, chainId, amount)
  | .poolFundingFailed cctx chainId reason =>
    Bytes.little 4 6 ++ Layout.write (cctx, chainId, reason)

/-- Takes the fields of the alternative with a number. -/
def readFields : Nat → Reader Event
  | 0 => (Layout.read : Reader (Digest × Observation × ChainId)).map
      fun (ballot, observation, chainId) => .ballotCreated ballot observation chainId
  | 1 => (Layout.read : Reader (Digest × ChainId × String)).map
      fun (cctx, senderChain, inboundHash) => .inboundFinalized cctx senderChain inboundHash
  | 2 => (Layout.read : Reader (Digest × CctxStatus × CctxStatus × String)).map
      fun (cctx, before, after, message) => .statusChanged cctx before after message
  | 3 => (Layout.read : Reader (Digest × String × ChainId × UInt64)).map
      fun (cctx, signingKey, chainId, nonce) => .nonceReserved cctx signingKey chainId nonce
  | 4 => (Layout.read : Reader (Digest × ChainId × U256)).map
      fun (cctx, chainId, amount) => .migrationStarted cctx chainId amount
  | 5 => (Layout.read : Reader (Digest × ChainId × U256)).map
      fun (cctx, chainId, amount) => .poolFunded cctx chainId amount
  | 6 => (Layout.read : Reader (Digest × ChainId × String)).map
      fun (cctx, chainId, reason) => .poolFundingFailed cctx chainId reason
  | n => fun _ => .error (.badAlternative n alternatives)

end Event

instance : Layout Event where
  write := Event.write
  read := (Reader.number 4).andThen Event.readFields

end Settlement
