import Settlement.Ballot
import Settlement.Nonce
import Settlement.Store.Basic

/-!
# Errors of the registry

Why a vote is not counted, or a change of the observers, chains, keys and nonces is refused.
-/

namespace Settlement

/-- The name of a vote in messages. -/
def Vote.name : Vote → String
  | .yes => "Yes"
  | .no => "No"
  | .absent => "NotYetVoted"

/-- Why the registry refuses a request. -/
inductive RegistryError where
  /-- The voter is no member of the observer set. -/
  | notAuthorized (voter : ObserverId)
  /-- The voter has a vote on the ballot. -/
  | duplicateVote (voter : ObserverId) (ballot : Digest)
  /-- The vote is none. -/
  | absentVote
  /-- The chain is not registered, or not served. -/
  | unsupportedChain (chainId : ChainId)
  | chainExists (chainId : ChainId)
  /-- The threshold is not between 1 and 100 percent. -/
  | invalidThreshold (percent : UInt8)
  | observerExists (id : ObserverId)
  | observerNotFound (id : ObserverId)
  /-- There is no current signing key, or none with the given public key. -/
  | keyNotFound
  | keyExists (pubkey : String)
  /-- A nonce is released that was never reserved. -/
  | nonceNotIssued (signingKey : String) (chainId : ChainId) (nonce next : UInt64)
  /-- Ballots would be pruned in the block in which they are finalized. -/
  | retentionTooShort
  /-- A chain is registered with the parameters of another one. -/
  | paramsOfOtherChain (params chain : ChainId)
  | store (error : StoreError)
  deriving DecidableEq

/-- The wording of an error. -/
def RegistryError.message : RegistryError → String
  | .notAuthorized voter => "Observer " ++ voter.account ++ " is not authorized to vote"
  | .duplicateVote voter ballot =>
    "Observer " ++ voter.account ++ " already voted on ballot " ++ ballot.toHex
  | .absentVote => "Vote type " ++ Vote.absent.name ++ " cannot be cast"
  | .unsupportedChain chainId => "Chain " ++ chainId.text ++ " is not supported"
  | .chainExists chainId => "Chain " ++ chainId.text ++ " already registered"
  | .invalidThreshold percent => "Invalid ballot threshold " ++ toString percent.toNat ++ "%"
  | .observerExists id => "Observer " ++ id.account ++ " already in the observer set"
  | .observerNotFound id => "Observer " ++ id.account ++ " not found in the observer set"
  | .keyNotFound => "Signing key not found"
  | .keyExists pubkey => "Signing key " ++ pubkey ++ " already registered"
  | .nonceNotIssued signingKey chainId nonce next =>
    "Nonce " ++ toString nonce.toNat ++ " was never issued for key " ++ signingKey ++ " on chain "
      ++ chainId.text ++ " (next " ++ toString next.toNat ++ ")"
  | .retentionTooShort =>
    "Invalid configuration: ballot_retention_blocks must be 0 (disabled) or at least 2"
  | .paramsOfOtherChain params chain =>
    "Invalid configuration: params for chain " ++ params.text ++ " given for chain " ++ chain.text
  | .store error => error.message

/-- An error of the store is an error of the registry. -/
instance : MonadLift (Except StoreError) (Except RegistryError) where
  monadLift := Except.mapError .store

end Settlement
