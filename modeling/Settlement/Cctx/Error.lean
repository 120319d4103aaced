import Settlement.Cctx.Status
import Settlement.Registry.Error

/-!
# Errors of the settlement

Why a message about cross-chain transactions is rejected. A rejected message changes nothing.
-/

namespace Settlement

/-- What is wrong with a message by itself. -/
inductive MessageFault where
  | noCreator
  | noSender
  | noInboundHash
  /-- Transfers between signing keys are not observed. -/
  | notObservable (coinType : CoinType)
  /-- A token is transferred, and which one is not said. -/
  | noAsset
  | noReceiver
  /-- Only the second version of the protocol has options for the revert. -/
  | revertOptions
  | noOutboundHash
  | noTxHash
  /-- A migration of nothing. -/
  | zeroAmount
  deriving DecidableEq

/-- The wording of a fault. -/
def MessageFault.message : MessageFault → String
  | .noCreator => "creator is empty"
  | .noSender => "sender is empty"
  | .noInboundHash => "inbound hash is empty"
  | .notObservable coinType => "coin type " ++ coinType.name ++ " cannot be observed inbound"
  | .noAsset => "erc20 inbound without asset"
  | .noReceiver => "v2 inbound without receiver"
  | .revertOptions => "revert options require protocol v2"
  | .noOutboundHash => "observed outbound hash is empty"
  | .noTxHash => "tx hash is empty"
  | .zeroAmount => "migration amount must be positive"

/-- What is wrong with a configuration. -/
inductive ConfigFault where
  | percentTooHigh (percent : UInt8)
  | noTrackerCapacity
  | zeroGasLimit
  deriving DecidableEq

/-- The wording of a fault. -/
def ConfigFault.message : ConfigFault → String
  | .percentTooHigh percent => "stability_pool_percent " ++ toString percent.toNat ++ " exceeds 100"
  | .noTrackerCapacity => "max_outbound_tracker_hashes must be positive"
  | .zeroGasLimit => "gas limits must be positive"

/-- What every stored cross-chain transaction satisfies. -/
inductive Invariant where
  /-- There is a revert only after the first attempt is executed. -/
  | revertFollowsExecuted
  /-- The revert goes to the sender chain. -/
  | revertTargetsSender
  /-- What is to be signed has a nonce. -/
  | pendingHasNonce
  /-- What succeeded is executed. -/
  | successIsExecuted
  /-- What is final says why. -/
  | terminalHasMessage
  deriving DecidableEq

/-- The invariants, in the order in which they are checked. -/
def Invariant.all : List Invariant :=
  [.revertFollowsExecuted, .revertTargetsSender, .pendingHasNonce, .successIsExecuted,
    .terminalHasMessage]

/-- What it is called if an invariant does not hold. -/
def Invariant.violation : Invariant → String
  | .revertFollowsExecuted => "revert before original executed"
  | .revertTargetsSender => "revert not aimed at sender chain"
  | .pendingHasNonce => "pending outbound without nonce"
  | .successIsExecuted => "success state with unexecuted outbound"
  | .terminalHasMessage => "terminal state without status message"

/-- Why the settlement refuses a message. -/
inductive SettlementError where
  | invalidMessage (fault : MessageFault)
  /-- The chain is unknown, not served, or the host where an external chain is needed. -/
  | unsupportedChain (chainId : ChainId)
  | inboundDisabled
  | outboundDisabled
  /-- The external event has been dealt with. -/
  | inboundFinalized (chainId : ChainId) (inboundHash : String)
  | cctxExists (index : Digest)
  | cctxNotFound (index : Digest)
  /-- The vote is not for the nonce that is awaited, if one is. -/
  | nonceMismatch (expected : Option UInt64) (got : UInt64)
  | chainMismatch (expected got : ChainId)
  /-- What was received is not what was sent. -/
  | valueMismatch (expected received : U256)
  | invalidTransition (before after : CctxStatus)
  /-- A revert is not reverted. -/
  | cannotRevert
  | migrationInProgress (chainId : ChainId)
  /-- The current signing key has nonces pending on the chain. -/
  | pendingOutbounds (chainId : ChainId) (count : Nat)
  | noNewerKey
  | trackerFull (chainId : ChainId) (nonce max : UInt64)
  | notAnObserver (id : ObserverId)
  /-- No attempt with the nonce is unsettled. -/
  | noPendingOutbound (chainId : ChainId) (nonce : UInt64)
  /-- A transaction would be stored that does not satisfy an invariant. -/
  | invariantViolated (index : Digest) (invariant : Invariant)
  /-- A vote is reported to have decided a ballot that is pending. -/
  | pendingBallotDecided (ballot : Digest)
  | invalidConfig (fault : ConfigFault)
  | registry (error : RegistryError)
  | store (error : StoreError)
  deriving DecidableEq

/-- The nonce that is awaited, if one is. -/
def SettlementError.expectedNonce : Option UInt64 → String
  | none => "None"
  | some nonce => "Some(" ++ toString nonce.toNat ++ ")"

/-- The wording of an error. -/
def SettlementError.message : SettlementError → String
  | .invalidMessage fault => "Invalid message: " ++ fault.message
  | .unsupportedChain chainId => "Unsupported chain: " ++ chainId.text
  | .inboundDisabled => "Inbound processing is disabled"
  | .outboundDisabled => "Outbound processing is disabled"
  | .inboundFinalized chainId inboundHash =>
    "Inbound " ++ inboundHash ++ " on chain " ++ chainId.text ++ " already finalized"
  | .cctxExists index => "CCTX already exists: " ++ index.toHex
  | .cctxNotFound index => "CCTX not found: " ++ index.toHex
  | .nonceMismatch expected got =>
    "Nonce mismatch: expected " ++ expectedNonce expected ++ ", got " ++ toString got.toNat
  | .chainMismatch expected got =>
    "Chain mismatch: expected " ++ expected.text ++ ", got " ++ got.text
  | .valueMismatch expected received =>
    "Value received " ++ received.toDecimal ++ " does not match sent value " ++ expected.toDecimal
  | .invalidTransition before after =>
    "Invalid CCTX transition: " ++ before.name ++ " -> " ++ after.name
  | .cannotRevert => "Cannot revert: cannot revert a revert tx"
  | .migrationInProgress chainId =>
    "Fund migration already in progress for chain " ++ chainId.text
  | .pendingOutbounds chainId count =>
    toString count ++ " pending nonces for the current signing key on chain " ++ chainId.text
  | .noNewerKey => "No new signing key to migrate funds to"
  | .trackerFull chainId nonce max =>
    "Outbound tracker for chain " ++ chainId.text ++ " nonce " ++ toString nonce.toNat
      ++ " is full (" ++ toString max.toNat ++ " hashes)"
  | .notAnObserver id => id.account ++ " is not an observer"
  | .noPendingOutbound chainId nonce =>
    "No pending outbound for chain " ++ chainId.text ++ " nonce " ++ toString nonce.toNat
  | .invariantViolated index invariant =>
    "Invariant violated: cctx " ++ index.toHex ++ ": " ++ invariant.violation
  | .pendingBallotDecided ballot =>
    "Invariant violated: ballot " ++ ballot.toHex ++ " reported finalized while pending"
  | .invalidConfig fault => "Invalid configuration: " ++ fault.message
  | .registry error => error.message
  | .store error => error.message

/-- An error of the registry is an error of the settlement. -/
instance : MonadLift (Except RegistryError) (Except SettlementError) where
  monadLift := Except.mapError .registry

/-- An error of the store is an error of the settlement. -/
instance : MonadLift (Except StoreError) (Except SettlementError) where
  monadLift := Except.mapError .store

end Settlement
