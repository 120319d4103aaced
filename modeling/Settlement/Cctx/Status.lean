import Settlement.Layout

/-!
# States of a cross-chain transaction

A cross-chain transaction starts pending, has at most one outbound transaction and one that
reverts it, and ends mined, reverted or aborted. The states form a graph without cycles
(`Settlement.CctxStatus.canBecome`): nothing leaves a final state, and every other state can
become aborted.
-/

namespace Settlement

/-! ### What is transferred -/

/-- The kind of asset that an inbound transaction carries. -/
inductive CoinType where
  /-- The gas token of the sender chain. -/
  | gas
  | erc20
  /-- A message without value. -/
  | noAssetCall
  /-- A transfer between signing keys, which is never reverted. -/
  | cmd
  deriving DecidableEq

namespace CoinType

/-- The kinds, in the order in which records number them. -/
def all : List CoinType :=
  [.gas, .erc20, .noAssetCall, .cmd]

/-- The number of a kind. -/
def number : CoinType → UInt64
  | .gas => 0
  | .erc20 => 1
  | .noAssetCall => 2
  | .cmd => 3

/-- The name of a kind in messages. -/
def name : CoinType → String
  | .gas => "Gas"
  | .erc20 => "Erc20"
  | .noAssetCall => "NoAssetCall"
  | .cmd => "Cmd"

/-- Whether what failed to go out goes back to the sender. -/
def isRevertible (c : CoinType) : Bool :=
  c != .cmd

/-- Whether observers may report an inbound transaction of this kind. -/
def isObservable (c : CoinType) : Bool :=
  c != .cmd

end CoinType

/-- The version of the gateway protocol that an inbound transaction follows. -/
inductive ProtocolVersion where
  /-- The message may name another receiver in its first twenty bytes. -/
  | v1
  /-- The receiver is named, the message is call data, and a revert can be steered. -/
  | v2
  deriving DecidableEq

namespace ProtocolVersion

/-- The versions, in the order in which records number them. -/
def all : List ProtocolVersion :=
  [.v1, .v2]

/-- The version that is taken if none is given. -/
def initial : ProtocolVersion :=
  .v1

/-- The number of a version, counted from zero. -/
def number : ProtocolVersion → UInt64
  | .v1 => 0
  | .v2 => 1

end ProtocolVersion

/-- How a revert is to be done. -/
structure RevertOptions where
  /-- Who receives the reverted funds instead of the sender. -/
  revertAddress : Option String
  /-- Whether the receiver of the revert is called. -/
  callOnRevert : Bool
  /-- What it is called with. -/
  revertMessage : Bytes
  deriving DecidableEq

/-- No wish how a revert is to be done. -/
def RevertOptions.initial : RevertOptions :=
  ⟨none, false, []⟩

/-! ### States -/

/-- The state of a cross-chain transaction. -/
inductive CctxStatus where
  /-- Created, and nothing done yet. -/
  | pendingInbound
  /-- The outbound transaction is to be signed and observed. -/
  | pendingOutbound
  /-- The outbound transaction succeeded. -/
  | outboundMined
  /-- The transaction that reverts it is to be signed and observed. -/
  | pendingRevert
  /-- The transaction that reverts it succeeded. -/
  | reverted
  /-- It failed for good. -/
  | aborted
  deriving DecidableEq

namespace CctxStatus

/-- The states, in the order in which records number them. -/
def all : List CctxStatus :=
  [.pendingInbound, .pendingOutbound, .outboundMined, .pendingRevert, .reverted, .aborted]

/-- The state of a new transaction. -/
def initial : CctxStatus :=
  .pendingInbound

/-- The name of a state in messages. -/
def name : CctxStatus → String
  | .pendingInbound => "PendingInbound"
  | .pendingOutbound => "PendingOutbound"
  | .outboundMined => "OutboundMined"
  | .pendingRevert => "PendingRevert"
  | .reverted => "Reverted"
  | .aborted => "Aborted"

/-- Whether a state may follow another one. -/
def canBecome : CctxStatus → CctxStatus → Bool
  | .pendingInbound, next =>
    next == .pendingOutbound || next == .outboundMined || next == .pendingRevert
      || next == .aborted
  | .pendingOutbound, next => next == .outboundMined || next == .pendingRevert || next == .aborted
  | .pendingRevert, next => next == .reverted || next == .aborted
  | .outboundMined, _ => false
  | .reverted, _ => false
  | .aborted, _ => false

/-- Whether a state is final. -/
def isTerminal (s : CctxStatus) : Bool :=
  s == .outboundMined || s == .reverted || s == .aborted

/-- Whether an outbound transaction is to be signed and observed. -/
def awaitsOutbound (s : CctxStatus) : Bool :=
  s == .pendingOutbound || s == .pendingRevert

end CctxStatus

/-- Whether the outcome of an outbound attempt is known. -/
inductive AttemptState where
  | unsettled
  | executed
  deriving DecidableEq

/-- The states of an attempt, in the order in which records number them. -/
def AttemptState.all : List AttemptState :=
  [.unsettled, .executed]

/-- The outcome of an outbound transaction as an observer reports it. -/
inductive OutboundOutcome where
  | success
  | failed
  deriving DecidableEq

/-- The outcomes, in the order in which records number them. -/
def OutboundOutcome.all : List OutboundOutcome :=
  [.success, .failed]

/-! ### Layouts -/

instance : Layout CoinType :=
  .ofAlternatives CoinType.all

instance : Layout ProtocolVersion :=
  .ofAlternatives ProtocolVersion.all

instance : Layout CctxStatus :=
  .ofAlternatives CctxStatus.all

instance : Layout AttemptState :=
  .ofAlternatives AttemptState.all

instance : Layout OutboundOutcome :=
  .ofAlternatives OutboundOutcome.all

instance : Fields RevertOptions (Option String × Bool × Bytes) where
  split o := (o.revertAddress, o.callOnRevert, o.revertMessage)
  join := fun (revertAddress, callOnRevert, revertMessage) => ⟨revertAddress, callOnRevert,
    revertMessage⟩

instance : Layout RevertOptions :=
  .ofFields

end Settlement
