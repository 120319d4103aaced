import Settlement.Cctx.Message
import Settlement.Chain

/-!
# Cross-chain transactions

A cross-chain transaction (CCTX) records a deposit on one chain and the attempts to pay it out
on another. There are two slots for attempts, the first one and one that reverts it, so that
there are never more than two, and a revert is never reverted. The attempt in flight is the
revert if there is one (`Settlement.Cctx.current`).
-/

namespace Settlement

/-- Where the value of a cross-chain transaction comes from. -/
structure Inbound where
  sender : String
  senderChain : ChainId
  /-- The account that started the inbound transaction. -/
  txOrigin : String
  /-- The asset on the sender chain; empty for gas. -/
  asset : String
  amount : U256
  coinType : CoinType
  observedHash : String
  /-- The height of the external block. -/
  observedHeight : UInt64
  eventIndex : UInt64
  /-- The host height at which the ballot was decided. -/
  finalizedHeight : UInt64
  ballotIndex : Digest
  deriving DecidableEq

/-- An attempt to pay out on an external chain. -/
structure Attempt where
  receiver : String
  chainId : ChainId
  amount : U256
  gasLimit : UInt64
  /-- The nonce, once it is reserved. -/
  nonce : Option UInt64
  /-- The key that signs, and to which the nonce belongs. -/
  signingKey : String
  /-- The hash of the observed transaction. -/
  hash : String
  /-- The ballot on the outcome, once it is decided. -/
  ballotIndex : Option Digest
  gasUsed : UInt64
  gasPrice : U256
  /-- The gas limit of the mined transaction. -/
  effectiveGasLimit : UInt64
  /-- The height of the external block. -/
  observedHeight : UInt64
  state : AttemptState
  deriving DecidableEq

namespace Attempt

/-- An attempt of which nothing is known yet. -/
def fresh (receiver : String) (chainId : ChainId) (amount : U256) (gasLimit : UInt64)
    (signingKey : String) : Attempt :=
  ⟨receiver, chainId, amount, gasLimit, none, signingKey, "", none, 0, .zero, 0, 0, .unsettled⟩

/-- Whether the outcome is known. -/
def isExecuted (a : Attempt) : Bool :=
  a.state == .executed

/-- The attempt with its outcome known. -/
def execute (a : Attempt) : Attempt :=
  { a with state := .executed }

end Attempt

/-- The state of a cross-chain transaction with the reason for its last change. -/
structure StatusReport where
  status : CctxStatus
  message : String
  createdAt : UInt64
  updatedAt : UInt64
  deriving DecidableEq

/-- A cross-chain transaction. -/
structure Cctx where
  /-- The digest of what it came from. -/
  index : Digest
  /-- The observer whose vote created it. -/
  creator : String
  /-- What is relayed to the receiver, as hexadecimal text. -/
  relayedMessage : String
  inbound : Inbound
  /-- The first attempt. -/
  outbound : Attempt
  /-- The attempt that reverts it, if there is one. -/
  revert : Option Attempt
  report : StatusReport
  protocolVersion : ProtocolVersion
  revertOptions : RevertOptions
  deriving DecidableEq

namespace Cctx

/-! ### Views -/

/-- The state. -/
def status (c : Cctx) : CctxStatus :=
  c.report.status

/-- The attempt in flight: the revert if there is one. -/
def current (c : Cctx) : Attempt :=
  c.revert.getD c.outbound

/-- Whether the attempt in flight is the revert. -/
def isReverting (c : Cctx) : Bool :=
  c.revert.isSome

/-- The attempts, in their order. -/
def attempts (c : Cctx) : List Attempt :=
  c.outbound :: c.revert.toList

/-- Who receives the funds if they go back: the revert address that the second version of the
protocol allows to name, and otherwise the sender. -/
def revertReceiver (c : Cctx) : String :=
  match c.protocolVersion, c.revertOptions.revertAddress with
  | .v2, some address => if address = "" then c.inbound.sender else address
  | _, _ => c.inbound.sender

/-! ### Changes -/

/-- The transaction that a decided report of a deposit creates, paid out with a signing key. -/
def ofInbound (m : InboundVote) (index : Digest) (signingKey : String) (block : Block) : Cctx where
  index := index
  creator := m.creator.account
  relayedMessage := m.message
  inbound := {
    sender := m.sender
    senderChain := m.senderChain
    txOrigin := if m.txOrigin = "" then m.sender else m.txOrigin
    asset := m.asset
    amount := m.amount
    coinType := m.coinType
    observedHash := m.inboundHash
    observedHeight := m.inboundHeight
    eventIndex := m.eventIndex
    finalizedHeight := block.height
    ballotIndex := index }
  outbound := .fresh m.receiver m.receiverChain m.amount m.gasLimit signingKey
  revert := none
  report := ⟨.initial, "", block.timestamp, block.timestamp⟩
  protocolVersion := m.protocolVersion
  revertOptions := m.revertOptions

/-- The transaction with the attempt in flight changed. -/
def updateCurrent (f : Attempt → Attempt) (c : Cctx) : Cctx :=
  match c.revert with
  | some attempt => { c with revert := some (f attempt) }
  | none => { c with outbound := f c.outbound }

/-- The transaction with the outcome of the attempt in flight known. -/
def executeCurrent (c : Cctx) : Cctx :=
  c.updateCurrent .execute

/-- The transaction with a nonce for the attempt in flight, or without one. -/
def setNonce (c : Cctx) (nonce : Option UInt64) : Cctx :=
  c.updateCurrent fun a => { a with nonce := nonce }

/-- The transaction with an attempt that reverts the first one, which is executed with that.
The revert goes to the sender chain with the amount and the signing key of the first one. -/
def addRevert (c : Cctx) (gasLimit : UInt64) : Except SettlementError Cctx :=
  if c.isReverting then .error .cannotRevert
  else
    .ok { c with
      outbound := c.outbound.execute
      revert := some (.fresh c.revertReceiver c.inbound.senderChain c.outbound.amount gasLimit
        c.outbound.signingKey) }

/-- The attempt with what was observed of it. -/
def observed (m : OutboundVote) (a : Attempt) : Attempt :=
  { a with
    hash := m.hash
    gasUsed := m.gasUsed
    gasPrice := m.gasPrice
    effectiveGasLimit := m.effectiveGasLimit
    observedHeight := m.height }

/-- The transaction with what was observed of the attempt in flight. Unless the ballot failed,
the value that was received has to be the amount that was sent. -/
def observe (c : Cctx) (m : OutboundVote) (ballot : BallotStatus) :
    Except SettlementError Cctx :=
  if ballot ≠ .failure ∧ m.valueReceived ≠ c.current.amount then
    .error (.valueMismatch c.current.amount m.valueReceived)
  else .ok (c.updateCurrent (observed m))

/-- The transaction in another state, with the reason and the time. -/
def setStatus (c : Cctx) (next : CctxStatus) (message : String) (timestamp : UInt64) :
    Except SettlementError Cctx :=
  if c.status.canBecome next then
    .ok { c with report := { c.report with
      status := next, message := message, updatedAt := timestamp } }
  else .error (.invalidTransition c.status next)

/-! ### Invariants -/

/-- Whether an invariant holds. -/
def satisfies (c : Cctx) : Invariant → Bool
  | .revertFollowsExecuted => c.revert.isNone || c.outbound.isExecuted
  | .revertTargetsSender => c.revert.all fun a => a.chainId = c.inbound.senderChain
  | .pendingHasNonce => !c.status.awaitsOutbound || c.current.nonce.isSome
  | .successIsExecuted =>
    !(c.status == .outboundMined || c.status == .reverted) || c.current.isExecuted
  | .terminalHasMessage => !c.status.isTerminal || c.report.message != ""

/-- Rejects a transaction that does not satisfy an invariant, naming the first. -/
def validate (c : Cctx) : Except SettlementError Unit :=
  match Invariant.all.find? fun i => !c.satisfies i with
  | some i => .error (.invariantViolated c.index i)
  | none => .ok ()

end Cctx

/-! ### Layouts -/

instance : Fields Inbound (String × ChainId × String × String × U256 × CoinType × String × UInt64
    × UInt64 × UInt64 × Digest) where
  split i := (i.sender, i.senderChain, i.txOrigin, i.asset, i.amount, i.coinType, i.observedHash,
    i.observedHeight, i.eventIndex, i.finalizedHeight, i.ballotIndex)
  join := fun (sender, senderChain, txOrigin, asset, amount, coinType, observedHash,
    observedHeight, eventIndex, finalizedHeight, ballotIndex) => ⟨sender, senderChain, txOrigin,
    asset, amount, coinType, observedHash, observedHeight, eventIndex, finalizedHeight,
    ballotIndex⟩

instance : Layout Inbound :=
  .ofFields

instance : Fields Attempt (String × ChainId × U256 × UInt64 × Option UInt64 × String × String ×
    Option Digest × UInt64 × U256 × UInt64 × UInt64 × AttemptState) where
  split a := (a.receiver, a.chainId, a.amount, a.gasLimit, a.nonce, a.signingKey, a.hash,
    a.ballotIndex, a.gasUsed, a.gasPrice, a.effectiveGasLimit, a.observedHeight, a.state)
  join := fun (receiver, chainId, amount, gasLimit, nonce, signingKey, hash, ballotIndex,
    gasUsed, gasPrice, effectiveGasLimit, observedHeight, state) => ⟨receiver, chainId, amount,
    gasLimit, nonce, signingKey, hash, ballotIndex, gasUsed, gasPrice, effectiveGasLimit,
    observedHeight, state⟩

instance : Layout Attempt :=
  .ofFields

instance : Fields StatusReport (CctxStatus × String × UInt64 × UInt64) where
  split r := (r.status, r.message, r.createdAt, r.updatedAt)
  join := fun (status, message, createdAt, updatedAt) => ⟨status, message, createdAt, updatedAt⟩

instance : Layout StatusReport :=
  .ofFields

instance : Fields Cctx (Digest × String × String × Inbound × Attempt × Option Attempt ×
    StatusReport × ProtocolVersion × RevertOptions) where
  split c := (c.index, c.creator, c.relayedMessage, c.inbound, c.outbound, c.revert, c.report,
    c.protocolVersion, c.revertOptions)
  join := fun (index, creator, relayedMessage, inbound, outbound, revert, report,
    protocolVersion, revertOptions) => ⟨index, creator, relayedMessage, inbound, outbound,
    revert, report, protocolVersion, revertOptions⟩

instance : Layout Cctx :=
  .ofFields

end Settlement
