import Settlement.Ballot
import Settlement.Cctx.Error
import Settlement.Preimage

/-!
# Messages of observers and signers

Observers report what they see on external chains, and signers what they have broadcast. Every
report that is voted on has a digest, which is the index of its ballot. The digest covers what
was observed and not who observed it, so that observers of the same event vote on the same
ballot. It also leaves out the outcome of an outbound transaction, which is the vote itself.
-/

namespace Settlement

/-! ### Reports of inbound transactions -/

/-- The report of a deposit on an external chain. -/
structure InboundVote where
  /-- The observer. -/
  creator : ObserverId
  sender : String
  senderChain : ChainId
  /-- The account that started the transaction; the sender if it is empty. -/
  txOrigin : String
  receiver : String
  receiverChain : ChainId
  amount : U256
  /-- What is relayed to the receiver, as hexadecimal text. -/
  message : String
  inboundHash : String
  /-- The height of the external block. -/
  inboundHeight : UInt64
  /-- The gas limit for the outbound transaction. -/
  gasLimit : UInt64
  coinType : CoinType
  /-- The asset on the sender chain; empty for gas. -/
  asset : String
  /-- The place of the event among those of the transaction. -/
  eventIndex : UInt64
  protocolVersion : ProtocolVersion
  revertOptions : RevertOptions
  deriving DecidableEq

namespace InboundVote

/-- What is hashed of a report. A revert address that is missing counts as an empty one. -/
def preimage (m : InboundVote) : Preimage where
  domain := "xc/vote-inbound"
  fields := [.text m.sender, .chain m.senderChain, .text m.txOrigin, .text m.receiver,
    .chain m.receiverChain, .amount m.amount, .text m.message, .text m.inboundHash,
    .word m.inboundHeight, .word m.gasLimit, .word m.coinType.number, .text m.asset,
    .word m.eventIndex, .word m.protocolVersion.number,
    .text (m.revertOptions.revertAddress.getD ""), .flag m.revertOptions.callOnRevert,
    .bytes m.revertOptions.revertMessage]

/-- The index of the ballot, and of the cross-chain transaction. -/
def digest (m : InboundVote) : Digest :=
  m.preimage.digest

/-- The first fault of a report by itself. -/
def fault? (m : InboundVote) : Option MessageFault :=
  if m.creator.account = "" then some .noCreator
  else if m.sender = "" then some .noSender
  else if m.inboundHash = "" then some .noInboundHash
  else if !m.coinType.isObservable then some (.notObservable m.coinType)
  else if m.coinType = .erc20 ∧ m.asset = "" then some .noAsset
  else if m.protocolVersion = .v2 ∧ m.receiver = "" then some .noReceiver
  else if m.protocolVersion = .v1 ∧ m.revertOptions ≠ .initial then some .revertOptions
  else none

/-- Rejects a report that is faulty by itself. -/
def validate (m : InboundVote) : Except SettlementError Unit :=
  match m.fault? with
  | some fault => .error (.invalidMessage fault)
  | none => .ok ()

end InboundVote

/-! ### Reports of outbound transactions -/

/-- The report of the outcome of an outbound transaction. -/
structure OutboundVote where
  /-- The observer. -/
  creator : ObserverId
  cctxIndex : Digest
  /-- The hash of the outbound transaction. -/
  hash : String
  /-- The height of the external block. -/
  height : UInt64
  gasUsed : UInt64
  gasPrice : U256
  /-- The gas limit of the mined transaction. -/
  effectiveGasLimit : UInt64
  valueReceived : U256
  outcome : OutboundOutcome
  chainId : ChainId
  nonce : UInt64
  coinType : CoinType
  deriving DecidableEq

namespace OutboundVote

/-- What is hashed of a report. -/
def preimage (m : OutboundVote) : Preimage where
  domain := "xc/vote-outbound"
  fields := [.bytes m.cctxIndex.bytes, .text m.hash, .word m.height, .word m.gasUsed,
    .amount m.gasPrice, .word m.effectiveGasLimit, .amount m.valueReceived, .chain m.chainId,
    .word m.nonce, .word m.coinType.number]

/-- The index of the ballot. -/
def digest (m : OutboundVote) : Digest :=
  m.preimage.digest

/-- The vote: whether the outbound transaction succeeded. -/
def vote (m : OutboundVote) : Vote :=
  match m.outcome with
  | .success => .yes
  | .failed => .no

/-- The first fault of a report by itself. -/
def fault? (m : OutboundVote) : Option MessageFault :=
  if m.creator.account = "" then some .noCreator
  else if m.hash = "" then some .noOutboundHash
  else none

/-- Rejects a report that is faulty by itself. -/
def validate (m : OutboundVote) : Except SettlementError Unit :=
  match m.fault? with
  | some fault => .error (.invalidMessage fault)
  | none => .ok ()

end OutboundVote

/-! ### Reports of transaction hashes -/

/-- The report of a hash under which an outbound transaction was broadcast. -/
structure OutboundHashReport where
  creator : ObserverId
  chainId : ChainId
  nonce : UInt64
  txHash : String
  /-- The key that signed; if it is not said, the newest one with the nonce unsettled. -/
  signingKey : Option String
  deriving DecidableEq

/-- The report of an inbound transaction that is not voted on yet. -/
structure InboundHashReport where
  creator : ObserverId
  chainId : ChainId
  txHash : String
  coinType : CoinType
  deriving DecidableEq

/-! ### Layouts -/

instance : Fields InboundVote (ObserverId × String × ChainId × String × String × ChainId × U256 ×
    String × String × UInt64 × UInt64 × CoinType × String × UInt64 × ProtocolVersion ×
    RevertOptions) where
  split m := (m.creator, m.sender, m.senderChain, m.txOrigin, m.receiver, m.receiverChain,
    m.amount, m.message, m.inboundHash, m.inboundHeight, m.gasLimit, m.coinType, m.asset,
    m.eventIndex, m.protocolVersion, m.revertOptions)
  join := fun (creator, sender, senderChain, txOrigin, receiver, receiverChain, amount, message,
    inboundHash, inboundHeight, gasLimit, coinType, asset, eventIndex, protocolVersion,
    revertOptions) => ⟨creator, sender, senderChain, txOrigin, receiver, receiverChain, amount,
    message, inboundHash, inboundHeight, gasLimit, coinType, asset, eventIndex, protocolVersion,
    revertOptions⟩

instance : Layout InboundVote :=
  .ofFields

instance : Fields OutboundVote (ObserverId × Digest × String × UInt64 × UInt64 × U256 × UInt64 ×
    U256 × OutboundOutcome × ChainId × UInt64 × CoinType) where
  split m := (m.creator, m.cctxIndex, m.hash, m.height, m.gasUsed, m.gasPrice,
    m.effectiveGasLimit, m.valueReceived, m.outcome, m.chainId, m.nonce, m.coinType)
  join := fun (creator, cctxIndex, hash, height, gasUsed, gasPrice, effectiveGasLimit,
    valueReceived, outcome, chainId, nonce, coinType) => ⟨creator, cctxIndex, hash, height,
    gasUsed, gasPrice, effectiveGasLimit, valueReceived, outcome, chainId, nonce, coinType⟩

instance : Layout OutboundVote :=
  .ofFields

instance : Fields OutboundHashReport (ObserverId × ChainId × UInt64 × String × Option String)
    where
  split m := (m.creator, m.chainId, m.nonce, m.txHash, m.signingKey)
  join := fun (creator, chainId, nonce, txHash, signingKey) => ⟨creator, chainId, nonce, txHash,
    signingKey⟩

instance : Layout OutboundHashReport :=
  .ofFields

instance : Fields InboundHashReport (ObserverId × ChainId × String × CoinType) where
  split m := (m.creator, m.chainId, m.txHash, m.coinType)
  join := fun (creator, chainId, txHash, coinType) => ⟨creator, chainId, txHash, coinType⟩

instance : Layout InboundHashReport :=
  .ofFields

end Settlement
