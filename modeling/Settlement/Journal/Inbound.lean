import Settlement.Cctx.Config
import Settlement.Gateway
import Settlement.Journal.Progress
import Settlement.Registry.Ballots

/-!
# Votes on inbound transactions

Observers vote on deposits that they see on external chains. The deciding vote marks the
external event, creates the cross-chain transaction and has the deposit made on the host chain.
A deposit that fails sends the funds back to the sender, or aborts the transaction, as the kind
of failure says.

The gateway to the host chain is asked once, and only after everything that the store may refuse
beforehand has been checked: `Settlement.Journal.intake` comes before the deposit and
`Settlement.Journal.settleDeposit` after it.
-/

namespace Settlement

/-- What a vote on an inbound or outbound transaction did. -/
structure VoteReceipt where
  ballotIndex : Digest
  /-- Whether the vote created the ballot. -/
  isNewBallot : Bool
  /-- Whether the vote decided the ballot. -/
  finalized : Bool
  /-- The cross-chain transaction that the vote is about, if there is one. -/
  cctxIndex : Option Digest
  /-- The state of the transaction after the vote. -/
  cctxStatus : Option CctxStatus
  deriving DecidableEq

namespace Journal

variable {σ γ : Type}

/-! ### Before the deposit -/

/-- What a vote has come to before any deposit is made. -/
inductive Intake (σ : Type) where
  /-- The vote is counted, and creates no transaction. -/
  | counted (receipt : VoteReceipt) (store : σ) (effects : Effects)
  /-- The vote creates a transaction. -/
  | opened (receipt : VoteReceipt) (progress : Progress σ)

/-- The event of a first vote. -/
def ballotEvents (isNew : Bool) (ballot : Digest) (observation : Observation)
    (chainId : ChainId) : List Event :=
  if isNew then [.ballotCreated ballot observation chainId] else []

/-- Checks a vote on an inbound transaction, casts it, and opens a transaction if it is the
deciding one. -/
def intake [WritableStore σ] (policy : StalePolicy) (config : SettlementConfig) (s : σ)
    (block : Block) (m : InboundVote) : Except SettlementError (Intake σ) := do
  m.validate
  unless (← Registry.switches s).inboundEnabled do
    throw .inboundDisabled
  let _ ← externalChain s m.senderChain
  if m.receiverChain ≠ config.hostChain then
    let _ ← externalChain s m.receiverChain
  let signingKey ← Registry.currentKey s
  if ← isFinalized s m.senderChain m.inboundHash m.eventIndex then
    throw (.inboundFinalized m.senderChain m.inboundHash)
  let index := m.digest
  let (outcome, s) ← Registry.castVote policy s
    ⟨index, .inbound, m.senderChain, m.creator, .yes⟩ block.height
  let effects : Effects := ⟨ballotEvents outcome.isNew index .inbound m.senderChain, none⟩
  let receipt : VoteReceipt := ⟨index, outcome.isNew, outcome.finalized, none, none⟩
  if !outcome.finalized then
    return .counted receipt s effects
  let s ← setFinalized s ⟨m.senderChain, m.inboundHash, m.eventIndex, block.height⟩
  let s ← removeInboundTracker s m.senderChain m.inboundHash
  if outcome.ballot.status = .failure then
    return .counted receipt s effects
  if ← hasCctx s index then
    throw (.cctxExists index)
  let c := Cctx.ofInbound m index signingKey.pubkey block
  return .opened receipt
    ⟨s, c, effects.emit (.inboundFinalized index m.senderChain m.inboundHash)⟩

/-! ### The deposit -/

/-- Whether a transaction is paid out on the host chain. -/
def staysOnHost (config : SettlementConfig) (c : Cctx) : Bool :=
  c.outbound.chainId = config.hostChain

/-- Where the deposit goes: on the host chain as the message says, and otherwise to the
receiver. -/
def depositTarget (config : SettlementConfig) (c : Cctx) : Except Destination.Fault Destination :=
  if staysOnHost config c then c.destination else .ok ⟨c.outbound.receiver, []⟩

/-- The deposit of a transaction. -/
def depositRequest (c : Cctx) (d : Destination) : DepositRequest where
  cctxIndex := c.index
  sender := c.inbound.sender
  senderChain := c.inbound.senderChain
  receiver := d.receiver
  amount := c.inbound.amount
  coinType := c.inbound.coinType
  asset := c.inbound.asset
  payload := d.payload
  protocolVersion := c.protocolVersion

/-- The transaction after a deposit that ended on the host chain. -/
def paidOnHost (c : Cctx) (d : Destination) (receipt : DepositReceipt) (block : Block) : Cctx :=
  { c with outbound := { c.outbound with
      receiver := d.receiver
      hash := receipt.txHash
      observedHeight := block.height
      state := .executed } }

/-- Sends the funds back to the sender after a failure, or gives up if they cannot be. -/
def startRevert [WritableStore σ] (config : SettlementConfig) (p : Progress σ)
    (message : String) (block : Block) : Except SettlementError (Progress σ) :=
  match p.cctx.addRevert config.revertGasLimit with
  | .error e => p.abort (message ++ "; " ++ e.message) block
  | .ok c => do
    let p ← { p with cctx := c }.assignNonce
    p.advance .pendingRevert message block

/-- What the answer of the gateway makes of the transaction. -/
def settleDeposit [WritableStore σ] (config : SettlementConfig) (p : Progress σ)
    (d : Destination) (answer : DepositAnswer) (block : Block) :
    Except SettlementError (Progress σ) :=
  match answer with
  | .ok receipt =>
    if staysOnHost config p.cctx then
      { p with cctx := paidOnHost p.cctx d receipt block }.advance .outboundMined
        "deposit executed on host chain" block
    else do
      let p ← p.assignNonce
      p.advance .pendingOutbound "awaiting outbound" block
  | .error e =>
    if e.kind.shouldRevert then startRevert config p e.message block
    else p.abort e.message block

/-- Has the deposit made, and gives the gateway after it. A transaction without a destination
is given up without asking the gateway. -/
def deposit [WritableStore σ] [Gateway γ] (config : SettlementConfig) (g : γ) (p : Progress σ)
    (block : Block) : Except SettlementError (Progress σ) × γ :=
  match depositTarget config p.cctx with
  | .error fault => (p.abort fault.toDepositError.message block, g)
  | .ok d =>
    let (answer, g) := Gateway.deposit g (depositRequest p.cctx d)
    (settleDeposit config p d answer block, g)

/-! ### The whole vote -/

/-- Stores the transaction and completes the receipt. -/
def finish [WritableStore σ] (receipt : VoteReceipt) (p : Progress σ) :
    Except SettlementError (VoteReceipt × σ × Effects) := do
  let p ← p.save
  return ({ receipt with cctxIndex := some p.cctx.index, cctxStatus := some p.cctx.status },
    p.store, p.effects)

/-- Votes on an inbound transaction, and gives the gateway after that. -/
def voteInbound [WritableStore σ] [Gateway γ] (policy : StalePolicy) (config : SettlementConfig)
    (g : γ) (s : σ) (block : Block) (m : InboundVote) :
    Except SettlementError (VoteReceipt × σ × Effects) × γ :=
  match intake policy config s block m with
  | .error e => (.error e, g)
  | .ok (.counted receipt s effects) => (.ok (receipt, s, effects), g)
  | .ok (.opened receipt p) =>
    let (settled, g) := deposit config g p block
    (settled.bind (finish receipt), g)

end Journal

end Settlement
