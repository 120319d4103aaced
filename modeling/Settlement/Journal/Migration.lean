import Settlement.Cctx.Config
import Settlement.Journal.Progress

/-!
# Fund migrations

When there is a newer signing key than the current one, the funds of a chain can be moved to
it. The migration is an outbound transaction of its own kind, signed with the current key, and
needs that nothing else of this key is pending on the chain. A mark on the chain keeps a second
migration from starting before the first one has ended.
-/

namespace Settlement

namespace Journal

variable {σ : Type}

/-- What is hashed for the index of a migration. -/
def migrationPreimage (chainId : ChainId) (amount : U256) (current newer : SigningKey)
    (height : UInt64) : Preimage where
  domain := "xc/migration"
  fields := [.chain chainId, .amount amount, .text current.pubkey, .text newer.pubkey,
    .word height]

/-- The transaction that moves an amount from the current key to a newer one. -/
def migrationCctx (config : SettlementConfig) (chain : Chain) (chainId : ChainId) (amount : U256)
    (current newer : SigningKey) (index : Digest) (block : Block) : Cctx where
  index := index
  creator := ""
  relayedMessage := ""
  inbound := {
    sender := current.address .host
    senderChain := config.hostChain
    txOrigin := current.address .host
    asset := ""
    amount := amount
    coinType := .cmd
    observedHash := ""
    observedHeight := 0
    eventIndex := 0
    finalizedHeight := block.height
    ballotIndex := index }
  outbound := .fresh (newer.address chain.network) chainId amount config.migrationGasLimit
    current.pubkey
  revert := none
  report := ⟨.initial, "", block.timestamp, block.timestamp⟩
  protocolVersion := .v2
  revertOptions := .initial

/-- Moves an amount on a chain from the current signing key to the newer one, and gives the
index of the transaction. -/
def migrateFunds [WritableStore σ] (config : SettlementConfig) (s : σ) (block : Block)
    (chainId : ChainId) (amount : U256) : Except SettlementError (Digest × σ × Effects) := do
  unless (← Registry.switches s).outboundEnabled do
    throw .outboundDisabled
  let chain ← externalChain s chainId
  if amount = .zero then
    throw (.invalidMessage .zeroAmount)
  if (← Registry.fundMigration? s chainId).isSome then
    throw (.migrationInProgress chainId)
  let current ← Registry.currentKey s
  let some newer ← Registry.newerKey? s | throw .noNewerKey
  let pending ← Registry.pendingNonces s current.pubkey chainId
  if pending.size ≠ 0 then
    throw (.pendingOutbounds chainId pending.size)
  let index := (migrationPreimage chainId amount current newer block.height).digest
  if ← hasCctx s index then
    throw (.cctxExists index)
  let c := migrationCctx config chain chainId amount current newer index block
  let p ← (Progress.mk s c .none).assignNonce
  let p ← p.advance .pendingOutbound "fund migration to new signing key" block
  let p ← p.save
  let s ← Registry.setFundMigration p.store ⟨chainId, index, block.height⟩
  return (index, s, p.effects.emit (.migrationStarted index chainId amount))

end Journal

end Settlement
