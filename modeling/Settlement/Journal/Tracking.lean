import Settlement.Cctx.Config
import Settlement.Journal.Progress

/-!
# Tracking

Observers and signers report the hashes of transactions that are not voted on yet. A report
about an outbound transaction need not name the signing key: the nonce then belongs to the key
that was generated last among those with an unsettled attempt at that nonce.

The work list of a signer are the transactions whose attempt in flight it has to sign, in the
order of their nonces.
-/

namespace Settlement

namespace Journal

variable {σ : Type}

/-! ### Outbound transactions -/

/-- Whether a nonce of a signing key on a chain belongs to an attempt that is not settled. -/
def ownsUnsettled [ReadableStore σ] (s : σ) (signingKey : String) (chainId : ChainId)
    (nonce : UInt64) : Except SettlementError Bool := do
  let some owner ← Registry.nonceOwner? s signingKey chainId nonce | return false
  let some c ← cctx? s owner.cctxIndex | return false
  return c.attempts.any fun a =>
    a.signingKey = signingKey ∧ a.chainId = chainId ∧ a.nonce = some nonce ∧
      a.state = .unsettled

/-- The first of some signing keys to which a nonce belongs whose attempt is not settled. -/
def findOwner [ReadableStore σ] (s : σ) (chainId : ChainId) (nonce : UInt64) :
    List String → Except SettlementError (Option String)
  | [] => .ok none
  | signingKey :: rest => do
    if ← ownsUnsettled s signingKey chainId nonce then
      return some signingKey
    findOwner s chainId nonce rest

/-- The signing keys that a report may be about: the one it names, or all of them, the latest
first. -/
def candidateKeys [ReadableStore σ] (s : σ) (named : Option String) :
    Except SettlementError (List String) :=
  match named with
  | some signingKey => .ok [signingKey]
  | none => do return (← Registry.keyHistory s).reverse.map SigningKey.pubkey

/-- Enters a hash under which an outbound transaction was broadcast. A hash that is known
already changes nothing. -/
def addOutboundTracker [WritableStore σ] (config : SettlementConfig) (s : σ)
    (m : OutboundHashReport) : Except SettlementError σ := do
  if m.txHash = "" then
    throw (.invalidMessage .noTxHash)
  let _ ← supportedChain s m.chainId
  ensureObserver s m.creator
  let candidates ← candidateKeys s m.signingKey
  let some signingKey ← findOwner s m.chainId m.nonce candidates
    | throw (.noPendingOutbound m.chainId m.nonce)
  let stored ← outboundTracker? s signingKey m.chainId m.nonce
  let tracker := stored.getD (.fresh signingKey m.chainId m.nonce)
  if tracker.contains m.txHash then
    return s
  if config.maxTrackerHashes.toNat ≤ tracker.hashes.length then
    throw (.trackerFull m.chainId m.nonce config.maxTrackerHashes)
  setOutboundTracker s (tracker.add ⟨m.txHash, m.creator.account⟩)

/-! ### Inbound transactions -/

/-- Enters an inbound transaction that is not voted on yet. -/
def addInboundTracker [WritableStore σ] (s : σ) (m : InboundHashReport) :
    Except SettlementError σ := do
  if m.txHash = "" then
    throw (.invalidMessage .noTxHash)
  let _ ← supportedChain s m.chainId
  ensureObserver s m.creator
  setInboundTracker s ⟨m.chainId, m.txHash, m.coinType, m.creator.account⟩

/-! ### The work list of a signer -/

/-- The transaction to which a nonce belongs, if the attempt in flight has this nonce on this
chain and is not settled. -/
def pendingCctx? [ReadableStore σ] (s : σ) (signingKey : String) (chainId : ChainId)
    (nonce : UInt64) : Except SettlementError (Option Cctx) := do
  let some owner ← Registry.nonceOwner? s signingKey chainId nonce | return none
  let some c ← cctx? s owner.cctxIndex | return none
  if c.current.nonce = some nonce ∧ c.current.chainId = chainId ∧ !c.current.isExecuted then
    return some c
  else return none

/-- The transactions that are found for some nonces. -/
def pendingCctxsOf [ReadableStore σ] (s : σ) (signingKey : String) (chainId : ChainId) :
    List UInt64 → Except SettlementError (List Cctx)
  | [] => .ok []
  | nonce :: rest => do
    let found ← pendingCctx? s signingKey chainId nonce
    let others ← pendingCctxsOf s signingKey chainId rest
    return found.toList ++ others

/-- The transactions that a signing key has to sign on a chain, in the order of their nonces. -/
def pendingCctxs [ReadableStore σ] (s : σ) (signingKey : String) (chainId : ChainId) :
    Except SettlementError (List Cctx) := do
  let nonces ← Registry.pendingNonces s signingKey chainId
  pendingCctxsOf s signingKey chainId nonces.toList

end Journal

end Settlement
