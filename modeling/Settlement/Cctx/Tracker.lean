import Settlement.CaseFold
import Settlement.Cctx.Status

/-!
# Trackers and finalized inbound transactions

Trackers are hints from observers and signers: the hashes under which an outbound transaction
was broadcast, and inbound transactions that are not voted on yet. They move no funds. The mark
of a finalized inbound transaction says that an external event has been dealt with.
-/

namespace Settlement

/-- A reported hash. -/
structure HashReport where
  txHash : String
  /-- The observer that reported it. -/
  reporter : String
  deriving DecidableEq

/-- The hashes under which the outbound transaction with a nonce was broadcast. -/
structure OutboundTracker where
  signingKey : String
  chainId : ChainId
  nonce : UInt64
  /-- The hashes, the first report first. -/
  hashes : List HashReport
  deriving DecidableEq

namespace OutboundTracker

/-- A tracker without hashes. -/
def fresh (signingKey : String) (chainId : ChainId) (nonce : UInt64) : OutboundTracker :=
  ⟨signingKey, chainId, nonce, []⟩

/-- Whether a hash is reported, up to case. -/
def contains (t : OutboundTracker) (txHash : String) : Bool :=
  t.hashes.any fun h => sameUpToCase h.txHash txHash

/-- The tracker with a hash at the end. -/
def add (t : OutboundTracker) (report : HashReport) : OutboundTracker :=
  { t with hashes := t.hashes ++ [report] }

end OutboundTracker

/-- An inbound transaction that is not voted on yet. -/
structure InboundTracker where
  chainId : ChainId
  txHash : String
  coinType : CoinType
  /-- The observer that reported it. -/
  reporter : String
  deriving DecidableEq

/-- The mark of an external event that has been dealt with. -/
structure FinalizedInbound where
  chainId : ChainId
  inboundHash : String
  eventIndex : UInt64
  /-- The host height at which it was dealt with. -/
  finalizedHeight : UInt64
  deriving DecidableEq

/-! ### Layouts -/

instance : Fields HashReport (String × String) where
  split h := (h.txHash, h.reporter)
  join := fun (txHash, reporter) => ⟨txHash, reporter⟩

instance : Layout HashReport :=
  .ofFields

instance : Fields OutboundTracker (String × ChainId × UInt64 × List HashReport) where
  split t := (t.signingKey, t.chainId, t.nonce, t.hashes)
  join := fun (signingKey, chainId, nonce, hashes) => ⟨signingKey, chainId, nonce, hashes⟩

instance : Layout OutboundTracker :=
  .ofFields

instance : Fields InboundTracker (ChainId × String × CoinType × String) where
  split t := (t.chainId, t.txHash, t.coinType, t.reporter)
  join := fun (chainId, txHash, coinType, reporter) => ⟨chainId, txHash, coinType, reporter⟩

instance : Layout InboundTracker :=
  .ofFields

instance : Fields FinalizedInbound (ChainId × String × UInt64 × UInt64) where
  split f := (f.chainId, f.inboundHash, f.eventIndex, f.finalizedHeight)
  join := fun (chainId, inboundHash, eventIndex, finalizedHeight) => ⟨chainId, inboundHash,
    eventIndex, finalizedHeight⟩

instance : Layout FinalizedInbound :=
  .ofFields

end Settlement
