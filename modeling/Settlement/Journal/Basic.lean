import Settlement.Cctx.Basic
import Settlement.Cctx.Tracker
import Settlement.Key

/-!
# The journal of cross-chain transactions

Cross-chain transactions, the marks of finalized inbound transactions and the trackers, as they
are stored. A mark is found up to the case of the transaction hash, and so is an inbound
tracker.
-/

namespace Settlement

namespace Journal

variable {σ : Type}

/-! ### Transactions -/

/-- The transaction with an index. -/
def cctx? [ReadableStore σ] (s : σ) (index : Digest) : Except SettlementError (Option Cctx) :=
  do return ← getRecord s (Key.cctx index).bytes

/-- Stores a transaction. -/
def setCctx [WritableStore σ] (s : σ) (c : Cctx) : Except SettlementError σ :=
  do return ← putRecord s (Key.cctx c.index).bytes c

/-- Whether something is stored for an index. -/
def hasCctx [ReadableStore σ] (s : σ) (index : Digest) : Except SettlementError Bool :=
  do return ← containsKey s (Key.cctx index).bytes

/-- The transactions, in the order of their indices. -/
def cctxs [ReadableStore σ] (s : σ) : Except SettlementError (List Cctx) :=
  do return ← scanRecords s KeyRange.cctxs.bytes

/-! ### Finalized inbound transactions -/

/-- Whether an external event has been dealt with. -/
def isFinalized [ReadableStore σ] (s : σ) (chainId : ChainId) (inboundHash : String)
    (eventIndex : UInt64) : Except SettlementError Bool :=
  do return ← containsKey s (Key.finalizedInbound chainId inboundHash eventIndex).bytes

/-- Marks an external event. -/
def setFinalized [WritableStore σ] (s : σ) (f : FinalizedInbound) : Except SettlementError σ :=
  do return ← putRecord s (Key.finalizedInbound f.chainId f.inboundHash f.eventIndex).bytes f

/-! ### Trackers -/

/-- The tracker of the outbound transaction with a nonce. -/
def outboundTracker? [ReadableStore σ] (s : σ) (signingKey : String) (chainId : ChainId)
    (nonce : UInt64) : Except SettlementError (Option OutboundTracker) :=
  do return ← getRecord s (Key.outboundTracker signingKey chainId nonce).bytes

/-- Stores an outbound tracker. -/
def setOutboundTracker [WritableStore σ] (s : σ) (t : OutboundTracker) :
    Except SettlementError σ :=
  do return ← putRecord s (Key.outboundTracker t.signingKey t.chainId t.nonce).bytes t

/-- Removes an outbound tracker. -/
def removeOutboundTracker [WritableStore σ] (s : σ) (signingKey : String) (chainId : ChainId)
    (nonce : UInt64) : Except SettlementError σ :=
  do return ← deleteRecord s (Key.outboundTracker signingKey chainId nonce).bytes

/-- The outbound trackers of a signing key on a chain, in the order of their nonces. -/
def outboundTrackers [ReadableStore σ] (s : σ) (signingKey : String) (chainId : ChainId) :
    Except SettlementError (List OutboundTracker) :=
  do return ← scanRecords s (KeyRange.outboundTrackers signingKey chainId).bytes

/-- Stores an inbound tracker. -/
def setInboundTracker [WritableStore σ] (s : σ) (t : InboundTracker) :
    Except SettlementError σ :=
  do return ← putRecord s (Key.inboundTracker t.chainId t.txHash).bytes t

/-- Removes an inbound tracker. -/
def removeInboundTracker [WritableStore σ] (s : σ) (chainId : ChainId) (txHash : String) :
    Except SettlementError σ :=
  do return ← deleteRecord s (Key.inboundTracker chainId txHash).bytes

/-- The inbound trackers of a chain, in the order of their hashes. -/
def inboundTrackers [ReadableStore σ] (s : σ) (chainId : ChainId) :
    Except SettlementError (List InboundTracker) :=
  do return ← scanRecords s (KeyRange.inboundTrackers chainId).bytes

end Journal

end Settlement
