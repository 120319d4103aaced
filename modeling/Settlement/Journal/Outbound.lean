import Settlement.Cctx.Fees
import Settlement.Journal.Inbound

/-!
# Votes on outbound transactions

Observers vote on the outcome of the attempt in flight. The deciding vote settles the attempt:
a success ends the transaction, and a failure starts the revert, or aborts the transaction if
it was the revert that failed or if the transaction cannot be reverted. The nonce of the settled
attempt is released and its tracker removed; a nonce for a fresh revert stays pending.
-/

namespace Settlement

namespace Journal

variable {σ : Type}

/-! ### Which attempt is voted on -/

/-- Whether the attempt in flight is to be voted on. -/
def awaitsVote (c : Cctx) : Bool :=
  c.status.awaitsOutbound && !c.current.isExecuted

/-- Rejects a vote that is not on the attempt in flight. -/
def checkAttempt (c : Cctx) (m : OutboundVote) : Except SettlementError Unit :=
  if !awaitsVote c then .error (.nonceMismatch none m.nonce)
  else if c.current.nonce ≠ some m.nonce then .error (.nonceMismatch c.current.nonce m.nonce)
  else if c.current.chainId ≠ m.chainId then .error (.chainMismatch c.current.chainId m.chainId)
  else .ok ()

/-! ### Settling the attempt -/

/-- Ends the transaction after a success. What the attempt did not use of its gas is owed to
the stability pool. -/
def settleSuccess (config : SettlementConfig) (p : Progress σ) (block : Block) :
    Except SettlementError (Progress σ) :=
  let c := p.cctx.executeCurrent
  let funding := (c.current.unusedFee? config.poolPercent).map fun amount =>
    ⟨c.index, c.current.chainId, amount⟩
  let p : Progress σ := { p with cctx := c, effects := { p.effects with funding := funding } }
  if c.isReverting then p.advance .reverted "revert outbound mined" block
  else p.advance .outboundMined "outbound mined" block

/-- Starts the revert after a failure, or gives up. -/
def settleFailure [WritableStore σ] (config : SettlementConfig) (p : Progress σ) (block : Block) :
    Except SettlementError (Progress σ) :=
  match p.cctx.status with
  | .pendingOutbound =>
    if !p.cctx.inbound.coinType.isRevertible then
      p.abort ("outbound failed, " ++ p.cctx.inbound.coinType.name ++ " cctx cannot revert") block
    else
      match p.cctx.addRevert config.revertGasLimit with
      | .error e => p.abort ("outbound failed; " ++ e.message) block
      | .ok c => do
        let p ← { p with cctx := c }.assignNonce
        p.advance .pendingRevert "outbound failed, revert pending" block
  | .pendingRevert => p.abort "outbound failed, revert failed" block
  | status => .error (.invalidTransition status .pendingRevert)

/-- Settles the attempt as its ballot was decided. -/
def settle [WritableStore σ] (config : SettlementConfig) (p : Progress σ) (ballot : Ballot)
    (block : Block) : Except SettlementError (Progress σ) :=
  match ballot.status with
  | .success => settleSuccess config p block
  | .failure => settleFailure config p block
  | .pending => .error (.pendingBallotDecided ballot.index)

/-! ### Cleaning up -/

/-- Releases the nonce of a settled attempt, and removes its tracker. -/
def releaseAttempt [WritableStore σ] (s : σ) (a : Attempt) : Except SettlementError σ :=
  match a.nonce with
  | none => .ok s
  | some nonce => do
    let s ← Registry.releaseNonce s a.signingKey a.chainId nonce
    removeOutboundTracker s a.signingKey a.chainId nonce

/-- Removes the mark of a fund migration whose transaction has ended. -/
def clearMigration [WritableStore σ] (s : σ) (c : Cctx) : Except SettlementError σ := do
  if !c.status.isTerminal then
    return s
  match ← Registry.fundMigration? s c.outbound.chainId with
  | none => return s
  | some migration =>
    if migration.cctxIndex = c.index then
      Registry.removeFundMigration s c.outbound.chainId
    else return s

/-! ### The whole vote -/

/-- Votes on the outcome of an outbound transaction. -/
def voteOutbound [WritableStore σ] (policy : StalePolicy) (config : SettlementConfig) (s : σ)
    (block : Block) (m : OutboundVote) : Except SettlementError (VoteReceipt × σ × Effects) := do
  m.validate
  let some c ← cctx? s m.cctxIndex | throw (.cctxNotFound m.cctxIndex)
  checkAttempt c m
  let index := m.digest
  let (outcome, s) ← Registry.castVote policy s
    ⟨index, .outbound, m.chainId, m.creator, m.vote⟩ block.height
  let effects : Effects := ⟨ballotEvents outcome.isNew index .outbound m.chainId, none⟩
  let receipt : VoteReceipt :=
    ⟨index, outcome.isNew, outcome.finalized, some c.index, some c.status⟩
  if !outcome.finalized then
    return (receipt, s, effects)
  let attempt := c.current
  let c ← (c.updateCurrent fun a => { a with ballotIndex := some index }).observe m
    outcome.ballot.status
  let p ← settle config ⟨s, c, effects⟩ outcome.ballot block
  let s ← releaseAttempt p.store attempt
  let s ← clearMigration s p.cctx
  finish receipt { p with store := s }

end Journal

end Settlement
