import Settlement.Journal.Outbound

/-!
# The stages of a transaction

The state of a cross-chain transaction says how far its attempts are: which of the two slots are
filled, which outcomes are known, and whether a nonce is there (`Settlement.Cctx.IsAt`). Whatever
the state is, the first attempt carries the value that came in, and the second one, once it is
there, brings the value back (`Settlement.Cctx.Balanced`). A transaction is well formed if both
hold and the reason for its state is given (`Settlement.Cctx.Formed`).

This says more than the check that is made before a transaction is stored, which looks at parts
of it only; so that a well-formed transaction always passes (`Settlement.Cctx.Formed.validate`).
-/

namespace Settlement

@[simp]
theorem Attempt.isExecuted_execute (a : Attempt) : a.execute.isExecuted = true :=
  rfl

/-- What an attempt pays, to whom and where, and who signs it. -/
structure Payment where
  receiver : String
  chainId : ChainId
  amount : U256
  signingKey : String
  deriving DecidableEq

/-- The payment that is attempted. -/
def Attempt.payment (a : Attempt) : Payment :=
  ⟨a.receiver, a.chainId, a.amount, a.signingKey⟩

namespace Cctx

/-! ### Attempts and their value -/

/-- The payment of a revert: what was to go out goes back to the sender chain. -/
def payback (c : Cctx) : Payment :=
  ⟨c.revertReceiver, c.inbound.senderChain, c.outbound.amount, c.outbound.signingKey⟩

/-- The first attempt carries the value that came in. A second one brings it back, and is there
only if the first one is executed. -/
structure Balanced (c : Cctx) : Prop where
  amount_eq : c.outbound.amount = c.inbound.amount
  payment_eq : ∀ r, c.revert = some r → r.payment = c.payback
  isExecuted : ∀ r, c.revert = some r → c.outbound.isExecuted = true

namespace Balanced

variable {c : Cctx}

/-- A single attempt is balanced as soon as it carries the value. -/
theorem of_revert_eq_none (hrevert : c.revert = none) (h : c.outbound.amount = c.inbound.amount) :
    c.Balanced :=
  ⟨h, by simp [hrevert], by simp [hrevert]⟩

/-- What is entered into the attempt in flight leaves a transaction balanced, if it is not about
the payment. -/
theorem updateCurrent (h : c.Balanced) {f : Attempt → Attempt}
    (hf : ∀ a, (f a).payment = a.payment) : (c.updateCurrent f).Balanced := by
  cases hrevert : c.revert with
  | none =>
    rw [Cctx.updateCurrent, hrevert]
    exact of_revert_eq_none rfl ((congrArg Payment.amount (hf c.outbound)).trans h.amount_eq)
  | some r =>
    rw [Cctx.updateCurrent, hrevert]
    refine ⟨h.amount_eq, fun r' hr' => ?_, fun _ _ => h.isExecuted r hrevert⟩
    cases hr'
    exact (hf r).trans (h.payment_eq r hrevert)

/-- Every attempt is executed once the one in flight is. -/
theorem isExecuted_executeCurrent (h : c.Balanced) :
    ∀ a ∈ c.executeCurrent.attempts, a.isExecuted = true := by
  cases hrevert : c.revert with
  | none => simp [executeCurrent, Cctx.updateCurrent, attempts, hrevert]
  | some r =>
    have hfirst := h.isExecuted r hrevert
    simp [executeCurrent, Cctx.updateCurrent, attempts, hrevert, hfirst]

end Balanced

/-! ### Stages -/

/-- The attempts are as they have to be in a state. A transaction that has just been created is
in no stage yet: its first transition brings it into one. -/
def IsAt (c : Cctx) : CctxStatus → Prop
  | .pendingInbound => False
  | .pendingOutbound => c.revert = none ∧ c.outbound.isExecuted = false ∧
    c.outbound.nonce.isSome = true
  | .pendingRevert => c.inbound.coinType ≠ .cmd ∧ c.outbound.isExecuted = true ∧
    ∃ r, c.revert = some r ∧ r.isExecuted = false ∧ r.nonce.isSome = true
  | .outboundMined => c.revert = none ∧ c.outbound.isExecuted = true
  | .reverted => c.outbound.isExecuted = true ∧ ∃ r, c.revert = some r ∧ r.isExecuted = true
  | .aborted => ∀ a ∈ c.attempts, a.isExecuted = true

/-- A transaction without a revert has ended once its attempt is executed. -/
theorem isAt_outboundMined {c : Cctx} (h : ¬c.executeCurrent.isReverting = true) :
    c.executeCurrent.IsAt .outboundMined := by
  cases hrevert : c.revert with
  | none => simp [IsAt, executeCurrent, updateCurrent, hrevert]
  | some r => simp [isReverting, executeCurrent, updateCurrent, hrevert] at h

/-- A transaction with a revert has ended once the revert is executed. -/
theorem Balanced.isAt_reverted {c : Cctx} (h : c.Balanced)
    (hreverting : c.executeCurrent.isReverting = true) : c.executeCurrent.IsAt .reverted := by
  cases hrevert : c.revert with
  | none => simp [isReverting, executeCurrent, Cctx.updateCurrent, hrevert] at hreverting
  | some r => simp [IsAt, executeCurrent, Cctx.updateCurrent, hrevert, h.isExecuted r hrevert]

/-- A transaction is well formed: its attempts are balanced and as its state says, and the reason
for the state is given. -/
structure Formed (c : Cctx) : Prop extends Balanced c where
  isAt : c.IsAt c.status
  message_ne : c.report.message ≠ ""

namespace Formed

variable {c : Cctx}

/-- **A well-formed transaction satisfies every invariant** that is checked before it is stored. -/
theorem satisfies (h : c.Formed) (i : Invariant) : c.satisfies i = true := by
  have hstage := h.isAt
  rw [IsAt.eq_def] at hstage
  cases i with
  | revertFollowsExecuted =>
    cases hrevert : c.revert with
    | none => simp [Cctx.satisfies, hrevert]
    | some r => simp [Cctx.satisfies, hrevert, h.isExecuted r hrevert]
  | revertTargetsSender =>
    cases hrevert : c.revert with
    | none => simp [Cctx.satisfies, hrevert]
    | some r =>
      have hchain : r.chainId = c.inbound.senderChain :=
        congrArg Payment.chainId (h.payment_eq r hrevert)
      simp [Cctx.satisfies, hrevert, hchain]
  | pendingHasNonce =>
    -- Only the two pending stages ask for a nonce, and both have one in flight.
    cases hstatus : c.status <;> cases hrevert : c.revert <;>
      simp_all [Cctx.satisfies, CctxStatus.awaitsOutbound, current]
  | successIsExecuted =>
    cases hstatus : c.status <;> cases hrevert : c.revert <;>
      simp_all [Cctx.satisfies, current]
  | terminalHasMessage => simp [Cctx.satisfies, h.message_ne]

/-- **A well-formed transaction passes the check** that is made before it is stored. -/
theorem validate (h : c.Formed) : c.validate = .ok () := by
  have hnone : (Invariant.all.find? fun i => !c.satisfies i) = none :=
    List.find?_eq_none.2 fun i _ => by simp [h.satisfies i]
  rw [Cctx.validate, hnone]

end Formed

end Cctx

end Settlement
