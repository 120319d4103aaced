import Settlement.Proofs.Lifecycle
import Settlement.Proofs.SettledOnce

/-!
# Settled history

A stored transaction is a record of what happened, and what has happened does not change: it is
never removed, it keeps where it comes from, its attempts keep what they pay and their nonces, an
attempt whose outcome is known keeps everything, and so does the whole transaction once it has
ended (`Settlement.Cctx.Endures`). A call changes the state at most to one that may follow
(`Settlement.Cctx.Evolves`).

The graph of states has no cycles. Every state is given a number that goes down along each of its
edges (`Settlement.CctxStatus.remaining`), and the number of changes in a run is bounded by
the number of the state in which it starts.

Main statement: `Settlement.Reachable.history_kept`.
-/

namespace Settlement

variable {γ : Type}

/-! ### Changes of state that may follow -/

namespace CctxStatus

variable {s t : CctxStatus}

/-- How many changes of state can follow at most. -/
def remaining : CctxStatus → Nat
  | .pendingInbound => 3
  | .pendingOutbound => 2
  | .pendingRevert => 1
  | .outboundMined | .reverted | .aborted => 0

theorem remaining_lt_of_canBecome (h : s.canBecome t = true) : t.remaining < s.remaining := by
  revert h
  cases s <;> cases t <;> decide

theorem remaining_le_two (h : s ≠ .pendingInbound) : s.remaining ≤ 2 := by
  revert h
  cases s <;> decide

theorem canBecome_eq_false_of_isTerminal (h : s.isTerminal = true) : s.canBecome t = false := by
  revert h
  cases s <;> cases t <;> decide

end CctxStatus

namespace Cctx

variable {c d e : Cctx}

/-- The second transaction is the first at any later time. -/
structure Endures (c d : Cctx) : Prop extends c.Retains d where
  eq_of_isTerminal : c.status.isTerminal = true → d = c

/-- The second transaction is the first after one more call. -/
structure Evolves (c d : Cctx) : Prop extends c.Endures d where
  canBecome : d.status ≠ c.status → c.status.canBecome d.status = true

theorem Endures.refl (c : Cctx) : c.Endures c :=
  ⟨.refl c, fun _ => rfl⟩

theorem Endures.trans (h : c.Endures d) (h' : d.Endures e) : c.Endures e := by
  refine ⟨h.toRetains.trans h'.toRetains, fun hterminal => ?_⟩
  obtain rfl : d = c := h.eq_of_isTerminal hterminal
  exact h'.eq_of_isTerminal hterminal

theorem Evolves.refl (c : Cctx) : c.Evolves c :=
  ⟨.refl c, fun hne => absurd rfl hne⟩

/-- Nothing moves on from a final state. -/
theorem MovesOn.evolves (h : c.MovesOn d) : c.Evolves d := by
  refine ⟨⟨h.toRetains, fun hterminal => ?_⟩, fun _ => h.canBecome⟩
  have hstays := CctxStatus.canBecome_eq_false_of_isTerminal (t := d.status) hterminal
  rw [h.canBecome] at hstays
  cases hstays

theorem Evolves.remaining_le (h : c.Evolves d) : d.status.remaining ≤ c.status.remaining := by
  by_cases hstatus : d.status = c.status
  · exact Nat.le_of_eq (congrArg CctxStatus.remaining hstatus)
  · exact Nat.le_of_lt (CctxStatus.remaining_lt_of_canBecome (h.canBecome hstatus))

end Cctx

/-! ### One call -/

/-- The state of a transaction in a world, if it is stored. -/
def World.statusOf (w : World γ) (x : Digest) : Option CctxStatus :=
  (w.accounts.cctx x).map Cctx.status

/-- Whether the call of a turn changes the state of a transaction. -/
def Service.changesStatus [Gateway γ] (service : Service) (x : Digest) (t : Turn γ) : Bool :=
  decide ((service.execute t.world t.call).world.statusOf x ≠ t.world.statusOf x)

section Runs

variable [Gateway γ] {service : Service} {w w' : World γ} {turns : List (Turn γ)} {x : Digest}
  {c : Cctx}

/-- **What a call makes of a stored transaction** is the transaction at a later time. -/
theorem World.Sound.evolves (h : w.Sound) {call : Call}
    (hstore : (service.execute w call).world.store.Addressable) (hc : w.accounts.cctx x = some c) :
    ∃ d, (service.execute w call).world.accounts.cctx x = some d ∧ c.Evolves d := by
  obtain ⟨-, hstep⟩ := h.execute hstore
  cases hby : Service.settledBy call (service.execute w call).answer with
  | none =>
    rw [hby] at hstep
    exact ⟨c, hstep.cctx_eq hc, .refl c⟩
  | some m =>
    obtain ⟨block, receipt, rfl, hanswer, hfinalized⟩ := Service.settledBy_eq_some_iff.1 hby
    obtain ⟨e, hrefused⟩ | ⟨_, c', outcome, ballots, hanswer', htaken, htells, -, hdecided⟩ :=
      Service.voteOutbound_cases service h.records h.legible h.ballotsFiled h.accounts.toFiled
        block m
    · rw [hrefused] at hanswer
      cases hanswer
    cases hanswer.symm.trans hanswer'
    obtain ⟨d, lane, hsettled, hbooks, -⟩ := hdecided (htells.finalized_eq.symm.trans hfinalized)
    obtain ⟨-, haccounts, -⟩ := hbooks.ledger hstore
    have hindex : d.index = m.cctxIndex :=
      hsettled.settles.index_eq.trans (h.accounts.index_eq _ _ htaken.cctx_eq)
    rw [World.accounts, haccounts, Accounts.Renews.renew_cctx, hindex]
    by_cases hx : x = m.cctxIndex
    · subst hx
      obtain rfl : c' = c := Option.some.inj (htaken.cctx_eq.symm.trans hc)
      exact ⟨d, if_pos rfl, hsettled.movesOn.evolves⟩
    · exact ⟨c, (if_neg hx).trans hc, .refl c⟩

/-- A change of state uses up one of those that may follow. -/
theorem World.Sound.changesStatus_add_remaining_le (h : w.Sound) {call : Call}
    (hstore : (service.execute w call).world.store.Addressable) (hc : w.accounts.cctx x = some c) :
    ∃ d, (service.execute w call).world.accounts.cctx x = some d ∧ c.Endures d ∧
      (if service.changesStatus x ⟨w, call⟩ then 1 else 0) + d.status.remaining
        ≤ c.status.remaining := by
  obtain ⟨d, hd, hevolves⟩ := h.evolves hstore hc
  refine ⟨d, hd, hevolves.toEndures, ?_⟩
  split
  · next hchanges =>
    rw [Service.changesStatus, World.statusOf, World.statusOf, hd, hc] at hchanges
    have hne : d.status ≠ c.status := fun heq => of_decide_eq_true hchanges (congrArg some heq)
    have hlt := CctxStatus.remaining_lt_of_canBecome (hevolves.canBecome hne)
    omega
  · rw [Nat.zero_add]
    exact hevolves.remaining_le

/-! ### All calls -/

/-- **In a run, the changes of state use up those that may follow.** -/
theorem Run.countP_add_remaining_le (hrun : Run service w turns w') (h : w.Sound)
    (hc : w.accounts.cctx x = some c) : ∃ d, w'.accounts.cctx x = some d ∧ c.Endures d ∧
      turns.countP (service.changesStatus x) + d.status.remaining ≤ c.status.remaining := by
  induction hrun with
  | start => exact ⟨c, hc, .refl c, by simp⟩
  | @call turns v hrun call hstore ih =>
    obtain ⟨d, hd, hendures, hle⟩ := ih
    obtain ⟨e, he, hlater, hlast⟩ :=
      (hrun.sound h).changesStatus_add_remaining_le hstore hd
    refine ⟨e, he, hendures.trans hlater, ?_⟩
    rw [List.countP_append, List.countP_singleton]
    omega
  | outside _ hentries ih =>
    rw [World.accounts_eq_of_entries_eq hentries]
    exact ih

/-- **Settled history is kept.** In a world that is reached from an empty store, whatever call is
made, a stored transaction stays stored. It keeps its index, its creator, what is relayed, where it
comes from, the version of its protocol, how it is to be reverted and when it was created. Its
attempts keep receiver, chain, amount, gas limit, signing key and nonce, and those that are
executed keep everything, as the whole transaction does in a final state. If its state changes, it
changes to one that may follow. In any run from there all of this is kept as well, and the state
changes at most twice. -/
theorem Reachable.history_kept (h : Reachable service w) (hc : w.Stores x c) :
    (∀ call, (service.execute w call).world.store.Addressable →
      ∃ d, (service.execute w call).world.Stores x d ∧ c.Evolves d) ∧
    ∀ turns w', Run service w turns w' → turns.countP (service.changesStatus x) ≤ 2 ∧
      ∃ d, w'.Stores x d ∧ c.Endures d := by
  have hsound := h.sound
  have hstored := hsound.stores_iff.1 hc
  refine ⟨fun call hstore => ?_, fun turns w' hrun => ?_⟩
  · obtain ⟨d, hd, hevolves⟩ := hsound.evolves hstore hstored
    exact ⟨d, (hsound.execute hstore).1.stores_iff.2 hd, hevolves⟩
  · obtain ⟨d, hd, hendures, hle⟩ := hrun.countP_add_remaining_le hsound hstored
    have htwo := CctxStatus.remaining_le_two (h.lifecycle hc).1
    exact ⟨by omega, d, (hrun.sound hsound).stores_iff.2 hd, hendures⟩

end Runs

/-! ### A deposit that is sent back -/

namespace Sample

/-- The revert of the deposit is paid out. -/
def refund : OutboundVote :=
  { failure with hash := "0xEF", outcome := .success, nonce := 1 }

/-- The deposit fails, its revert is paid out, and another vote on it comes late. -/
def ending : List Call := [
  .voteOutbound ⟨2, 2⟩ failure,
  .voteOutbound ⟨3, 3⟩ refund,
  .voteOutbound ⟨4, 4⟩ refund]

/-- The state of the deposit changes twice on its way to the end, and its first attempt is kept. -/
theorem history_of_ending : ∃ d, (service.after world ending).Stores deposit.digest d ∧
    d.status = .reverted ∧ d.index = cctx.index ∧ d.inbound = cctx.inbound ∧
    d.outbound.nonce = cctx.outbound.nonce ∧
    (service.turnsOf world ending).countP (service.changesStatus deposit.digest) = 2 := by
  have hevaluated : (∀ t ∈ service.turnsOf world ending,
        (service.execute t.world t.call).world.store.Addressable) ∧
      (service.after world ending).statusOf deposit.digest = some .reverted ∧
      2 ≤ (service.turnsOf world ending).countP (service.changesStatus deposit.digest) := by
    decide +kernel
  obtain ⟨hstores, hstatus, hcount⟩ := hevaluated
  have hrun := Run.start.calls ending hstores
  obtain ⟨hle, d, hd, hendures⟩ := (Reachable.history_kept reachable stores).2 _ _ hrun
  have hfound := (hrun.sound reachable.sound).stores_iff.1 hd
  rw [World.statusOf, hfound] at hstatus
  exact ⟨d, hd, Option.some.inj hstatus, hendures.index_eq, hendures.inbound_eq,
    hendures.outbound.nonce_eq, Nat.le_antisymm hle hcount⟩

end Sample

end Settlement
