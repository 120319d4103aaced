import Settlement.Proofs.Faults
import Settlement.Proofs.Recorder

/-!
# What comes after a deposit

Everything that may refuse a vote on an inbound transaction is asked before the deposit is made,
but for the store: what comes after the deposit reads and writes once more. On a store that works
none of that fails.

Main statement: a vote that fails on a store that works has not asked the gateway
(`Settlement.Journal.gateway_of_error`).
-/

namespace Settlement

/-- The store answers every read and takes every write. -/
structure Backend.Works (b : Backend) : Prop where
  accepts : b.rejectsWrites = false
  readable : b.unreadable = none

variable {γ : Type} [Gateway γ] {b : Backend} {config : SettlementConfig} {block : Block}

/-- A transition over a store that works has nothing to fail with when it reads and writes. -/
theorem Backend.Works.faultsWith (hb : b.Works) : FaultsWith (fun _ => False) (Recorder b) where
  get r key := by
    rw [r.get_eq hb.readable]
    exact .ok _
  write r writes := .ok _

/-- A step that fails only as the store does succeeds on a store that works. -/
theorem FailsWith.exists_of_isFault {α : Type} {x : Except SettlementError α}
    (h : FailsWith (SettlementError.IsFault fun _ => False) x) : ∃ a, x = .ok a :=
  h.exists_ok fun _ => SettlementError.not_isFault

namespace Journal

/-- **After the checks of a vote nothing fails any more** on a store that works. -/
theorem exists_voteInbound {l : Ledger} {r : Recorder b} {policy : StalePolicy} {m : InboundVote}
    {g : γ} {start : Intake (Recorder b)} (hb : b.Works) (h : Records r l) (hl : l.Legible)
    (hballots : BallotsFiled l.ballots) (hintake : intake policy config r block m = .ok start) :
    ∃ result, (voteInbound policy config g r block m).1 = .ok result := by
  rw [voteInbound, hintake]
  cases start with
  | counted receipt r' effects => exact ⟨_, rfl⟩
  | opened receipt p => exact (faults_opened hb.faultsWith h hl hballots hintake).exists_of_isFault

/-- **A vote that fails on a store that works has not asked the gateway**: it has failed one of the
checks before. -/
theorem gateway_of_error {l : Ledger} {r : Recorder b} {policy : StalePolicy} {m : InboundVote}
    {g : γ} {e : SettlementError} (hb : b.Works) (h : Records r l) (hl : l.Legible)
    (hballots : BallotsFiled l.ballots)
    (hvote : (voteInbound policy config g r block m).1 = .error e) :
    (voteInbound policy config g r block m).2 = g := by
  cases hintake : intake policy config r block m with
  | error e => rw [voteInbound, hintake]
  | ok start =>
    obtain ⟨result, hok⟩ : ∃ result, (voteInbound policy config g r block m).1 = .ok result :=
      exists_voteInbound hb h hl hballots hintake
    rw [hok] at hvote
    cases hvote

end Journal

end Settlement
