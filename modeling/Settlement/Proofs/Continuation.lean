import Mathlib.Data.List.Induction
import Settlement.Proofs.Acceptance
import Settlement.Proofs.Unanimity
import Settlement.Proofs.VoteOrder

/-!
# Calls on a store that works

When a store works, it works after every call as well, and the settings are what they were unless
the call is one of governance (`Settlement.World.Continues`). So whoever may vote may do so until
governance decides otherwise: a vote by an observer who has not voted is taken
(`Settlement.World.Continues.exists_castVote`), and it decides its ballot exactly if it completes a
quorum of votes that agree (`Settlement.World.Continues.voted`).

What each of several calls keeps is kept by all of them (`Settlement.Service.after_induction`).
-/

namespace Settlement

/-! ### Settings -/

theorem Key.IsSetting.isGoverned {k : Key} (h : k.IsSetting) : k.IsGoverned := by
  cases k <;> first | exact h | exact h.elim

/-- A store that works is read as it is. -/
theorem Backend.Works.restored_eq {b : Backend} (hb : b.Works) : b.restored = b := by
  obtain ⟨entries, rejectsWrites, unreadable⟩ := b
  obtain ⟨rfl, rfl⟩ := hb
  rfl

section Settings

variable {b b' : Backend} (hb : b.Works) (hb' : b'.Works)
  (h : ∀ k : Key, k.IsGoverned → contents b' k.bytes = contents b k.bytes)

include hb hb' h

namespace Registry

theorem switches_congr : switches b' = switches b := by
  rw [switches, switches, hb.getRecord_congr hb' (h .switches trivial)]

theorem currentKey_congr : currentKey b' = currentKey b := by
  rw [currentKey, currentKey, currentKey?, currentKey?,
    hb.getRecord_congr hb' (h .currentKey trivial)]

end Registry

/-- What the settings admit they admit as long as they stay. -/
theorem Journal.Admits.congr {config : SettlementConfig} {m : InboundVote}
    (hadmits : Admits config b m) : Admits config b' m := by
  have hexternal (id : ChainId) : externalChain b' id = externalChain b id := by
    rw [externalChain, externalChain, supportedChain, supportedChain,
      Registry.supportedChain_congr hb hb' fun k hk => h k hk.isGoverned]
  obtain ⟨henabled, hsender, hreceiver, hkey⟩ := hadmits
  refine ⟨?_, ?_, ?_, ?_⟩
  · rwa [Registry.switches_congr hb hb' h]
  · rwa [hexternal]
  · rwa [hexternal]
  · rwa [Registry.currentKey_congr hb hb' h]

end Settings

/-! ### One call after the other -/

section Calls

variable {γ α : Type} [Gateway γ] {service : Service} {w : World γ}

theorem Service.after_append (service : Service) (w : World γ) (calls calls' : List Call) :
    service.after w (calls ++ calls') = service.after (service.after w calls) calls' := by
  induction calls generalizing w with
  | nil => rfl
  | cons c calls ih => exact ih _

theorem Service.mem_turnsOf (service : Service) (w : World γ) (calls : List Call) (c : Call)
    (calls' : List Call) :
    ⟨service.after w calls, c⟩ ∈ service.turnsOf w (calls ++ c :: calls') := by
  induction calls generalizing w with
  | nil => exact List.mem_cons_self
  | cons d calls ih => exact List.mem_cons_of_mem _ (ih _)

section Sequence

variable {call : α → Call} {order earlier later : List α}
  (hstores : ∀ t ∈ service.turnsOf w (order.map call),
    (service.execute t.world t.call).world.store.Addressable)

include hstores

theorem Service.addressable_of_eq_append {x : α} (horder : order = earlier ++ x :: later) :
    (service.execute (service.after w (earlier.map call)) (call x)).world.store.Addressable := by
  have hturn := service.mem_turnsOf w (earlier.map call) (call x) (later.map call)
  rw [← List.map_cons, ← List.map_append, ← horder] at hturn
  exact hstores _ hturn

/-- **What holds at first and is kept by each of some calls holds after the first ones of them**,
however many these are. -/
theorem Service.after_induction {P : List α → World γ → Prop} (hstart : P [] w)
    (hstep : ∀ earlier x later w', order = earlier ++ x :: later → P earlier w' →
      (service.execute w' (call x)).world.store.Addressable →
      P (earlier ++ [x]) (service.execute w' (call x)).world)
    (horder : order = earlier ++ later) : P earlier (service.after w (earlier.map call)) := by
  induction earlier using List.reverseRecOn generalizing later with
  | nil => exact hstart
  | append_singleton earlier x ih =>
    rw [List.append_assoc, List.singleton_append] at horder
    rw [List.map_append, after_append]
    exact hstep earlier x later _ horder (ih horder) (addressable_of_eq_append hstores horder)

end Sequence

end Calls

/-! ### Worlds with the same settings -/

variable {γ : Type} [Gateway γ]

/-- The first world was reached, its store works, and calls that are none of governance have led to
the second one. -/
structure World.Continues (service : Service) (w w' : World γ) : Prop where
  reachable : Reachable service w'
  works : w.store.Works
  works_after : w'.store.Works
  contents_eq : ∀ k : Key, k.IsGoverned → contents w'.store k.bytes = contents w.store k.bytes

namespace World.Continues

variable {service : Service} {w w' : World γ}

theorem refl (h : Reachable service w) (hworks : w.store.Works) : w.Continues service w :=
  ⟨h, hworks, hworks, fun _ _ => rfl⟩

theorem execute {call : Call} (h : w.Continues service w') (hcall : call.isGovernance = false)
    (hstore : (service.execute w' call).world.store.Addressable) :
    w.Continues service (service.execute w' call).world := by
  refine ⟨?_, h.works, ?_, fun k hk => ?_⟩
  · obtain ⟨w₀, turns, hempty, hrun⟩ := h.reachable
    exact ⟨w₀, _, hempty, hrun.call call hstore⟩
  · obtain ⟨e, hreply, -⟩ | ⟨answer, r, effects, -, hreply⟩ := service.execute_cases w' call
    · rw [hreply]
      exact h.works_after
    · rw [hreply]
      exact ⟨h.works_after.accepts, h.works_after.readable⟩
  · have hkeeps := service.keeps_governed w' hcall
    exact (hkeeps.contents_eq h.reachable.sound.records hk).trans (h.contents_eq k hk)

theorem admits {m : InboundVote} (h : w.Continues service w')
    (hadmits : Journal.Admits service.settlement w.store m) :
    Journal.Admits service.settlement w'.store m :=
  hadmits.congr h.works h.works_after h.contents_eq

/-! ### Votes -/

section Votes

variable {observers : ObserverSet} {percent : UInt8} {request : Registry.VoteRequest}
  {voters : List ObserverId}

theorem observerSet_eq (h : w.Continues service w')
    (hobservers : Registry.observerSet w.store = .ok observers) :
    Registry.observerSet w'.store = .ok observers := by
  rw [Registry.observerSet_congr h.works h.works_after fun k hk => h.contents_eq k hk.isGoverned]
  exact hobservers

theorem observers_eq (h : w.Continues service w')
    (hobservers : Registry.observerSet w.store = .ok observers) : w'.observers = observers := by
  have heq := h.reachable.sound.observerSet_eq
  rw [h.works_after.restored_eq, h.observerSet_eq hobservers] at heq
  exact (Except.ok.inj heq).symm

theorem servedAt (h : w.Continues service w') {id : ChainId}
    (hserved : Registry.ServedAt w.store percent id) :
    Registry.ServedAt w'.store percent id := by
  rw [Registry.ServedAt, Registry.supportedChain_congr h.works h.works_after
    fun k hk => h.contents_eq k hk.isGoverned]
  exact hserved

variable (request) (h : w.Continues service w')
  (hobservers : Registry.observerSet w.store = .ok observers)
  (hserved : Registry.ServedAt w.store percent request.chainId)
  (hballot : Ballot.Gathering request.vote voters (w'.ballots request.ballot))
  (hmember : request.voter ∈ observers.members) (policy : StalePolicy) (height : UInt64)

include h hobservers hserved hballot hmember

/-- **A vote that agrees with those before it decides the ballot if they are a quorum with it.** -/
theorem voted {policy : StalePolicy} {height : UInt64} {outcome : Registry.VoteOutcome}
    {ballots : Digest → Option Ballot}
    (hvoted : Registry.Voted policy w'.store.ledger request height outcome ballots) :
    outcome.finalized = decide (observers.quorum percent ≤ voters.length + 1) ∧
      (outcome.finalized = true → outcome.ballot.status = request.vote.verdict) ∧
      (outcome.finalized = false → Ballot.Gathering request.vote (voters ++ [request.voter])
        (ballots request.ballot)) := by
  have hsound := h.reachable.sound
  have heq : w'.store.ledger.observers = observers := h.observers_eq hobservers
  obtain ⟨chain, params, hchain, rfl⟩ := h.servedAt hserved
  have hparams := Registry.eq_of_supportedChain hsound.records hsound.legible hchain
  have hle := h.reachable.constituted.quorum_le_size hparams
    (heq ▸ List.length_pos_of_mem hmember)
  rw [heq] at hle
  exact hballot.voted hvoted ⟨params, hparams, heq ▸ rfl⟩ (heq ▸ hle)

/-- **A vote by an observer who has not voted is taken**, if the votes before it agree with it. -/
theorem exists_castVote (hnew : request.voter ∉ voters) (hvote : request.vote ≠ .absent) :
    ∃ outcome r, Registry.castVote policy (Recorder.start w'.store) request height
        = .ok (outcome, r) ∧
      outcome.finalized = decide (observers.quorum percent ≤ voters.length + 1) ∧
      (outcome.finalized = true → outcome.ballot.status = request.vote.verdict) := by
  have hsound := h.reachable.sound
  have hrecords : Records (Recorder.start w'.store) w'.store.ledger := hsound.records
  obtain ⟨chain, params, hchain, -⟩ := h.servedAt hserved
  have hstored := hsound.ballot?_eq request.ballot
  rw [h.works_after.restored_eq] at hstored
  obtain ⟨⟨outcome, r⟩, hcast⟩ : ∃ result,
      Registry.castVote policy (Recorder.start w'.store) request height = .ok result :=
    Registry.castVote_taken (h.observerSet_eq hobservers) (List.contains_iff_mem.2 hmember) hchain
      hstored ((hballot.getD rfl rfl).not_voted hnew) hvote
  obtain ⟨ballots, hvoted, -⟩ :=
    Registry.voted_of_castVote hrecords hsound.legible hsound.ballotsFiled hcast
  obtain ⟨hfinalized, hstatus, -⟩ := h.voted request hobservers hserved hballot hmember hvoted
  exact ⟨outcome, r, hcast, hfinalized, hstatus⟩

end Votes

end World.Continues

end Settlement
