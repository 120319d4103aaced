import Settlement.Proofs.Atomicity
import Settlement.Proofs.Completion

/-!
# Deposits and refused calls

The gateway is asked inside a transition, before the commit, and what it did is not undone. So a
vote on an inbound transaction that the store refuses in the end may have made its deposit, and
since nothing of the vote is stored, the same vote can be cast again and makes the deposit again
(`Settlement.Sample.deposited_twice`). A gateway that keeps a log of its requests shows when this
happens (`Settlement.Service.asked`).

It takes a store that fails. On a store that works, everything after the deposit succeeds: nonces
can be reserved, the transaction passes the check, and the commit is taken. And a vote that was
accepted has marked its event, so that no later vote on the event asks the gateway.

Main statement: `Settlement.Run.deposits_once`.
-/

namespace Settlement

variable {σ γ : Type}

/-! ### A gateway with a log -/

/-- A gateway with the requests that were made to it and what it answered. -/
structure Audited (γ : Type) where
  gateway : γ
  log : List (DepositRequest × DepositAnswer)

instance [Gateway γ] : Gateway (Audited γ) where
  deposit g r :=
    let (answer, gateway) := Gateway.deposit g.gateway r
    (answer, ⟨gateway, g.log ++ [(r, answer)]⟩)

/-- The world with an empty log beside the gateway. -/
def World.audited (w : World γ) : World (Audited γ) :=
  ⟨w.store, ⟨w.gateway, []⟩, w.pool⟩

/-- The reply without the log. -/
def Reply.unaudited (reply : Reply (Audited γ)) : Reply γ :=
  ⟨reply.answer, reply.events,
    ⟨reply.world.store, reply.world.gateway.gateway, reply.world.pool⟩⟩

/-- What the gateway is asked in a turn, with its answers. -/
def Service.asked [Gateway γ] (service : Service) (t : Turn γ) :
    List (DepositRequest × DepositAnswer) :=
  (service.execute t.world.audited t.call).world.gateway.log

/-- The second gateway is the first after one request at most, with that in its log. -/
def Audited.AsksOnce (g g' : Audited γ) : Prop :=
  ∃ entries, g'.log = g.log ++ entries ∧ entries.length ≤ 1

theorem Audited.AsksOnce.refl (g : Audited γ) : g.AsksOnce g :=
  ⟨[], (List.append_nil _).symm, Nat.zero_le 1⟩

section Log

variable [WritableStore σ] [Gateway γ] (g : Audited γ)

theorem Journal.deposit_audited (config : SettlementConfig) (p : Progress σ) (block : Block) :
    deposit config g.gateway p block
        = ((deposit config g p block).1, (deposit config g p block).2.gateway) ∧
      g.AsksOnce (deposit config g p block).2 := by
  rw [deposit, deposit]
  cases depositTarget config p.cctx with
  | error fault => exact ⟨rfl, .refl g⟩
  | ok d => exact ⟨rfl, _, rfl, Nat.le_refl 1⟩

theorem Journal.voteInbound_audited (policy : StalePolicy) (config : SettlementConfig) (s : σ)
    (block : Block) (m : InboundVote) :
    voteInbound policy config g.gateway s block m
        = ((voteInbound policy config g s block m).1,
          (voteInbound policy config g s block m).2.gateway) ∧
      g.AsksOnce (voteInbound policy config g s block m).2 := by
  rw [voteInbound, voteInbound]
  cases intake policy config s block m with
  | error e => exact ⟨rfl, .refl g⟩
  | ok taken =>
    cases taken with
    | counted receipt s effects => exact ⟨rfl, .refl g⟩
    | opened receipt p =>
      obtain ⟨heq, hasks⟩ := deposit_audited g config p block
      refine ⟨?_, hasks⟩
      simp only [heq]

/-- Only a vote on an inbound transaction asks the gateway. -/
theorem Service.gateway_handle (service : Service) (g : γ) (s : σ) {c : Call}
    (hc : ∀ block m, c ≠ .voteInbound block m) : (service.handle g s c).2 = g := by
  cases c with
  | voteInbound block m => exact absurd rfl (hc block m)
  | registerChain | pruneBallots =>
    rw [handle]
    split <;> rfl
  | _ => rfl

theorem Service.handle_audited (service : Service) (s : σ) (c : Call) :
    service.handle g.gateway s c
        = ((service.handle g s c).1, (service.handle g s c).2.gateway) ∧
      g.AsksOnce (service.handle g s c).2 := by
  by_cases hc : ∀ block m, c ≠ .voteInbound block m
  · rw [gateway_handle service g s hc]
    refine ⟨Prod.ext ?_ (gateway_handle service g.gateway s hc), .refl g⟩
    cases c with
    | voteInbound block m => exact absurd rfl (hc block m)
    | registerChain | pruneBallots =>
      rw [handle, handle]
      split <;> rfl
    | _ => rfl
  · obtain ⟨block, m, rfl⟩ : ∃ block m, c = .voteInbound block m := by
      simpa using hc
    obtain ⟨heq, hasks⟩ := Journal.voteInbound_audited g service.observers.stalePolicy
      service.settlement s block m
    rw [handle, handle, heq]
    exact ⟨rfl, hasks⟩

end Log

namespace World

variable (w : World γ) (ofStore : StoreError → CallError)

theorem gateway_conclude (handled : Handled Draft γ) :
    (w.conclude ofStore handled).world.gateway = handled.2 := by
  rw [conclude]
  split
  · rfl
  · split <;> rfl

theorem conclude_audited (handled : Handled Draft (Audited γ)) :
    w.conclude ofStore (handled.1, handled.2.gateway)
      = (w.audited.conclude ofStore handled).unaudited := by
  obtain ⟨result, g⟩ := handled
  cases result with
  | error e => rfl
  | ok result =>
    obtain ⟨answer, draft, effects⟩ := result
    simp only [conclude]
    cases draft.commit <;> rfl

end World

section Execute

variable [Gateway γ] (service : Service) (w : World γ) (c : Call)

/-- **The log changes nothing**: a call does the same with it. -/
theorem Service.execute_audited :
    service.execute w c = (service.execute w.audited c).unaudited := by
  obtain ⟨heq, -⟩ := service.handle_audited w.audited.gateway (.fresh w.store : Draft) c
  rw [execute_eq, execute_eq]
  change w.conclude c.storeError (service.handle w.audited.gateway.gateway _ c) = _
  rw [heq]
  exact w.conclude_audited c.storeError _

theorem Service.asked_eq : service.asked ⟨w, c⟩
    = (service.handle w.audited.gateway (.fresh w.store : Draft) c).2.log := by
  rw [asked, execute_eq, World.gateway_conclude]
  rfl

/-- A call asks the gateway once at most. -/
theorem Service.length_asked_le : (service.asked ⟨w, c⟩).length ≤ 1 := by
  obtain ⟨-, entries, hlog, hlength⟩ :=
    service.handle_audited w.audited.gateway (.fresh w.store : Draft) c
  rw [asked_eq, hlog]
  exact hlength

/-- Only a vote on an inbound transaction asks it. -/
theorem Service.exists_eq_voteInbound {service : Service} {w : World γ} {c : Call}
    (h : service.asked ⟨w, c⟩ ≠ []) : ∃ block m, c = .voteInbound block m := by
  by_contra hc
  refine h ?_
  rw [asked_eq, gateway_handle service _ _ fun block m heq => hc ⟨block, m, heq⟩]
  rfl

end Execute

/-! ### When the gateway is asked -/

section Turns

variable {w : World γ}

/-- The log is not stored. -/
theorem World.Sound.audited (h : w.Sound) : w.audited.Sound :=
  ⟨h.addressable, h.records, h.ballotsFiled, h.accounts⟩

variable [Gateway γ] {service : Service}

/-- A vote on a marked event does not ask the gateway. -/
theorem World.Sound.asked_of_marked (h : w.Sound) (block : Block) {m : InboundVote}
    (hmarked : w.accounts.marked m.origin = true) :
    service.asked ⟨w, .voteInbound block m⟩ = [] := by
  obtain ⟨e, hreply⟩ := Service.refused_of_marked service h.audited.records h.audited.legible
    h.audited.ballotsFiled block hmarked
  rw [Service.asked, hreply]
  rfl

/-- **A vote that is accepted after it has asked the gateway leaves its event marked.** -/
theorem World.Sound.marked_of_asked (h : w.Sound) {block : Block} {m : InboundVote}
    (hstore : (service.execute w (.voteInbound block m)).world.store.Addressable)
    (hasked : service.asked ⟨w, .voteInbound block m⟩ ≠ []) {answer : Answer}
    (hanswer : (service.execute w (.voteInbound block m)).answer = .ok answer) :
    (service.execute w (.voteInbound block m)).world.accounts.marked m.origin = true := by
  rw [Service.execute_audited] at hstore hanswer ⊢
  obtain ⟨e, gateway, hreply⟩ | ⟨receipt, outcome, a, ballots, -, -, -, hreported, hgateway,
    hbooks⟩ := Service.voteInbound_cases service h.audited.records h.audited.legible
      h.audited.ballotsFiled block m
  · rw [hreply] at hanswer
    cases hanswer
  · have haccounts : (service.execute w.audited (.voteInbound block m)).world.accounts = a :=
      (hbooks.ledger hstore).2.1
    cases hfinalized : outcome.finalized with
    | true => exact haccounts ▸ hreported.marked_eq hfinalized
    | false =>
      -- The gateway is as it was, with nothing in its log.
      refine absurd ?_ hasked
      rw [Service.asked, hgateway hfinalized]
      rfl

/-- **A call that is refused has not asked the gateway, if the store works.** -/
theorem World.Sound.asked_of_refused (h : w.Sound) (hworks : w.store.Works) {c : Call}
    {e : CallError} (hanswer : (service.execute w c).answer = .error e) :
    service.asked ⟨w, c⟩ = [] := by
  by_contra hasked
  obtain ⟨block, m, rfl⟩ := Service.exists_eq_voteInbound hasked
  rw [Service.execute_audited] at hanswer
  obtain ⟨e', hreply, hfailed⟩ | ⟨answer, r, effects, -, hreply⟩ :=
    service.execute_cases w.audited (.voteInbound block m)
  · refine hasked ?_
    rw [Service.asked, hreply]
    have hrecords : Records (Recorder.start w.store) w.store.ledger := h.records.congr rfl
    cases hvote : (Journal.voteInbound service.observers.stalePolicy service.settlement
        w.audited.gateway (Recorder.start w.store) block m).1 with
    | error e =>
      exact congrArg Audited.log
        (Journal.gateway_of_error hworks hrecords h.legible h.ballotsFiled hvote)
    | ok result =>
      have hhandled := hfailed hworks.accepts
      change ((Journal.voteInbound service.observers.stalePolicy service.settlement
        w.audited.gateway (Recorder.start w.store) block m).1.map _).mapError _ = _ at hhandled
      rw [hvote] at hhandled
      cases hhandled
  · rw [hreply] at hanswer
    cases hanswer

end Turns

/-! ### Deposits in a run -/

/-- The events for which a deposit succeeded in a turn. -/
def Service.deposits [Gateway γ] (service : Service) (t : Turn γ) : List Origin :=
  match t.call with
  | .voteInbound _ m => ((service.asked t).filter (·.2.isOk)).map fun _ => m.origin
  | _ => []

/-- Whether the call of a turn is accepted. -/
def Service.accepts [Gateway γ] (service : Service) (t : Turn γ) : Bool :=
  (service.execute t.world t.call).answer.isOk

section Runs

variable [Gateway γ] {service : Service} {w w₀ : World γ} {turns : List (Turn γ)}

/-- A deposit in a turn is for the event of its vote, and the gateway was asked for it. -/
theorem Service.exists_of_mem_deposits {t : Turn γ} {o : Origin} (h : o ∈ service.deposits t) :
    ∃ block m, t.call = .voteInbound block m ∧ m.origin = o ∧ service.asked t ≠ [] := by
  rw [deposits] at h
  split at h
  · next block m hcall =>
    obtain ⟨entry, hentry, rfl⟩ := List.mem_map.1 h
    exact ⟨block, m, hcall, rfl, List.ne_nil_of_mem (List.mem_filter.1 hentry).1⟩
  · cases h

theorem Service.length_deposits_le (t : Turn γ) : (service.deposits t).length ≤ 1 := by
  rw [deposits]
  split
  · rw [List.length_map]
    exact Nat.le_trans (List.length_filter_le _ _) (service.length_asked_le t.world t.call)
  · exact Nat.zero_le 1

theorem Service.nodup_deposits (t : Turn γ) : (service.deposits t).Nodup := by
  have hlength : (service.deposits t).length ≤ 1 := Service.length_deposits_le t
  match h : service.deposits t with
  | [] => exact .nil
  | [o] => exact List.nodup_singleton o
  | _ :: _ :: _ =>
    rw [h, List.length_cons, List.length_cons] at hlength
    omega

/-- The event of an accepted deposit stays marked. -/
theorem Run.marked_of_deposit (hrun : Run service w₀ turns w) (h₀ : w₀.Sound) {t : Turn γ}
    (ht : t ∈ turns) (haccepted : service.accepts t = true) {o : Origin}
    (ho : o ∈ service.deposits t) : w.accounts.marked o = true := by
  induction hrun with
  | start => cases ht
  | @call turns w hrun c hstore ih =>
    have hsound := hrun.sound h₀
    rcases List.mem_append.1 ht with ht | ht
    · exact ((hsound.accounts.extends_of_step (hsound.execute hstore).2).marked _ (ih ht))
    · obtain rfl := List.mem_singleton.1 ht
      obtain ⟨block, m, rfl, rfl, hasked⟩ := Service.exists_of_mem_deposits ho
      cases hanswer : (service.execute w (.voteInbound block m)).answer with
      | error e => rw [Service.accepts, hanswer] at haccepted; cases haccepted
      | ok answer => exact hsound.marked_of_asked hstore hasked hanswer
  | outside _ hentries ih =>
    rw [World.accounts_eq_of_entries_eq hentries]
    exact ih ht

/-- **After an accepted deposit there is no other one for its event.** -/
theorem Run.pairwise_deposits (hrun : Run service w₀ turns w) (h₀ : w₀.Sound) :
    turns.Pairwise fun t t' => service.accepts t = true →
      List.Disjoint (service.deposits t) (service.deposits t') := by
  induction hrun with
  | start => exact .nil
  | @call turns w hrun c hstore ih =>
    refine List.pairwise_append.2 ⟨ih, List.pairwise_singleton _ _, ?_⟩
    intro t ht t' ht' haccepted o ho ho'
    obtain rfl := List.mem_singleton.1 ht'
    obtain ⟨block, m, rfl, rfl, hasked⟩ := Service.exists_of_mem_deposits ho'
    exact hasked ((hrun.sound h₀).asked_of_marked block
      (hrun.marked_of_deposit h₀ ht haccepted ho))
  | outside _ _ ih => exact ih

/-- A call that is refused on a store that works has made no deposit. -/
theorem Run.asked_of_refused (hrun : Run service w₀ turns w) (h₀ : w₀.Sound) {t : Turn γ}
    (ht : t ∈ turns) (hworks : t.world.store.Works) (hrefused : service.accepts t = false) :
    service.asked t = [] := by
  have hsound : t.world.Sound :=
    hrun.forall_turns h₀ (P := fun t => t.world.Sound) (fun _ _ h _ => h) t ht
  cases hanswer : (service.execute t.world t.call).answer with
  | error e => exact hsound.asked_of_refused hworks hanswer
  | ok answer => rw [Service.accepts, hanswer] at hrefused; cases hrefused

/-- **Deposits of accepted calls are made once, and those of refused calls only if the store
fails.** Only votes on inbound transactions ask the gateway, and each of them asks at most once.
A call that is refused has asked the gateway only on a store that does not work. After an
accepted call that has made a deposit, no later call makes one for the same event, whether it is
accepted or refused. So there is at most one deposit for every event, if the store works whenever
a call is made. -/
theorem Run.deposits_once (hrun : Run service w₀ turns w) (hempty : w₀.store.entries = .empty) :
    (∀ t ∈ turns, (service.asked t).length ≤ 1 ∧
      (service.asked t ≠ [] → ∃ block m, t.call = .voteInbound block m)) ∧
    (∀ t ∈ turns, t.world.store.Works → service.accepts t = false → service.asked t = []) ∧
    (turns.Pairwise fun t t' => service.accepts t = true →
      List.Disjoint (service.deposits t) (service.deposits t')) ∧
    ((∀ t ∈ turns, t.world.store.Works) → (turns.flatMap service.deposits).Nodup) := by
  have h₀ := World.sound_of_entries_eq_empty hempty
  refine ⟨fun t _ => ⟨service.length_asked_le _ _, Service.exists_eq_voteInbound⟩,
    fun t ht => hrun.asked_of_refused h₀ ht, hrun.pairwise_deposits h₀, fun hworks => ?_⟩
  have hdisjoint : turns.Pairwise fun t t' =>
      List.Disjoint (service.deposits t) (service.deposits t') := by
    refine (hrun.pairwise_deposits h₀).imp_of_mem fun {t t'} ht _ hlater => ?_
    cases haccepted : service.accepts t with
    | true => exact hlater haccepted
    | false =>
      intro o ho
      obtain ⟨_, _, -, -, hasked⟩ := Service.exists_of_mem_deposits ho
      exact absurd (hrun.asked_of_refused h₀ ht (hworks t ht) haccepted) hasked
  exact List.nodup_flatMap.2 ⟨fun t _ => Service.nodup_deposits t, hdisjoint⟩

end Runs

/-! ### A deposit that is made twice -/

namespace Sample

/-- The deposit is reported once, on a store that works. -/
theorem deposit_made_once :
    (service.turnsOf start calls).flatMap service.deposits = [deposit.origin] ∧
      ((service.turnsOf start calls).flatMap service.deposits).Nodup := by
  have hworks : ∀ t ∈ service.turnsOf start calls,
      t.world.store.rejectsWrites = false ∧ t.world.store.unreadable = none := by decide +kernel
  exact ⟨by decide +kernel, (Run.deposits_once run rfl).2.2.2 fun t ht =>
    ⟨(hworks t ht).1, (hworks t ht).2⟩⟩

/-- The store takes writes again, after the vote was refused. -/
def recovered : World ScriptedGateway :=
  { (service.execute stuck (.voteInbound ⟨1, 1⟩ deposit)).world with store := ready.store }

/-- **A deposit is made twice for one event**: by a vote that is refused because the store takes
no writes, and once more when the same vote is cast again. -/
theorem deposited_twice : ∃ turns w, Run service start turns w ∧
    (turns.map fun t => (service.accepts t, service.deposits t))
      = [(true, []), (true, []), (true, []), (false, [deposit.origin]),
        (true, [deposit.origin])] := by
  have hanswer : (service.execute stuck (.voteInbound ⟨1, 1⟩ deposit)).answer
      = .error (.settlement (.store (.store .writeRejected))) := by decide +kernel
  have hkept : (service.execute stuck (.voteInbound ⟨1, 1⟩ deposit)).world.store = stuck.store :=
    Service.store_eq_of_error hanswer
  have hready : Run service start (service.turnsOf start (calls.take 3)) ready :=
    Run.start.calls (calls.take 3) (by decide +kernel)
  have hstuck : Run service start (service.turnsOf start (calls.take 3)) stuck :=
    hready.outside rfl
  have hrefused := hstuck.call (.voteInbound ⟨1, 1⟩ deposit) (by decide +kernel)
  have hentries : recovered.store.entries
      = (service.execute stuck (.voteInbound ⟨1, 1⟩ deposit)).world.store.entries := by
    rw [hkept]
    rfl
  have hrecovered := hrefused.outside hentries
  exact ⟨_, _, hrecovered.call (.voteInbound ⟨1, 1⟩ deposit) (by decide +kernel),
    by decide +kernel⟩

end Sample

end Settlement
