import Settlement.Proofs.Mirror
import Settlement.Proofs.Queries

/-!
# Calls are all or nothing

A call runs a handler on a draft and commits the draft. The handler may fail anywhere, after any
number of writes, and so may the commit. What a call leaves behind is told by running its handler
on a record of writes (`Settlement.Service.handle`): either nothing, or all the recorded writes.

Main statement: `Settlement.Service.all_or_nothing`, for every call on every store, whether the
store was ever reached by calls or not.
-/

namespace Settlement

variable {σ γ : Type}

/-! ### Handlers -/

/-- What a handler has come to: the answer, the store, and what is to be released; or an error.
The gateway may have been asked in both cases. -/
abbrev Handled (σ γ : Type) := Except CallError (Answer × σ × Effects) × γ

namespace Handled

/-- A transition of the registry releases nothing and asks no gateway. -/
def ofRegistry (g : γ) (x : Except RegistryError (Answer × σ)) : Handled σ γ :=
  ((x.map fun (answer, s) => (answer, s, .none)).mapError .registry, g)

/-- A transition of the registry that gives the store only. -/
def quiet (g : γ) (x : Except RegistryError σ) : Handled σ γ :=
  ofRegistry g (x.map fun s => (.done, s))

/-- A transition of the settlement. -/
def ofSettlement (x : Except SettlementError (Answer × σ × Effects) × γ) : Handled σ γ :=
  (x.1.mapError .settlement, x.2)

/-- A handler has come to what its transition of the settlement has come to. -/
theorem exists_of_ok {α : Type} {x : Except SettlementError α} {f : α → Answer × σ × Effects}
    {g g' : γ} {result : Answer × σ × Effects}
    (h : ofSettlement (x.map f, g) = (.ok result, g')) : ∃ a, x = .ok a ∧ f a = result :=
  map_eq_ok_iff.1 (mapError_eq_ok_iff.1 (congrArg Prod.fst h))

/-- A handler has come to what its transition of the registry has come to. -/
theorem exists_of_registry {α : Type} {x : Except RegistryError α} {f : α → Answer × σ} {g g' : γ}
    {answer : Answer} {s : σ} {effects : Effects}
    (h : ofRegistry g (x.map f) = (.ok (answer, s, effects), g')) :
    ∃ a, x = .ok a ∧ f a = (answer, s) := by
  obtain ⟨result, hresult, heq⟩ := map_eq_ok_iff.1 (mapError_eq_ok_iff.1 (congrArg Prod.fst h))
  cases heq
  exact map_eq_ok_iff.1 hresult

end Handled

namespace Service

/-- The handler of a call, on any kind of store. -/
def handle [WritableStore σ] [Gateway γ] (service : Service) (g : γ) (s : σ) : Call → Handled σ γ
  | .castVote request block => .ofRegistry g
    ((Registry.castVote service.observers.stalePolicy s request block.height).map
      fun (outcome, s) => (.outcome outcome, s))
  | .setObserverSet ids => .quiet g (Registry.setObserverSet s (.ofList ids))
  | .addObserver id => .quiet g (Registry.addObserver s id)
  | .replaceObserver old new => .quiet g (Registry.replaceObserver s old new)
  | .registerChain chain params =>
    if params.chainId ≠ chain.chainId then
      (.error (.registry (.paramsOfOtherChain params.chainId chain.chainId)), g)
    else .quiet g (Registry.registerChain s chain params)
  | .updateChainParams params => .quiet g (Registry.updateChainParams s params)
  | .setSwitches switches => .quiet g (Registry.setSwitches s switches)
  | .registerKey key makeCurrent => .quiet g (Registry.registerKey s key makeCurrent)
  | .activateKey pubkey => .quiet g (Registry.activateKey s pubkey)
  | .pruneBallots height =>
    let retention := service.observers.retentionBlocks
    if retention = 0 ∨ height < retention then (.ok (.count 0, s, .none), g)
    else .ofRegistry g ((Registry.pruneBallots s (height - retention)).map
      fun (n, s) => (.count n, s))
  | .voteInbound block m =>
    let (result, g) := Journal.voteInbound service.observers.stalePolicy service.settlement g s
      block m
    .ofSettlement (result.map fun (receipt, s, effects) => (.receipt receipt, s, effects), g)
  | .voteOutbound block m => .ofSettlement
    ((Journal.voteOutbound service.observers.stalePolicy service.settlement s block m).map
      fun (receipt, s, effects) => (.receipt receipt, s, effects), g)
  | .migrateFunds block chainId amount => .ofSettlement
    ((Journal.migrateFunds service.settlement s block chainId amount).map
      fun (index, s, effects) => (.index index, s, effects), g)
  | .addOutboundTracker report => .ofSettlement
    ((Journal.addOutboundTracker service.settlement s report).map fun s => (.done, s, .none), g)
  | .addInboundTracker report => .ofSettlement
    ((Journal.addInboundTracker s report).map fun s => (.done, s, .none), g)

end Service

/-- The error of a call whose draft the store does not take. -/
def Call.storeError : Call → StoreError → CallError
  | .voteInbound .., e | .voteOutbound .., e | .migrateFunds .., e
  | .addOutboundTracker _, e | .addInboundTracker _, e => .settlement (.store e)
  | _, e => .registry (.store e)

namespace World

/-- Commits what a handler has come to, and releases what it owes. -/
def conclude (w : World γ) (ofStore : StoreError → CallError) (handled : Handled Draft γ) :
    Reply γ :=
  match handled.1 with
  | .error e => ⟨.error e, [], { w with gateway := handled.2 }⟩
  | .ok (answer, draft, effects) =>
    match draft.commit with
    | .error e => ⟨.error (ofStore e), [], { w with gateway := handled.2 }⟩
    | .ok store =>
      ⟨.ok answer, (release w.pool effects).1, ⟨store, handled.2, (release w.pool effects).2⟩⟩

theorem runRegistry_eq (w : World γ) (run : Draft → Except RegistryError (Answer × Draft)) :
    w.runRegistry run
      = w.conclude (.registry ∘ .store) (.ofRegistry w.gateway (run (.fresh w.store))) := by
  rw [runRegistry, Backend.transact]
  cases run (.fresh w.store) with
  | error e => rfl
  | ok result =>
    obtain ⟨answer, draft⟩ := result
    simp only [Backend.conclude, conclude, Handled.ofRegistry, Except.map, Except.mapError]
    cases draft.commit <;> rfl

theorem runSettlement_eq (w : World γ)
    (run : Draft → Except SettlementError (Answer × Draft × Effects) × γ) :
    w.runSettlement run
      = w.conclude (.settlement ∘ .store) (.ofSettlement (run (.fresh w.store))) := by
  rw [runSettlement]
  obtain ⟨result, g⟩ := run (.fresh w.store)
  cases result with
  | error e => rfl
  | ok result =>
    obtain ⟨answer, draft, effects⟩ := result
    simp only [Backend.conclude, conclude, Handled.ofSettlement, Except.map, Except.mapError]
    cases draft.commit <;> rfl

end World

namespace Service

/-- **A call runs its handler on a draft and commits the draft.** -/
theorem execute_eq [Gateway γ] (service : Service) (w : World γ) (c : Call) :
    service.execute w c
      = w.conclude c.storeError (service.handle w.gateway (.fresh w.store : Draft) c) := by
  cases c with
  | registerChain chain params =>
    rw [execute, registerChain, handle]
    split
    · rfl
    · exact w.runRegistry_eq _
  | pruneBallots height =>
    rw [execute, pruneBallots, handle]
    split
    · rfl
    · exact w.runRegistry_eq _
  | voteInbound | voteOutbound | migrateFunds | addOutboundTracker | addInboundTracker =>
    rw [execute]
    exact w.runSettlement_eq _
  | _ =>
    rw [execute]
    exact w.runRegistry_eq _

/-- A call is refused and changes nothing but the gateway, or the draft of its handler is committed
and what its handler has come to is released. -/
theorem committed_cases [Gateway γ] (service : Service) (w : World γ) (c : Call) :
    (∃ e g, service.execute w c = ⟨.error e, [], { w with gateway := g }⟩) ∨
      ∃ answer draft effects g b,
        service.handle w.gateway (.fresh w.store : Draft) c = (.ok (answer, draft, effects), g) ∧
        contents b = contents draft ∧
        service.execute w c = ⟨.ok answer, (World.release w.pool effects).1,
          ⟨b, g, (World.release w.pool effects).2⟩⟩ := by
  rw [execute_eq]
  cases hhandled : service.handle w.gateway (.fresh w.store : Draft) c with
  | mk result g =>
  cases result with
  | error e => exact .inl ⟨e, g, rfl⟩
  | ok result =>
    obtain ⟨answer, draft, effects⟩ := result
    cases hcommit : draft.commit with
    | error e => exact .inl ⟨c.storeError e, g, by simp only [World.conclude, hcommit]⟩
    | ok b => exact .inr ⟨answer, draft, effects, g, b, rfl, Overlay.contents_commit hcommit,
        by simp only [World.conclude, hcommit]⟩

/-- What a call has answered, its handler has come to, and the draft of the handler is stored. -/
theorem committed_of_answer [Gateway γ] {service : Service} {w : World γ} {c : Call}
    {answer : Answer} (hanswer : (service.execute w c).answer = .ok answer) :
    ∃ draft effects g,
      service.handle w.gateway (.fresh w.store : Draft) c = (.ok (answer, draft, effects), g) ∧
      contents (service.execute w c).world.store = contents draft := by
  obtain ⟨e, g, hrefused⟩ | ⟨answer', draft, effects, g, b, hhandled, hcontents, hreply⟩ :=
    service.committed_cases w c
  · rw [hrefused] at hanswer
    cases hanswer
  · rw [hreply] at hanswer ⊢
    cases hanswer
    exact ⟨draft, effects, g, hhandled, hcontents⟩

/-! ### Handlers on a record of writes -/

section Mirrors

variable {b : Backend}

theorem mirrors_ofRegistry {g : γ} {x : Except RegistryError (Answer × Recorder b)}
    {y : Except RegistryError (Answer × Draft)} (h : Mirrors Recorder.seen x y) :
    Mirrors Recorder.outcome (Handled.ofRegistry g x).1 (Handled.ofRegistry g y).1 :=
  .mapError (.map h fun _ => rfl)

theorem mirrors_quiet {g : γ} {x : Except RegistryError (Recorder b)}
    {y : Except RegistryError Draft} (h : Mirrors Recorder.draft x y) :
    Mirrors Recorder.outcome (Handled.quiet g x).1 (Handled.quiet g y).1 :=
  mirrors_ofRegistry (.map h fun _ => rfl)

/-- **A handler does the same on a draft and on a record of its writes.** -/
theorem mirrors_handle [Gateway γ] (service : Service) (g : γ) (r : Recorder b) (c : Call) :
    Mirrors Recorder.outcome (service.handle g r c).1 (service.handle g r.draft c).1 ∧
      (service.handle g r.draft c).2 = (service.handle g r c).2 := by
  cases c with
  | castVote request block =>
    exact ⟨mirrors_ofRegistry (.map (Registry.mirrors_castVote Recorder.views r _ request
      block.height trivial) fun _ => rfl), rfl⟩
  | setObserverSet ids => exact ⟨mirrors_quiet rfl, rfl⟩
  | addObserver id => exact ⟨mirrors_quiet (Registry.mirrors_addObserver ..), rfl⟩
  | replaceObserver old new => exact ⟨mirrors_quiet (Registry.mirrors_replaceObserver ..), rfl⟩
  | registerChain chain params =>
    rw [handle, handle]
    split
    · exact ⟨.error _, rfl⟩
    · exact ⟨mirrors_quiet (Registry.mirrors_registerChain ..), rfl⟩
  | updateChainParams params =>
    exact ⟨mirrors_quiet (Registry.mirrors_updateChainParams ..), rfl⟩
  | setSwitches switches => exact ⟨mirrors_quiet rfl, rfl⟩
  | registerKey key makeCurrent => exact ⟨mirrors_quiet (Registry.mirrors_registerKey ..), rfl⟩
  | activateKey pubkey => exact ⟨mirrors_quiet (Registry.mirrors_activateKey ..), rfl⟩
  | pruneBallots height =>
    rw [handle, handle]
    split
    · exact ⟨.ok _, rfl⟩
    · exact ⟨mirrors_ofRegistry (.map (Registry.mirrors_pruneBallots ..) fun _ => rfl), rfl⟩
  | voteInbound block m =>
    obtain ⟨hvote, hgateway⟩ := Journal.mirrors_voteInbound service.settlement block
      Recorder.views service.observers.stalePolicy g r m fun _ _ => trivial
    exact ⟨.mapError (.map hvote fun _ => rfl), hgateway⟩
  | voteOutbound block m =>
    have hvote := Journal.mirrors_voteOutbound service.settlement block Recorder.views
      service.observers.stalePolicy r m trivial trivial fun _ _ => ⟨trivial, trivial, fun _ => rfl⟩
    exact ⟨.mapError (.map hvote fun _ => rfl), rfl⟩
  | migrateFunds block chainId amount =>
    exact ⟨.mapError (.map (Journal.mirrors_migrateFunds ..) fun _ => rfl), rfl⟩
  | addOutboundTracker report =>
    exact ⟨.mapError (.map (Journal.mirrors_addOutboundTracker ..) fun _ => rfl), rfl⟩
  | addInboundTracker report =>
    exact ⟨.mapError (.map (Journal.mirrors_addInboundTracker ..) fun _ => rfl), rfl⟩

end Mirrors

/-! ### All or nothing -/

/-- A call is refused and changes nothing but the gateway, or it makes all the writes of its
handler. It is refused if the handler fails or if the store does not take the writes. -/
theorem execute_cases [Gateway γ] (service : Service) (w : World γ) (c : Call) :
    (∃ e, service.execute w c = ⟨.error e, [],
        { w with gateway := (service.handle w.gateway (Recorder.start w.store) c).2 }⟩ ∧
      (w.store.rejectsWrites = false →
        (service.handle w.gateway (Recorder.start w.store) c).1 = .error e)) ∨
    ∃ answer r effects,
      (service.handle w.gateway (Recorder.start w.store) c).1 = .ok (answer, r, effects) ∧
      service.execute w c = ⟨.ok answer, (World.release w.pool effects).1,
        ⟨{ w.store with entries := Backend.applyAll w.store.entries r.writes },
          (service.handle w.gateway (Recorder.start w.store) c).2,
          (World.release w.pool effects).2⟩⟩ := by
  obtain ⟨hresult, hgateway⟩ := service.mirrors_handle w.gateway (Recorder.start w.store) c
  rw [Recorder.draft_start] at hresult hgateway
  rw [execute_eq, World.conclude, hresult, hgateway]
  cases (service.handle w.gateway (Recorder.start w.store) c).1 with
  | error e => exact .inl ⟨e, rfl, fun _ => rfl⟩
  | ok result =>
    obtain ⟨answer, r, effects⟩ := result
    simp only [Except.map, Recorder.outcome]
    cases hcommit : r.draft.commit with
    | error e =>
      refine .inl ⟨_, rfl, fun haccepts => ?_⟩
      obtain ⟨b, hb⟩ := r.exists_commit fun _ => haccepts
      rw [hb] at hcommit
      cases hcommit
    | ok b =>
      rw [Recorder.eq_of_commit hcommit]
      exact .inr ⟨answer, r, effects, rfl, rfl⟩

/-- A call whose handler succeeds is answered by a store that takes writes, and makes them. -/
theorem execute_of_handled [Gateway γ] {service : Service} {w : World γ} {c : Call}
    {answer : Answer} {r : Recorder w.store} {effects : Effects}
    (haccepts : w.store.rejectsWrites = false)
    (h : (service.handle w.gateway (Recorder.start w.store) c).1 = .ok (answer, r, effects)) :
    (service.execute w c).answer = .ok answer ∧
      (service.execute w c).world.store
        = { w.store with entries := Backend.applyAll w.store.entries r.writes } := by
  obtain ⟨e, -, hfailed⟩ | ⟨answer', r', effects', hhandled, hreply⟩ := service.execute_cases w c
  · cases h.symm.trans (hfailed haccepts)
  · cases h.symm.trans hhandled
    rw [hreply]
    exact ⟨rfl, rfl⟩

/-- A call whose handler fails is refused for that by a store that takes writes. -/
theorem execute_of_failed [Gateway γ] {service : Service} {w : World γ} {c : Call} {e : CallError}
    (haccepts : w.store.rejectsWrites = false)
    (h : (service.handle w.gateway (Recorder.start w.store) c).1 = .error e) :
    (service.execute w c).answer = .error e ∧ (service.execute w c).world.store = w.store := by
  obtain ⟨e', hreply, hfailed⟩ | ⟨answer, r, effects, hhandled, -⟩ := service.execute_cases w c
  · cases h.symm.trans (hfailed haccepts)
    rw [hreply]
    exact ⟨rfl, rfl⟩
  · cases h.symm.trans hhandled

theorem store_eq_of_error [Gateway γ] {service : Service} {w : World γ} {c : Call} {e : CallError}
    (h : (service.execute w c).answer = .error e) :
    (service.execute w c).world.store = w.store := by
  obtain ⟨e, hreply, -⟩ | ⟨answer, r, effects, -, hreply⟩ := service.execute_cases w c
  · rw [hreply]
  · rw [hreply] at h
    cases h

/-- **A rejected call leaves no trace, and an accepted one all of its writes.** Whatever is
stored, whatever is called and for whatever reason the call fails: if it answers with an error,
then the store is as it was, nothing is published, and the pool was not asked. If it succeeds,
then the store holds what it held before with every write of the handler made, one after the
other, and nothing else; the events and the credit of the pool are those of the handler. -/
theorem all_or_nothing [Gateway γ] (service : Service) (w : World γ) (c : Call) :
    (∀ e, (service.execute w c).answer = .error e →
      (service.execute w c).world.store = w.store ∧ (service.execute w c).events = [] ∧
        (service.execute w c).world.pool = w.pool) ∧
    ∀ answer, (service.execute w c).answer = .ok answer →
      ∃ (r : Recorder w.store) (effects : Effects),
        (service.handle w.gateway (Recorder.start w.store) c).1 = .ok (answer, r, effects) ∧
        (service.execute w c).world.store
          = { w.store with entries := Backend.applyAll w.store.entries r.writes } ∧
        ((service.execute w c).events, (service.execute w c).world.pool)
          = World.release w.pool effects := by
  obtain ⟨e, hreply, -⟩ | ⟨answer, r, effects, hhandled, hreply⟩ := service.execute_cases w c
  · rw [hreply]
    exact ⟨fun _ _ => ⟨rfl, rfl, rfl⟩, fun _ hanswer => by cases hanswer⟩
  · rw [hreply]
    refine ⟨fun _ hanswer => by (cases hanswer), fun answer' hanswer => ?_⟩
    cases hanswer
    exact ⟨r, effects, hhandled, rfl, rfl⟩

end Service

namespace Sample

/-- The chain, the observer and the key are set up, and the deposit is not reported yet. -/
def ready : World ScriptedGateway :=
  service.after start (calls.take 3)

/-- The store has come to take no writes. -/
def stuck : World ScriptedGateway :=
  { ready with store := { ready.store with rejectsWrites := true } }

/-- The vote on the deposit goes well until the commit, after seven writes, and none of them is
left when the store refuses it. -/
theorem refused_without_trace :
    ((service.handle stuck.gateway (Recorder.start stuck.store)
        (.voteInbound ⟨1, 1⟩ deposit)).1.map fun p => p.2.1.writes.length) = .ok 7 ∧
      (service.execute stuck (.voteInbound ⟨1, 1⟩ deposit)).world.store = stuck.store ∧
      (service.execute stuck (.voteInbound ⟨1, 1⟩ deposit)).events = [] ∧
      (service.execute stuck (.voteInbound ⟨1, 1⟩ deposit)).world.pool = stuck.pool := by
  have hevaluated :
      ((service.handle stuck.gateway (Recorder.start stuck.store)
        (.voteInbound ⟨1, 1⟩ deposit)).1.map fun p => p.2.1.writes.length) = .ok 7 ∧
      (service.execute stuck (.voteInbound ⟨1, 1⟩ deposit)).answer
        = .error (.settlement (.store (.store .writeRejected))) := by decide +kernel
  obtain ⟨hwrites, hanswer⟩ := hevaluated
  exact ⟨hwrites, (Service.all_or_nothing service stuck _).1 _ hanswer⟩

end Sample

end Settlement
