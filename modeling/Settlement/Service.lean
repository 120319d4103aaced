import Settlement.Journal.Migration
import Settlement.Journal.Outbound
import Settlement.Journal.Tracking
import Settlement.Registry.Config
import Settlement.StabilityPool
import Settlement.Store.Commit

/-!
# The service

Governance, observers and signers change the state by calls. Every call is one transition over
the committed store: it is committed as a whole or refused as a whole. After the commit, the
stability pool is credited if that is owed, and the events are published; a refused call does
neither. Only the gateway to the host chain is asked inside the transition, so what it did is
kept even if the call is refused in the end.

`Settlement.Service.execute` is the meaning of every call that changes the state. Queries read
the committed store with the functions of `Settlement.Registry` and `Settlement.Journal`.
-/

namespace Settlement

/-! ### The state -/

/-- The state on which calls work: the committed store and what is outside of it. -/
structure World (γ : Type) where
  store : Backend
  gateway : γ
  pool : StabilityPool

/-- A service, under configurations that were accepted. -/
structure Service where
  observers : ObserverConfig
  settlement : SettlementConfig
  observers_valid : observers.validate = .ok ()
  settlement_valid : settlement.validate = .ok ()

/-- Why a call is refused: by the registry, or by the settlement. -/
inductive CallError where
  | registry (error : RegistryError)
  | settlement (error : SettlementError)
  deriving DecidableEq

/-- The wording of an error. -/
def CallError.message : CallError → String
  | .registry error => error.message
  | .settlement error => error.message

/-- The service under the given configurations, if they are accepted; those of the observers
are checked first. -/
def Service.configure (observers : ObserverConfig) (settlement : SettlementConfig) :
    Except CallError Service :=
  match ho : observers.validate with
  | .error e => .error (.registry e)
  | .ok () =>
    match hs : settlement.validate with
    | .error e => .error (.settlement e)
    | .ok () => .ok ⟨observers, settlement, ho, hs⟩

/-! ### Calls -/

/-- A call that changes the state. -/
inductive Call where
  | castVote (request : Registry.VoteRequest) (block : Block)
  | setObserverSet (ids : List ObserverId)
  | addObserver (id : ObserverId)
  | replaceObserver (old new : ObserverId)
  | registerChain (chain : Chain) (params : ChainParams)
  | updateChainParams (params : ChainParams)
  | setSwitches (switches : Switches)
  | registerKey (key : SigningKey) (makeCurrent : Bool)
  | activateKey (pubkey : String)
  | pruneBallots (height : UInt64)
  | voteInbound (block : Block) (vote : InboundVote)
  | voteOutbound (block : Block) (vote : OutboundVote)
  | migrateFunds (block : Block) (chainId : ChainId) (amount : U256)
  | addOutboundTracker (report : OutboundHashReport)
  | addInboundTracker (report : InboundHashReport)
  deriving DecidableEq

/-- What a call answers. -/
inductive Answer where
  | done
  | outcome (outcome : Registry.VoteOutcome)
  | receipt (receipt : VoteReceipt)
  | index (index : Digest)
  | count (count : Nat)
  deriving DecidableEq

/-- The answer to a call, the events that are published, and the state after it. -/
structure Reply (γ : Type) where
  answer : Except CallError Answer
  events : List Event
  world : World γ

namespace World

variable {γ : Type}

/-! ### After the commit -/

/-- Credits the pool and completes the events. The result of the credit is published after
everything else. -/
def release (pool : StabilityPool) (effects : Effects) : List Event × StabilityPool :=
  match effects.funding with
  | none => (effects.events, pool)
  | some f =>
    let event : Event :=
      if pool.isFailing then
        .poolFundingFailed f.cctxIndex f.chainId (StabilityPool.refusal f.chainId)
      else .poolFunded f.cctxIndex f.chainId f.amount
    (effects.events ++ [event], pool.fund f.chainId f.amount)

/-! ### Transitions -/

/-- Runs a transition of the registry. -/
def runRegistry (w : World γ) (run : Draft → Except RegistryError (Answer × Draft)) : Reply γ :=
  let (result, store) := w.store.transact RegistryError.store run
  ⟨result.mapError .registry, [], { w with store := store }⟩

/-- Runs a transition of the settlement that has come to a result and left a gateway. -/
def runSettlement (w : World γ)
    (run : Draft → Except SettlementError (Answer × Draft × Effects) × γ) : Reply γ :=
  let (result, gateway) := run (.fresh w.store)
  let result := result.map fun (answer, draft, effects) => ((answer, effects), draft)
  match w.store.conclude SettlementError.store result with
  | (.error e, store) => ⟨.error (.settlement e), [], { w with store, gateway }⟩
  | (.ok (answer, effects), store) =>
    let (events, pool) := release w.pool effects
    ⟨.ok answer, events, ⟨store, gateway, pool⟩⟩

/-- A transition that gives the store only. -/
def quiet {ε : Type} (s : Except ε Draft) : Except ε (Answer × Draft) :=
  s.map fun s => (.done, s)

/-- A call that is refused before any transition is run. -/
def refuse (w : World γ) (e : CallError) : Reply γ :=
  ⟨.error e, [], w⟩

end World

namespace Service

variable {γ : Type}

/-- Prunes ballots at a host height: those whose retention has ended, unless ballots are never
pruned or none can be old enough. -/
def pruneBallots (service : Service) (w : World γ) (height : UInt64) : Reply γ :=
  let retention := service.observers.retentionBlocks
  if retention = 0 ∨ height < retention then ⟨.ok (.count 0), [], w⟩
  else w.runRegistry fun s =>
    (Registry.pruneBallots s (height - retention)).map fun (n, s) => (.count n, s)

/-- Registers a chain with parameters that have to be its own. -/
def registerChain (w : World γ) (chain : Chain) (params : ChainParams) : Reply γ :=
  if params.chainId ≠ chain.chainId then
    w.refuse (.registry (.paramsOfOtherChain params.chainId chain.chainId))
  else w.runRegistry fun s => World.quiet (Registry.registerChain s chain params)

/-- The meaning of a call. -/
def execute [Gateway γ] (service : Service) (w : World γ) : Call → Reply γ
  | .castVote request block => w.runRegistry fun s =>
    (Registry.castVote service.observers.stalePolicy s request block.height).map
      fun (outcome, s) => (.outcome outcome, s)
  | .setObserverSet ids => w.runRegistry fun s =>
    World.quiet (Registry.setObserverSet s (.ofList ids))
  | .addObserver id => w.runRegistry fun s => World.quiet (Registry.addObserver s id)
  | .replaceObserver old new => w.runRegistry fun s =>
    World.quiet (Registry.replaceObserver s old new)
  | .registerChain chain params => registerChain w chain params
  | .updateChainParams params => w.runRegistry fun s =>
    World.quiet (Registry.updateChainParams s params)
  | .setSwitches switches => w.runRegistry fun s => World.quiet (Registry.setSwitches s switches)
  | .registerKey key makeCurrent => w.runRegistry fun s =>
    World.quiet (Registry.registerKey s key makeCurrent)
  | .activateKey pubkey => w.runRegistry fun s => World.quiet (Registry.activateKey s pubkey)
  | .pruneBallots height => pruneBallots service w height
  | .voteInbound block m => w.runSettlement fun s =>
    let (result, gateway) := Journal.voteInbound service.observers.stalePolicy service.settlement
      w.gateway s block m
    (result.map fun (receipt, s, effects) => (.receipt receipt, s, effects), gateway)
  | .voteOutbound block m => w.runSettlement fun s =>
    ((Journal.voteOutbound service.observers.stalePolicy service.settlement s block m).map
      fun (receipt, s, effects) => (.receipt receipt, s, effects), w.gateway)
  | .migrateFunds block chainId amount => w.runSettlement fun s =>
    ((Journal.migrateFunds service.settlement s block chainId amount).map
      fun (index, s, effects) => (.index index, s, effects), w.gateway)
  | .addOutboundTracker report => w.runSettlement fun s =>
    ((Journal.addOutboundTracker service.settlement s report).map
      fun s => (.done, s, .none), w.gateway)
  | .addInboundTracker report => w.runSettlement fun s =>
    ((Journal.addInboundTracker s report).map fun s => (.done, s, .none), w.gateway)

end Service

end Settlement
