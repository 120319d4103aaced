import Settlement.Proofs.Runs

/-!
# Queries

What calls have made of a world is seen through queries (`Settlement.Query`). They read the
committed store, and answer as soon as the store can be read (`Settlement.Backend.restored`). On a
world in order they answer with the accounts, the ballots and the observers that are stored in it,
so that every property of these is a property of the answers.
-/

namespace Settlement

variable {γ : Type}

/-- The store when it works. -/
def Backend.restored (b : Backend) : Backend :=
  { b with rejectsWrites := false, unreadable := none }

/-- A transaction is stored in a world under an index. -/
def World.Stores (w : World γ) (x : Digest) (c : Cctx) : Prop :=
  Journal.cctx? w.store.restored x = .ok (some c)

/-- A query about what is stored. -/
inductive Query where
  | ballot (index : Digest)
  | observerSet
  | chainParams (id : ChainId)
  | currentKey
  | pendingNonces (signingKey : String) (chainId : ChainId)
  | fundMigration (chainId : ChainId)
  | cctx (index : Digest)
  | cctxs
  | pendingCctxs (signingKey : String) (chainId : ChainId)
  | outboundTracker (signingKey : String) (chainId : ChainId) (nonce : UInt64)
  | outboundTrackers (signingKey : String) (chainId : ChainId)
  | inboundTrackers (chainId : ChainId)
  | isFinalized (chainId : ChainId) (txHash : String) (eventIndex : UInt64)

namespace Query

/-- What a query answers. -/
@[reducible]
def Answer : Query → Type
  | .ballot _ => Option Ballot
  | .observerSet => ObserverSet
  | .chainParams _ => Option ChainParams
  | .currentKey => Option SigningKey
  | .pendingNonces _ _ => NonceSet
  | .fundMigration _ => Option FundMigration
  | .cctx _ => Option Cctx
  | .cctxs => List Cctx
  | .pendingCctxs _ _ => List Cctx
  | .outboundTracker _ _ _ => Option OutboundTracker
  | .outboundTrackers _ _ => List OutboundTracker
  | .inboundTrackers _ => List InboundTracker
  | .isFinalized _ _ _ => Bool

/-- The meaning of a query: the committed store is read. -/
def run (b : Backend) : (q : Query) → Except CallError q.Answer
  | .ballot index => (Registry.ballot? b index).mapError .registry
  | .observerSet => (Registry.observerSet b).mapError .registry
  | .chainParams id => (Registry.chainParams? b id).mapError .registry
  | .currentKey => (Registry.currentKey? b).mapError .registry
  | .pendingNonces signingKey chainId =>
    (Registry.pendingNonces b signingKey chainId).mapError .registry
  | .fundMigration chainId => (Registry.fundMigration? b chainId).mapError .registry
  | .cctx index => (Journal.cctx? b index).mapError .settlement
  | .cctxs => (Journal.cctxs b).mapError .settlement
  | .pendingCctxs signingKey chainId =>
    (Journal.pendingCctxs b signingKey chainId).mapError .settlement
  | .outboundTracker signingKey chainId nonce =>
    (Journal.outboundTracker? b signingKey chainId nonce).mapError .settlement
  | .outboundTrackers signingKey chainId =>
    (Journal.outboundTrackers b signingKey chainId).mapError .settlement
  | .inboundTrackers chainId => (Journal.inboundTrackers b chainId).mapError .settlement
  | .isFinalized chainId txHash eventIndex =>
    (Journal.isFinalized b chainId txHash eventIndex).mapError .settlement

end Query

/-! ### Reading the store -/

section Read

variable {b : Backend} {l : Ledger}

/-- **Every record of a ledger can be read**, if its lengths are words. -/
theorem getRecord_restored (h : Records b l) (hl : l.Legible) (k : Key) :
    getRecord b.restored k.bytes = .ok (l k.folded) :=
  getRecord_eq_of_records (s := b.restored) h k (hl.fits k) rfl

theorem containsKey_restored (h : Records b l) (k : Key) :
    containsKey b.restored k.bytes = .ok (l k.folded).isSome := by
  have hcontains : ReadableStore.contains b.restored k.bytes
      = .ok ((l k.folded).map Record.encode).isSome :=
    congrArg (Except.ok ∘ Option.isSome) (h k)
  rw [containsKey, hcontains, Option.isSome_map]
  rfl

end Read

/-! ### Answers -/

namespace World.Sound

variable {w : World γ} (h : w.Sound)

include h

theorem cctx?_eq (x : Digest) :
    Journal.cctx? w.store.restored x = .ok (w.accounts.cctx x) :=
  storeError_lift_settlement_eq_ok_iff.2 (getRecord_restored h.records h.legible (.cctx x))

theorem stores_iff {x : Digest} {c : Cctx} : w.Stores x c ↔ w.accounts.cctx x = some c := by
  rw [Stores, h.cctx?_eq, Except.ok.injEq]

theorem isFinalized_eq (chainId : ChainId) (txHash : String) (eventIndex : UInt64) :
    Journal.isFinalized w.store.restored chainId txHash eventIndex
      = .ok (w.accounts.marked (.of chainId txHash eventIndex)) :=
  storeError_lift_settlement_eq_ok_iff.2
    (containsKey_restored h.records (.finalizedInbound chainId txHash eventIndex))

theorem nonceRecord?_eq (lane : Lane) :
    Registry.nonceRecord? w.store.restored lane.signingKey lane.chainId
      = .ok (w.store.ledger (.nonces lane.signingKey lane.chainId)) :=
  storeError_lift_eq_ok_iff.2 (getRecord_restored h.records h.legible (.nonces _ _))

theorem nonceOwner?_eq (t : Ticket) :
    Registry.nonceOwner? w.store.restored t.lane.signingKey t.lane.chainId t.nonce
      = .ok (w.accounts.owner t) :=
  storeError_lift_eq_ok_iff.2 (getRecord_restored h.records h.legible (.nonceOwner _ _ _))

theorem pendingNonces_eq (lane : Lane) :
    Registry.pendingNonces w.store.restored lane.signingKey lane.chainId
      = .ok (w.accounts.nonces lane).pending := by
  refine bind_eq_ok_iff.2 ⟨_, h.nonceRecord?_eq lane, pure_eq_ok_iff.2 ?_⟩
  rw [World.accounts, Ledger.accounts_nonces]
  cases w.store.ledger (.nonces lane.signingKey lane.chainId) <;> rfl

theorem ballot?_eq (index : Digest) :
    Registry.ballot? w.store.restored index = .ok (w.ballots index) :=
  storeError_lift_eq_ok_iff.2 (getRecord_restored h.records h.legible (.ballot index))

theorem observerSet_eq : Registry.observerSet w.store.restored = .ok w.observers :=
  bind_eq_ok_iff.2 ⟨_, storeError_lift_eq_ok_iff.2
    (getRecord_restored h.records h.legible .observerSet), rfl⟩

theorem currentKey?_eq :
    Registry.currentKey? w.store.restored = .ok (w.store.ledger .currentKey) :=
  storeError_lift_eq_ok_iff.2 (getRecord_restored h.records h.legible .currentKey)

theorem chainParams?_eq (id : ChainId) :
    Registry.chainParams? w.store.restored id = .ok (w.store.ledger (.chainParams id)) :=
  storeError_lift_eq_ok_iff.2 (getRecord_restored h.records h.legible (.chainParams id))

end World.Sound

/-! ### A deposit that waits -/

namespace Sample

/-- The service under the initial configurations. -/
def service : Service :=
  ⟨.initial, .initial, rfl, rfl⟩

/-- Nothing is stored, and the gateway and the pool work. -/
def start : World ScriptedGateway :=
  ⟨.empty, .fresh, .fresh⟩

/-- An external chain. -/
def chainId : ChainId :=
  ⟨1⟩

/-- The only observer. -/
def observer : ObserverId :=
  ⟨"observer"⟩

/-- A deposit that is to be paid out on the chain on which it was made. -/
def deposit : InboundVote where
  creator := observer
  sender := "0xSender"
  senderChain := chainId
  txOrigin := ""
  receiver := "0xReceiver"
  receiverChain := chainId
  amount := .ofNat 100
  message := ""
  inboundHash := "0xAB"
  inboundHeight := 1
  gasLimit := 21000
  coinType := .gas
  asset := ""
  eventIndex := 0
  protocolVersion := .v2
  revertOptions := .initial

/-- Governance sets up the chain and its only observer, who then reports the deposit. -/
def calls : List Call := [
  .setObserverSet [observer],
  .registerChain ⟨chainId, "external", .evm⟩ (.ofThreshold chainId 50),
  .registerKey ⟨"key", 1, 1⟩ true,
  .voteInbound ⟨1, 1⟩ deposit]

/-- The world after the deposit is reported. -/
def world : World ScriptedGateway :=
  service.after start calls

/-- What was made of the deposit. -/
def cctx : Cctx :=
  { (Cctx.ofInbound deposit deposit.digest "key" ⟨1, 1⟩).setNonce (some 0) with
    report := ⟨.pendingOutbound, "awaiting outbound", 1, 1⟩ }

/-- The calls are evaluated once for all that is to be known of them. -/
theorem evaluation_of_calls :
    (∀ t ∈ service.turnsOf start calls,
      (service.execute t.world t.call).world.store.Addressable) ∧
    world.accounts.cctx deposit.digest = some cctx := by
  decide +kernel

theorem run : Run service start (service.turnsOf start calls) world :=
  Run.start.calls calls evaluation_of_calls.1

theorem reachable : Reachable service world :=
  ⟨start, _, rfl, run⟩

theorem stores : world.Stores deposit.digest cctx :=
  reachable.sound.stores_iff.2 evaluation_of_calls.2

end Sample

end Settlement
