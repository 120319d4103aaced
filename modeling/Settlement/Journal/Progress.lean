import Settlement.Event
import Settlement.Journal.Basic
import Settlement.Registry.Governance
import Settlement.Registry.Nonces

/-!
# The steps of a transition

A transition about one cross-chain transaction carries the store, the transaction as it is at
that moment, and what is to be released once the transition is committed: events, and at most
one credit of the stability pool. The steps in this file are those that several transitions
share.
-/

namespace Settlement

/-! ### What is released after the commit -/

/-- A credit that is owed to the stability pool. -/
structure PoolFunding where
  cctxIndex : Digest
  chainId : ChainId
  amount : U256
  deriving DecidableEq

/-- What is released once a transition is committed. -/
structure Effects where
  /-- The events, in the order in which they are published. -/
  events : List Event
  funding : Option PoolFunding
  deriving DecidableEq

namespace Effects

/-- Nothing is released. -/
def none : Effects :=
  ⟨[], .none⟩

/-- One more event is released. -/
def emit (e : Effects) (event : Event) : Effects :=
  { e with events := e.events ++ [event] }

end Effects

/-! ### The transaction at work -/

/-- A transition about a transaction. -/
structure Progress (σ : Type) where
  store : σ
  cctx : Cctx
  effects : Effects

namespace Progress

variable {σ : Type}

/-- One more event is released. -/
def emit (p : Progress σ) (event : Event) : Progress σ :=
  { p with effects := p.effects.emit event }

/-- Moves the transaction to another state, and says so. -/
def advance (p : Progress σ) (next : CctxStatus) (message : String) (block : Block) :
    Except SettlementError (Progress σ) := do
  let c ← p.cctx.setStatus next message block.timestamp
  return { p with cctx := c }.emit (.statusChanged c.index p.cctx.status next message)

/-- Gives up the transaction: the attempt in flight counts as executed. -/
def abort (p : Progress σ) (message : String) (block : Block) :
    Except SettlementError (Progress σ) :=
  { p with cctx := p.cctx.executeCurrent }.advance .aborted message block

/-- Reserves a nonce for the attempt in flight, and enters its owner. -/
def assignNonce [WritableStore σ] (p : Progress σ) : Except SettlementError (Progress σ) := do
  let a := p.cctx.current
  let (nonce, s) ← Registry.reserveNonce p.store a.signingKey a.chainId
  let s ← Registry.setNonceOwner s a.signingKey a.chainId nonce p.cctx.index
  return { p with store := s, cctx := p.cctx.setNonce (some nonce) }.emit
    (.nonceReserved p.cctx.index a.signingKey a.chainId nonce)

/-- Stores the transaction, if it satisfies the invariants. -/
def save [WritableStore σ] (p : Progress σ) : Except SettlementError (Progress σ) := do
  p.cctx.validate
  return { p with store := ← Journal.setCctx p.store p.cctx }

end Progress

/-! ### Checks -/

namespace Journal

variable {σ : Type}

/-- An unsupported chain is an error of the message; any other error of the registry stays
one. -/
def chainError : RegistryError → SettlementError
  | .unsupportedChain chainId => .unsupportedChain chainId
  | error => .registry error

/-- A chain that is registered and served. -/
def supportedChain [ReadableStore σ] (s : σ) (id : ChainId) : Except SettlementError Chain :=
  ((Registry.supportedChain s id).map Prod.fst).mapError chainError

/-- A chain that is registered, served and not the host. -/
def externalChain [ReadableStore σ] (s : σ) (id : ChainId) : Except SettlementError Chain := do
  let chain ← supportedChain s id
  if chain.isExternal then return chain else throw (.unsupportedChain id)

/-- Rejects a reporter that is no observer. -/
def ensureObserver [ReadableStore σ] (s : σ) (id : ObserverId) : Except SettlementError Unit := do
  unless (← Registry.observerSet s).contains id do
    throw (.notAnObserver id)

end Journal

end Settlement
