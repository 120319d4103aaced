import Settlement.Chain
import Settlement.Key
import Settlement.Registry.Error
import Settlement.SigningKey

/-!
# Observers, chains, switches and keys

What governance stores: the observer set, the registered chains with their parameters, the two
switches, the current signing key and the history of keys. Before anything is stored there are
no observers and both switches are on.
-/

namespace Settlement

namespace Registry

variable {σ : Type}

/-! ### Observers -/

/-- The observer set. -/
def observerSet [ReadableStore σ] (s : σ) : Except RegistryError ObserverSet := do
  let stored : Option ObserverSet ← getRecord s Key.observerSet.bytes
  return stored.getD .empty

/-- Sets the observer set. -/
def setObserverSet [WritableStore σ] (s : σ) (observers : ObserverSet) : Except RegistryError σ :=
  do return ← putRecord s Key.observerSet.bytes observers

/-- Adds an observer that is no member yet. -/
def addObserver [WritableStore σ] (s : σ) (id : ObserverId) : Except RegistryError σ := do
  let observers ← observerSet s
  match observers.add? id with
  | none => throw (.observerExists id)
  | some observers => setObserverSet s observers

/-- Exchanges an observer for one that is no member yet. -/
def replaceObserver [WritableStore σ] (s : σ) (old new : ObserverId) :
    Except RegistryError σ := do
  let observers ← observerSet s
  if observers.contains new then
    throw (.observerExists new)
  match observers.replace? old new with
  | none => throw (.observerNotFound old)
  | some observers => setObserverSet s observers

/-! ### Chains -/

/-- A registered chain. -/
def chain? [ReadableStore σ] (s : σ) (id : ChainId) : Except RegistryError (Option Chain) :=
  do return ← getRecord s (Key.chain id).bytes

/-- The parameters of a chain. -/
def chainParams? [ReadableStore σ] (s : σ) (id : ChainId) :
    Except RegistryError (Option ChainParams) :=
  do return ← getRecord s (Key.chainParams id).bytes

/-- The registered chains. -/
def chains [ReadableStore σ] (s : σ) : Except RegistryError (List Chain) :=
  do return ← scanRecords s KeyRange.chains.bytes

/-- Stores a chain. -/
def setChain [WritableStore σ] (s : σ) (chain : Chain) : Except RegistryError σ :=
  do return ← putRecord s (Key.chain chain.chainId).bytes chain

/-- Stores parameters whose threshold is between 1 and 100 percent. -/
def setChainParams [WritableStore σ] (s : σ) (params : ChainParams) : Except RegistryError σ := do
  if params.thresholdPercent = 0 ∨ 100 < params.thresholdPercent then
    throw (.invalidThreshold params.thresholdPercent)
  putRecord s (Key.chainParams params.chainId).bytes params

/-- A chain that is registered and served, with its parameters. -/
def supportedChain [ReadableStore σ] (s : σ) (id : ChainId) :
    Except RegistryError (Chain × ChainParams) := do
  let some chain ← chain? s id | throw (.unsupportedChain id)
  let some params ← chainParams? s id | throw (.unsupportedChain id)
  if params.isSupported then return (chain, params) else throw (.unsupportedChain id)

/-- Registers a chain that is not registered yet. -/
def registerChain [WritableStore σ] (s : σ) (chain : Chain) (params : ChainParams) :
    Except RegistryError σ := do
  if (← chain? s chain.chainId).isSome then
    throw (.chainExists chain.chainId)
  setChainParams (← setChain s chain) params

/-- Changes the parameters of a registered chain. -/
def updateChainParams [WritableStore σ] (s : σ) (params : ChainParams) :
    Except RegistryError σ := do
  if (← chain? s params.chainId).isNone then
    throw (.unsupportedChain params.chainId)
  setChainParams s params

/-! ### Switches -/

/-- The switches. -/
def switches [ReadableStore σ] (s : σ) : Except RegistryError Switches := do
  let stored : Option Switches ← getRecord s Key.switches.bytes
  return stored.getD .initial

/-- Sets the switches. -/
def setSwitches [WritableStore σ] (s : σ) (switches : Switches) : Except RegistryError σ :=
  do return ← putRecord s Key.switches.bytes switches

/-! ### Signing keys -/

/-- The current signing key, if there is one. -/
def currentKey? [ReadableStore σ] (s : σ) : Except RegistryError (Option SigningKey) :=
  do return ← getRecord s Key.currentKey.bytes

/-- The current signing key. -/
def currentKey [ReadableStore σ] (s : σ) : Except RegistryError SigningKey := do
  let some key ← currentKey? s | throw .keyNotFound
  return key

/-- Makes a key the current one. -/
def setCurrentKey [WritableStore σ] (s : σ) (key : SigningKey) : Except RegistryError σ :=
  do return ← putRecord s Key.currentKey.bytes key

/-- The keys of the history, in the order of their generation. -/
def keyHistory [ReadableStore σ] (s : σ) : Except RegistryError (List SigningKey) :=
  do return ← scanRecords s KeyRange.keyHistory.bytes

/-- Adds a key whose public key is not in the history to it. -/
def appendKey [WritableStore σ] (s : σ) (key : SigningKey) : Except RegistryError σ := do
  if (← keyHistory s).any (·.pubkey == key.pubkey) then
    throw (.keyExists key.pubkey)
  putRecord s (Key.keyHistory key.keygenHeight key.pubkey).bytes key

/-- Adds a key to the history, and makes it the current one if asked to. -/
def registerKey [WritableStore σ] (s : σ) (key : SigningKey) (makeCurrent : Bool) :
    Except RegistryError σ := do
  let s ← appendKey s key
  if makeCurrent then setCurrentKey s key else return s

/-- Makes the key of the history with a public key the current one. -/
def activateKey [WritableStore σ] (s : σ) (pubkey : String) : Except RegistryError σ := do
  match (← keyHistory s).find? (·.pubkey == pubkey) with
  | none => throw .keyNotFound
  | some key => setCurrentKey s key

/-- The last key of the history, if it was generated after the current one. -/
def newerKey? [ReadableStore σ] (s : σ) : Except RegistryError (Option SigningKey) := do
  let current ← currentKey s
  let history ← keyHistory s
  return history.getLast?.filter fun latest =>
    latest.pubkey != current.pubkey && current.keygenHeight < latest.keygenHeight

end Registry

end Settlement
