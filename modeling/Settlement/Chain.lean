import Settlement.Layout

/-!
# Chains

A chain is registered under its identifier together with its parameters. Two switches turn
inbound and outbound processing off for all chains at once.
-/

namespace Settlement

/-- The kind of network that a chain belongs to; it decides the form of addresses. -/
inductive Network where
  | host
  | evm
  | bitcoin
  | solana
  deriving DecidableEq

/-- The networks, in the order in which records number them. -/
def Network.all : List Network :=
  [.host, .evm, .bitcoin, .solana]

/-- A registered chain. -/
structure Chain where
  chainId : ChainId
  name : String
  network : Network
  deriving DecidableEq

/-- Every chain but the host is external. -/
def Chain.isExternal (c : Chain) : Bool :=
  c.network != .host

/-- The parameters of a registered chain. -/
structure ChainParams where
  chainId : ChainId
  /-- The share of the observers, in percent, that decides a ballot on this chain. -/
  thresholdPercent : UInt8
  /-- How many blocks of the chain observers wait before they report. -/
  confirmationCount : UInt64
  /-- Whether the chain is served at all. -/
  isSupported : Bool
  deriving DecidableEq

/-- The parameters of a supported chain that waits for one block. -/
def ChainParams.ofThreshold (chainId : ChainId) (thresholdPercent : UInt8) : ChainParams :=
  ⟨chainId, thresholdPercent, 1, true⟩

/-- The switches for inbound and outbound processing. -/
structure Switches where
  inboundEnabled : Bool
  outboundEnabled : Bool
  deriving DecidableEq

/-- Both switches are on until they are set. -/
def Switches.initial : Switches :=
  ⟨true, true⟩

/-- The host block in which a call is processed. -/
structure Block where
  height : UInt64
  /-- The time of the block, in seconds. -/
  timestamp : UInt64
  deriving DecidableEq

/-! ### Layouts -/

instance : Layout Network :=
  .ofAlternatives Network.all

instance : Fields Chain (ChainId × String × Network) where
  split c := (c.chainId, c.name, c.network)
  join := fun (chainId, name, network) => ⟨chainId, name, network⟩

instance : Layout Chain :=
  .ofFields

instance : Fields ChainParams (ChainId × UInt8 × UInt64 × Bool) where
  split p := (p.chainId, p.thresholdPercent, p.confirmationCount, p.isSupported)
  join := fun (chainId, thresholdPercent, confirmationCount, isSupported) => ⟨chainId,
    thresholdPercent, confirmationCount, isSupported⟩

instance : Layout ChainParams :=
  .ofFields

instance : Fields Switches (Bool × Bool) where
  split s := (s.inboundEnabled, s.outboundEnabled)
  join := fun (inbound, outbound) => ⟨inbound, outbound⟩

instance : Layout Switches :=
  .ofFields

instance : Fields Block (UInt64 × UInt64) where
  split b := (b.height, b.timestamp)
  join := fun (height, timestamp) => ⟨height, timestamp⟩

instance : Layout Block :=
  .ofFields

end Settlement
