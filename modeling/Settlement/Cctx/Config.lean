import Settlement.Cctx.Error

/-!
# Configuration of the settlement

Which chain is the host, and the limits under which transactions are paid out and tracked.
-/

namespace Settlement

/-- The configuration of the settlement. -/
structure SettlementConfig where
  hostChain : ChainId
  /-- The gas limit for reverts. -/
  revertGasLimit : UInt64
  /-- The share of unused gas fees that is owed to the stability pool, in percent. -/
  poolPercent : UInt8
  /-- How many hashes an outbound tracker holds at most. -/
  maxTrackerHashes : UInt64
  /-- The gas limit for fund migrations. -/
  migrationGasLimit : UInt64
  deriving DecidableEq

namespace SettlementConfig

/-- The configuration unless another one is given. -/
def initial : SettlementConfig :=
  ⟨⟨7000⟩, 250000, 95, 5, 100000⟩

/-- The first fault of a configuration. -/
def fault? (c : SettlementConfig) : Option ConfigFault :=
  if 100 < c.poolPercent then some (.percentTooHigh c.poolPercent)
  else if c.maxTrackerHashes = 0 then some .noTrackerCapacity
  else if c.revertGasLimit = 0 ∨ c.migrationGasLimit = 0 then some .zeroGasLimit
  else none

/-- Rejects a configuration with a fault. -/
def validate (c : SettlementConfig) : Except SettlementError Unit :=
  match c.fault? with
  | some fault => .error (.invalidConfig fault)
  | none => .ok ()

end SettlementConfig

instance : Fields SettlementConfig (ChainId × UInt64 × UInt8 × UInt64 × UInt64) where
  split c := (c.hostChain, c.revertGasLimit, c.poolPercent, c.maxTrackerHashes,
    c.migrationGasLimit)
  join := fun (hostChain, revertGasLimit, poolPercent, maxTrackerHashes, migrationGasLimit) =>
    ⟨hostChain, revertGasLimit, poolPercent, maxTrackerHashes, migrationGasLimit⟩

instance : Layout SettlementConfig :=
  .ofFields

end Settlement
