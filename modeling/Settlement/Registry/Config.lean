import Settlement.Registry.Error

/-!
# Configuration of the registry

How ballots end: what happens to a ballot that neither side can win any more, and for how many
host blocks a ballot is kept before it may be pruned. Without a number of blocks nothing is
pruned; a single block is refused, because a ballot could then be pruned in the block in which
it is finalized.
-/

namespace Settlement

/-- The configuration of the registry. -/
structure ObserverConfig where
  stalePolicy : StalePolicy
  /-- How many blocks a ballot is kept; zero if ballots are never pruned. -/
  retentionBlocks : UInt64
  deriving DecidableEq

namespace ObserverConfig

/-- The configuration unless another one is given. -/
def initial : ObserverConfig :=
  ⟨.keepPending, 100000⟩

/-- Accepts every retention but that of one block. -/
def validate (c : ObserverConfig) : Except RegistryError Unit :=
  if c.retentionBlocks = 1 then .error .retentionTooShort else .ok ()

end ObserverConfig

instance : Fields ObserverConfig (StalePolicy × UInt64) where
  split c := (c.stalePolicy, c.retentionBlocks)
  join := fun (policy, blocks) => ⟨policy, blocks⟩

instance : Layout ObserverConfig :=
  .ofFields

end Settlement
