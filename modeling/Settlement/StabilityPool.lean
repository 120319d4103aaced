import Settlement.ChainId
import Settlement.U256

/-!
# The stability pool

The share of unused gas fees is credited to a pool for every chain. The pool is asked after a
transition is committed, and may refuse, which changes nothing else.
-/

namespace Settlement

/-- A request to credit the pool of a chain. -/
structure PoolRequest where
  chainId : ChainId
  amount : U256
  /-- Whether the pool was credited. -/
  credited : Bool
  deriving DecidableEq

/-- The stability pool. -/
structure StabilityPool where
  /-- Whether the pool refuses. -/
  isFailing : Bool
  /-- The requests so far. -/
  requests : List PoolRequest
  deriving DecidableEq

namespace StabilityPool

/-- A pool that was never asked. -/
def fresh : StabilityPool :=
  ⟨false, []⟩

/-- The pool after a request. -/
def fund (p : StabilityPool) (chainId : ChainId) (amount : U256) : StabilityPool :=
  { p with requests := p.requests ++ [⟨chainId, amount, !p.isFailing⟩] }

/-- The wording of a refusal. -/
def refusal (chainId : ChainId) : String :=
  "stability pool funding failed: pool for chain " ++ chainId.text ++ " unavailable"

/-- What was credited, in the order of the requests. -/
def fundings (p : StabilityPool) : List (ChainId × U256) :=
  (p.requests.filter PoolRequest.credited).map fun r => (r.chainId, r.amount)

/-- What was credited for a chain in all, at most the greatest number of 256 bits. -/
def balance (p : StabilityPool) (chainId : ChainId) : U256 :=
  (p.fundings.filter (·.1 = chainId)).foldl (fun sum f => sum.addCapped f.2) .zero

end StabilityPool

end Settlement
