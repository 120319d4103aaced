import Settlement.Cctx.Destination

/-!
# The gateway to the host chain

Deposits are made through a gateway outside the store. It is asked inside a transition, and
what it did stays done if the transition is then dropped. Any state machine that answers
requests will do; `Settlement.ScriptedGateway` gives answers that were laid down before, and
succeeds when there are none left.
-/

namespace Settlement

/-- A deposit on the host chain. -/
structure DepositRequest where
  cctxIndex : Digest
  sender : String
  senderChain : ChainId
  receiver : String
  amount : U256
  coinType : CoinType
  /-- The asset on the sender chain; empty for gas. -/
  asset : String
  /-- What the receiver is called with; empty for a plain deposit. -/
  payload : Bytes
  protocolVersion : ProtocolVersion
  deriving DecidableEq

/-- The receipt of a deposit. -/
structure DepositReceipt where
  /-- The hash of the transaction on the host chain. -/
  txHash : String
  /-- Whether the receiver was called. -/
  contractCall : Bool
  deriving DecidableEq

/-- The answer to a request. -/
abbrev DepositAnswer := Except DepositError DepositReceipt

/-- A gateway: the answer to a request, and the gateway after it. -/
class Gateway (γ : Type) where
  deposit : γ → DepositRequest → DepositAnswer × γ

/-- A gateway whose next answers are laid down, and that remembers the requests. -/
structure ScriptedGateway where
  /-- The next answers. -/
  script : List DepositAnswer
  /-- The requests so far. -/
  requests : List DepositRequest

namespace ScriptedGateway

/-- A gateway that was never asked and succeeds always. -/
def fresh : ScriptedGateway :=
  ⟨[], []⟩

/-- The gateway with one more answer laid down. -/
def queue (g : ScriptedGateway) (answer : DepositAnswer) : ScriptedGateway :=
  { g with script := g.script ++ [answer] }

/-- The receipt if no answer is laid down: the hash is the index of the transaction. -/
def defaultReceipt (r : DepositRequest) : DepositReceipt :=
  ⟨r.cctxIndex.toHex, r.payload != []⟩

instance : Gateway ScriptedGateway where
  deposit g r :=
    match g.script with
    | [] => (.ok (defaultReceipt r), ⟨[], g.requests ++ [r]⟩)
    | answer :: rest => (answer, ⟨rest, g.requests ++ [r]⟩)

end ScriptedGateway

end Settlement
