import Settlement.Cctx.Basic

/-!
# Destinations of deposits

A deposit on the host chain goes to a receiver, together with call data. The second version of
the protocol names the receiver, and the whole relayed message is call data. In the first one a
message that is not empty starts with the twenty bytes of an address, which takes the place of
the named receiver unless it is zero, and the rest is call data.
-/

namespace Settlement

/-! ### Failures of deposits -/

/-- The kind of failure of a deposit. -/
inductive DepositFault where
  /-- The execution of the receiver failed. -/
  | contractReverted
  /-- There is no contract to call. -/
  | callNonContract
  /-- The cap on the asset is reached. -/
  | assetCapReached
  | assetPaused
  /-- The receiver or the message makes no sense. -/
  | invalidDestination
  | internal
  deriving DecidableEq

namespace DepositFault

/-- The kinds of failure. -/
def all : List DepositFault :=
  [.contractReverted, .callNonContract, .assetCapReached, .assetPaused, .invalidDestination,
    .internal]

/-- The name of a kind in messages. -/
def name : DepositFault → String
  | .contractReverted => "ContractReverted"
  | .callNonContract => "CallNonContract"
  | .assetCapReached => "AssetCapReached"
  | .assetPaused => "AssetPaused"
  | .invalidDestination => "InvalidDestination"
  | .internal => "Internal"

/-- Whether the funds go back to the sender after a failure of this kind. -/
def shouldRevert : DepositFault → Bool
  | .contractReverted => true
  | .callNonContract => true
  | .assetCapReached => true
  | .assetPaused => true
  | .invalidDestination => false
  | .internal => false

end DepositFault

/-- The failure of a deposit. -/
structure DepositError where
  kind : DepositFault
  detail : String
  deriving DecidableEq

/-- The wording of a failure. -/
def DepositError.message (e : DepositError) : String :=
  "deposit failed (" ++ e.kind.name ++ "): " ++ e.detail

/-! ### Destinations -/

/-- Where a deposit goes. -/
structure Destination where
  receiver : String
  /-- What the receiver is called with; empty for a plain deposit. -/
  payload : Bytes
  deriving DecidableEq

namespace Destination

/-- Why a deposit has no destination. -/
inductive Fault where
  /-- The message is no hexadecimal text. -/
  | undecodable (fault : Hex.Fault)
  /-- The message is too short for an address. -/
  | tooShort (length : Nat)
  deriving DecidableEq

/-- The failure of the deposit. -/
def Fault.toDepositError : Fault → DepositError
  | .undecodable fault => ⟨.invalidDestination, "unable to decode message: " ++ fault.message⟩
  | .tooShort length =>
    ⟨.invalidDestination,
      "message of " ++ toString length ++ " bytes is too short to hold an address"⟩

/-- The destination of a decoded message, where `declared` is the named receiver. -/
def ofMessage (version : ProtocolVersion) (declared : String) (message : Bytes) :
    Except Fault Destination :=
  match version with
  | .v2 => .ok ⟨declared, message⟩
  | .v1 =>
    if message = [] then .ok ⟨declared, []⟩
    else if message.length < 20 then .error (.tooShort message.length)
    else
      let address := message.take 20
      let receiver := if address.all (· == 0) then declared else Hex.encodePrefixed address
      .ok ⟨receiver, message.drop 20⟩

/-- The destination of a message, which is hexadecimal text with or without `0x`. -/
def resolve (version : ProtocolVersion) (declared message : String) : Except Fault Destination :=
  match Hex.decode (Hex.trim (Bytes.ofText message)) with
  | .error fault => .error (.undecodable fault)
  | .ok bs => ofMessage version declared bs

end Destination

/-- The destination of the deposit of a transaction. -/
def Cctx.destination (c : Cctx) : Except Destination.Fault Destination :=
  Destination.resolve c.protocolVersion c.outbound.receiver c.relayedMessage

end Settlement
