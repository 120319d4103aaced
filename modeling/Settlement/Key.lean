import Settlement.CaseFold
import Settlement.ChainId
import Settlement.Digest

/-!
# Storage keys

Every record lives under a key that says what it is and of what. A key starts with the tag of
its family; numbers follow in eight bytes with the most significant first, so that the order of
keys is the order of heights and nonces; texts are preceded by their length in four bytes,
unless they end the key. Transaction hashes enter with their case folded.

A listing goes over the keys that start with the bytes of a `Settlement.KeyRange`.
-/

namespace Settlement

/-- What is stored under a key. -/
inductive Key where
  /-- A ballot. -/
  | ballot (index : Digest)
  /-- The index of a ballot, by the height at which it was created. -/
  | ballotByHeight (height : UInt64) (index : Digest)
  | observerSet
  | chain (chainId : ChainId)
  | chainParams (chainId : ChainId)
  | switches
  /-- The current signing key. -/
  | currentKey
  /-- A signing key, by the height of its generation. -/
  | keyHistory (keygenHeight : UInt64) (pubkey : String)
  /-- The nonces of a signing key on a chain. -/
  | nonces (signingKey : String) (chainId : ChainId)
  /-- The owner of a nonce. -/
  | nonceOwner (signingKey : String) (chainId : ChainId) (nonce : UInt64)
  | fundMigration (chainId : ChainId)
  | cctx (index : Digest)
  | outboundTracker (signingKey : String) (chainId : ChainId) (nonce : UInt64)
  | inboundTracker (chainId : ChainId) (txHash : String)
  /-- The mark of an external event that is finalized. -/
  | finalizedInbound (chainId : ChainId) (txHash : String) (eventIndex : UInt64)
  deriving DecidableEq

namespace Key

/-- The tag of the family of a key. -/
def tag : Key → String
  | ballot _ => "ob:b:"
  | ballotByHeight _ _ => "ob:h:"
  | observerSet => "ob:os"
  | chain _ => "ob:ch:"
  | chainParams _ => "ob:cp:"
  | switches => "ob:cf"
  | currentKey => "ob:ck"
  | keyHistory _ _ => "ob:skh:"
  | nonces _ _ => "ob:n:"
  | nonceOwner _ _ _ => "ob:nc:"
  | fundMigration _ => "ob:fm:"
  | cctx _ => "xc:cctx:"
  | outboundTracker _ _ _ => "xc:otr:"
  | inboundTracker _ _ => "xc:itr:"
  | finalizedInbound _ _ _ => "xc:fin:"

/-- The bytes of a key after its tag. -/
def body : Key → Bytes
  | ballot index => index.bytes
  | ballotByHeight height index => Bytes.ofWord height ++ index.bytes
  | observerSet => []
  | chain chainId => chainId.bytes
  | chainParams chainId => chainId.bytes
  | switches => []
  | currentKey => []
  | keyHistory keygenHeight pubkey => Bytes.ofWord keygenHeight ++ Bytes.ofSizedText 4 pubkey
  | nonces signingKey chainId => Bytes.ofSizedText 4 signingKey ++ chainId.bytes
  | nonceOwner signingKey chainId nonce =>
    Bytes.ofSizedText 4 signingKey ++ chainId.bytes ++ Bytes.ofWord nonce
  | fundMigration chainId => chainId.bytes
  | cctx index => index.bytes
  | outboundTracker signingKey chainId nonce =>
    Bytes.ofSizedText 4 signingKey ++ chainId.bytes ++ Bytes.ofWord nonce
  | inboundTracker chainId txHash => chainId.bytes ++ Bytes.ofText (foldCase txHash)
  | finalizedInbound chainId txHash eventIndex =>
    chainId.bytes ++ Bytes.ofWord eventIndex ++ Bytes.ofText (foldCase txHash)

/-- The bytes of a key. -/
def bytes (k : Key) : Bytes :=
  Bytes.ofText k.tag ++ k.body

end Key

/-- The keys that a listing goes over. -/
inductive KeyRange where
  | ballotsByHeight
  | ballotsAt (height : UInt64)
  | chains
  | keyHistory
  | fundMigrations
  | cctxs
  | outboundTrackers (signingKey : String) (chainId : ChainId)
  | inboundTrackers (chainId : ChainId)
  deriving DecidableEq

/-- The bytes with which the keys of a range start. -/
def KeyRange.bytes : KeyRange → Bytes
  | ballotsByHeight => Bytes.ofText "ob:h:"
  | ballotsAt height => Bytes.ofText "ob:h:" ++ Bytes.ofWord height
  | chains => Bytes.ofText "ob:ch:"
  | keyHistory => Bytes.ofText "ob:skh:"
  | fundMigrations => Bytes.ofText "ob:fm:"
  | cctxs => Bytes.ofText "xc:cctx:"
  | outboundTrackers signingKey chainId =>
    Bytes.ofText "xc:otr:" ++ (Bytes.ofSizedText 4 signingKey ++ chainId.bytes)
  | inboundTrackers chainId => Bytes.ofText "xc:itr:" ++ chainId.bytes

end Settlement
