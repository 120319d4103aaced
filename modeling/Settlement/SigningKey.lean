import Settlement.Chain

/-!
# Signing keys

The custody of every external chain is held by a signing key. One key is current at a time;
keys of later ceremonies are kept in a history. A key has an address on every chain, which is
derived from the digest of its public key.
-/

namespace Settlement

/-- A signing key. -/
structure SigningKey where
  /-- The public key, as text. -/
  pubkey : String
  /-- The host height at which the key was generated. -/
  keygenHeight : UInt64
  /-- The host height at which the key was registered. -/
  finalizedHeight : UInt64
  deriving DecidableEq

namespace SigningKey

/-- The address of a public key with the given digest: the last twenty bytes on the host and
on EVM chains, the first twenty on Bitcoin, and all of them on Solana. -/
def addressOfDigest (digest : Bytes) : Network → String
  | .host | .evm => Hex.encodePrefixed (digest.drop 12)
  | .bitcoin => "bc1q" ++ Hex.encode (digest.take 20)
  | .solana => Hex.encode digest

/-- The address of a key on a network. -/
def address (key : SigningKey) (network : Network) : String :=
  addressOfDigest (Sha256.hash (Bytes.ofText key.pubkey)) network

end SigningKey

/-! ### Layouts -/

instance : Fields SigningKey (String × UInt64 × UInt64) where
  split k := (k.pubkey, k.keygenHeight, k.finalizedHeight)
  join := fun (pubkey, keygenHeight, finalizedHeight) => ⟨pubkey, keygenHeight, finalizedHeight⟩

instance : Layout SigningKey :=
  .ofFields

end Settlement
