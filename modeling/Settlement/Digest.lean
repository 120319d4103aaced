import Settlement.Hex
import Settlement.Sha256

/-!
# Digests

Ballots and cross-chain transactions are indexed by SHA-256 digests. A digest is shown as
`0x` and sixty-four lowercase digits, and is read from sixty-four digits of either case with
or without the `0x`.
-/

namespace Settlement

/-- A digest of thirty-two bytes. -/
structure Digest where
  /-- The bytes of the digest. -/
  bytes : Bytes
  /-- There are thirty-two of them. -/
  length_bytes : bytes.length = 32
  deriving DecidableEq

namespace Digest

/-- The digest of a byte string. -/
def of (message : Bytes) : Digest :=
  ⟨Sha256.hash message, Sha256.length_hash message⟩

/-- The digest with the given bytes, if there are thirty-two of them. -/
def ofBytes? (bs : Bytes) : Option Digest :=
  if h : bs.length = 32 then some ⟨bs, h⟩ else none

/-- The text of a digest. -/
def toHex (d : Digest) : String :=
  Hex.encodePrefixed d.bytes

/-- The digest that a text shows. -/
def ofHex? (s : String) : Option Digest :=
  match Hex.decode (Hex.trim (Bytes.ofText s)) with
  | .ok bs => ofBytes? bs
  | .error _ => none

@[ext]
theorem ext {d e : Digest} (h : d.bytes = e.bytes) : d = e := by
  cases d; cases e; cases h; rfl

end Digest

end Settlement
