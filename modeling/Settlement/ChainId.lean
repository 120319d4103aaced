import Settlement.Bytes

/-!
# Chain identifiers

The host chain and the external chains share one space of signed identifiers.
-/

namespace Settlement

/-- The identifier of a chain. -/
structure ChainId where
  /-- The number of the chain. -/
  number : Int64
  deriving DecidableEq

/-- The eight bytes of an identifier in storage keys and hashed texts: the bits of the number,
the most significant byte first, so that negative identifiers come after all others. -/
def ChainId.bytes (c : ChainId) : Bytes :=
  Bytes.ofWord c.number.toUInt64

/-- The decimal text of an identifier. -/
def ChainId.text (c : ChainId) : String :=
  toString c.number.toInt

@[simp]
theorem ChainId.length_bytes (c : ChainId) : c.bytes.length = 8 :=
  Bytes.length_ofWord _

end Settlement
