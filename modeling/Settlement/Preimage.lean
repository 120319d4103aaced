import Settlement.ChainId
import Settlement.Digest
import Settlement.U256

/-!
# Hashed texts

What is hashed is a domain name followed by fields. A text or a byte string is preceded by its
length in eight bytes and every other field has a fixed width, so the fields can be told apart
in the hashed byte string.
-/

namespace Settlement

/-- One field of a hashed text. -/
inductive Field where
  | text (s : String)
  | bytes (bs : Bytes)
  | word (n : UInt64)
  | chain (c : ChainId)
  | amount (x : U256)
  deriving DecidableEq

/-- The bytes of a field. -/
def Field.encode : Field → Bytes
  | .text s => Bytes.ofSizedText 8 s
  | .bytes bs => Bytes.big 8 bs.length ++ bs
  | .word n => Bytes.ofWord n
  | .chain c => c.bytes
  | .amount x => x.bytes

/-- A field that is a truth value is hashed as the number one or zero. -/
def Field.flag (b : Bool) : Field :=
  .word (if b then 1 else 0)

/-- What is hashed: a domain name that separates families of digests, and fields. -/
structure Preimage where
  domain : String
  fields : List Field
  deriving DecidableEq

/-- The hashed byte string. -/
def Preimage.bytes (p : Preimage) : Bytes :=
  (Field.text p.domain).encode ++ p.fields.flatMap Field.encode

/-- The digest. -/
def Preimage.digest (p : Preimage) : Digest :=
  Digest.of p.bytes

end Settlement
