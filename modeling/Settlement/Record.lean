import Settlement.Layout

/-!
# Stored records

A record is a version byte followed by the layout of its value. Bytes that are left over after
the value are ignored.
-/

namespace Settlement

/-- The version byte of every record that is written. -/
def Record.version : UInt8 := 1

/-- What is wrong with a byte string that should be a record. -/
inductive RecordError where
  /-- There is no version byte. -/
  | empty
  /-- The version is another one. -/
  | unsupportedVersion (found : UInt8)
  /-- The bytes after the version do not hold a value. -/
  | unreadable (fault : ReadFault)
  deriving DecidableEq

/-- The wording of an error. -/
def RecordError.message : RecordError → String
  | .empty => "Empty record"
  | .unsupportedVersion found =>
    "Unsupported record version " ++ toString found.toNat ++ ", expected "
      ++ toString Record.version.toNat
  | .unreadable fault => "Decoding failed: " ++ fault.message

namespace Record

variable {α : Type} [Layout α]

/-- The record of a value. -/
def encode (a : α) : Bytes :=
  version :: Layout.write a

/-- The value of a record. -/
def decode : Bytes → Except RecordError α
  | [] => .error .empty
  | v :: bs =>
    if v = version then
      match (Layout.read : Reader α) bs with
      | .error fault => .error (.unreadable fault)
      | .ok (a, _) => .ok a
    else .error (.unsupportedVersion v)

end Record

end Settlement
