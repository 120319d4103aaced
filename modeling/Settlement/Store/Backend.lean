import Settlement.Store.Basic

/-!
# The committed store

The committed entries, with two ways in which the store can fail: it may reject every write,
and the keys that start with some bytes may be unreadable. A batch of writes is made as a whole
or not at all.
-/

namespace Settlement

/-- The committed store. -/
structure Backend where
  /-- The committed entries. -/
  entries : ByteMap Bytes
  /-- Whether every write fails. -/
  rejectsWrites : Bool
  /-- Keys that start with these bytes cannot be read. -/
  unreadable : Option Bytes

namespace Backend

/-- The store without entries, which works. -/
def empty : Backend :=
  ⟨.empty, false, none⟩

/-- The entries after a write. -/
def apply (m : ByteMap Bytes) : Write → ByteMap Bytes
  | .put key value => m.insert key value
  | .delete key => m.erase key

/-- The entries after writes, one after the other. -/
def applyAll (m : ByteMap Bytes) (writes : List Write) : ByteMap Bytes :=
  writes.foldl apply m

/-- A read under a key, or of the entries under some leading bytes, fails if these start with
the unreadable bytes. -/
def checkReadable (b : Backend) (key : Bytes) : Except StoreFault Unit :=
  match b.unreadable with
  | none => .ok ()
  | some stem => if stem.isPrefixOf key then .error .unreadable else .ok ()

instance : WritableStore Backend where
  get b key := (b.checkReadable key).map fun _ => b.entries.find? key
  contains b key := (b.checkReadable key).map fun _ => (b.entries.find? key).isSome
  scan b stem := (b.checkReadable stem).map fun _ => b.entries.scan stem
  write b writes :=
    if b.rejectsWrites then .error .writeRejected
    else .ok { b with entries := applyAll b.entries writes }

end Backend

end Settlement
