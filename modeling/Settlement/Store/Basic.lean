import Settlement.Record
import Settlement.Store.ByteMap

/-!
# Stores

A store answers reads under a key and lists its entries under some leading bytes, in the order
of their keys; a writable one also takes writes. Both may fail. On top of that, values are
stored as records, and a record that does not decode is an error of its own.

The same functions run on the committed store (`Settlement.Backend`) and on the draft of a
transition (`Settlement.Overlay`).
-/

namespace Settlement

/-! ### Failures -/

/-- Why the store itself fails. -/
inductive StoreFault where
  /-- The store takes no writes. -/
  | writeRejected
  /-- What is stored cannot be read. -/
  | unreadable
  deriving DecidableEq

/-- The wording of a failure. -/
def StoreFault.message : StoreFault → String
  | .writeRejected => "I/O error: write rejected by backend"
  | .unreadable => "Store corrupted: unreadable"

/-- Why a record cannot be read or written. -/
inductive StoreError where
  | store (fault : StoreFault)
  | record (error : RecordError)
  deriving DecidableEq

/-- The wording of an error is that of its cause. -/
def StoreError.message : StoreError → String
  | .store fault => fault.message
  | .record error => error.message

/-! ### Reads and writes -/

/-- A single write. -/
inductive Write where
  | put (key value : Bytes)
  | delete (key : Bytes)
  deriving DecidableEq

/-- The key that a write concerns. -/
def Write.key : Write → Bytes
  | .put key _ => key
  | .delete key => key

/-- A store that can be read. -/
class ReadableStore (σ : Type) where
  /-- The value under a key. -/
  get : σ → Bytes → Except StoreFault (Option Bytes)
  /-- Whether there is a value under a key. -/
  contains : σ → Bytes → Except StoreFault Bool
  /-- The entries whose keys start with the given bytes, in the order of their keys. -/
  scan : σ → Bytes → Except StoreFault (List (Bytes × Bytes))

/-- A store that can be read and written. -/
class WritableStore (σ : Type) extends ReadableStore σ where
  /-- The store after all the writes, one after the other; or none of them is made. -/
  write : σ → List Write → Except StoreFault σ

/-! ### Records -/

section Records

variable {σ α : Type}

/-- The record under a key. -/
def getRecord [ReadableStore σ] [Layout α] (s : σ) (key : Bytes) :
    Except StoreError (Option α) :=
  match ReadableStore.get s key with
  | .error fault => .error (.store fault)
  | .ok none => .ok none
  | .ok (some bs) =>
    match Record.decode bs with
    | .error error => .error (.record error)
    | .ok a => .ok (some a)

/-- The values of records, or the error of the first that does not decode. -/
def decodeAll [Layout α] : List Bytes → Except StoreError (List α)
  | [] => .ok []
  | bs :: rest =>
    match Record.decode bs with
    | .error error => .error (.record error)
    | .ok a => (decodeAll rest).map (a :: ·)

/-- The records whose keys start with the given bytes, in the order of their keys. -/
def scanRecords [ReadableStore σ] [Layout α] (s : σ) (stem : Bytes) :
    Except StoreError (List α) :=
  match ReadableStore.scan s stem with
  | .error fault => .error (.store fault)
  | .ok entries => decodeAll (entries.map Prod.snd)

/-- Whether there is a value under a key, whatever it is. -/
def containsKey [ReadableStore σ] (s : σ) (key : Bytes) : Except StoreError Bool :=
  (ReadableStore.contains s key).mapError .store

/-- The store after writes. -/
def writeAll [WritableStore σ] (s : σ) (writes : List Write) : Except StoreError σ :=
  (WritableStore.write s writes).mapError .store

/-- The store with the record under a key set. -/
def putRecord [WritableStore σ] [Layout α] (s : σ) (key : Bytes) (a : α) : Except StoreError σ :=
  writeAll s [.put key (Record.encode a)]

/-- The store without a key. A key that is not there is no error. -/
def deleteRecord [WritableStore σ] (s : σ) (key : Bytes) : Except StoreError σ :=
  writeAll s [.delete key]

end Records

end Settlement
