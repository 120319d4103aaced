import Settlement.Store.Backend

/-!
# Drafts

A transition runs on a draft: its writes are kept beside a base store that stays as it is.
Reads see the writes first. In the end the draft is turned into one batch that names every
touched key once.
-/

namespace Settlement

/-- A base store with writes that are not made yet. -/
structure Overlay (σ : Type) where
  /-- The store underneath. -/
  base : σ
  /-- The touched keys, with their values or without one if they are deleted. -/
  pending : ByteMap (Option Bytes)

namespace Overlay

variable {σ : Type}

/-- The draft over a store before the first write. -/
def fresh (base : σ) : Overlay σ :=
  ⟨base, .empty⟩

/-- The touched keys after a write. -/
def apply (pending : ByteMap (Option Bytes)) : Write → ByteMap (Option Bytes)
  | .put key value => pending.insert key (some value)
  | .delete key => pending.insert key none

/-- Whether a key was touched. -/
def isDirty (o : Overlay σ) : Bool :=
  !o.pending.entries.isEmpty

/-- The write that brings a touched key to its pending value. -/
def writeOf : Bytes × Option Bytes → Write
  | (key, some value) => .put key value
  | (key, none) => .delete key

/-- The batch of a draft, in the order of the keys. -/
def writes (o : Overlay σ) : List Write :=
  o.pending.entries.map writeOf

/-- The entries of the base with the pending ones put over them. -/
def merge (base : List (Bytes × Bytes)) (pending : List (Bytes × Option Bytes)) :
    ByteMap Bytes :=
  Backend.applyAll (ByteMap.empty.insertMany base) (pending.map writeOf)

instance [ReadableStore σ] : WritableStore (Overlay σ) where
  get o key :=
    match o.pending.find? key with
    | some value => .ok value
    | none => ReadableStore.get o.base key
  contains o key :=
    match o.pending.find? key with
    | some value => .ok value.isSome
    | none => ReadableStore.contains o.base key
  scan o stem :=
    (ReadableStore.scan o.base stem).map fun entries =>
      (merge entries (o.pending.scan stem)).entries
  write o writes := .ok { o with pending := writes.foldl apply o.pending }

end Overlay

end Settlement
