import Settlement.Store.Overlay

/-!
# Transitions

A transition is all or nothing. It runs on a draft over the committed store; if it succeeds,
the draft is committed in one batch, and otherwise it is dropped. A transition that touched no
key commits nothing, so it succeeds even if the store rejects writes.
-/

namespace Settlement

/-- The draft of a transition. -/
abbrev Draft := Overlay Backend

variable {α ε : Type}

/-- The committed store after the draft of a transition is committed. -/
def Overlay.commit (draft : Draft) : Except StoreError Backend :=
  if draft.isDirty then writeAll draft.base draft.writes else .ok draft.base

/-- Commits the draft of a transition that has come to a result. An error, that of the
transition or that of the commit, leaves the store as it is. -/
def Backend.conclude (b : Backend) (ofStore : StoreError → ε) (result : Except ε (α × Draft)) :
    Except ε α × Backend :=
  match result with
  | .error e => (.error e, b)
  | .ok (a, draft) =>
    match draft.commit with
    | .error e => (.error (ofStore e), b)
    | .ok b' => (.ok a, b')

/-- Runs a transition and commits its draft. -/
def Backend.transact (b : Backend) (ofStore : StoreError → ε)
    (run : Draft → Except ε (α × Draft)) : Except ε α × Backend :=
  b.conclude ofStore (run (.fresh b))

end Settlement
