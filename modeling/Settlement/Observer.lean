import Settlement.Layout

/-!
# Observers

Observers are the host-chain accounts that may vote on what they see on other chains. The
observer set lists them in the order in which they were registered. A ballot is decided by a
share of the set, which is turned into a number of votes by `Settlement.ObserverSet.quorum`.
-/

namespace Settlement

/-- The account of an observer. -/
structure ObserverId where
  account : String
  deriving DecidableEq

/-- The observers that may vote, in the order of their registration. -/
structure ObserverSet where
  members : List ObserverId
  deriving DecidableEq

namespace ObserverSet

/-- The set without members. -/
def empty : ObserverSet :=
  ⟨[]⟩

/-- Whether an account is a member. -/
def contains (s : ObserverSet) (id : ObserverId) : Bool :=
  s.members.contains id

/-- The set with an account at the end, or nothing if it is a member already. -/
def add? (s : ObserverSet) (id : ObserverId) : Option ObserverSet :=
  if s.contains id then none else some ⟨s.members ++ [id]⟩

/-- The set of some accounts, each at its first place. -/
def ofList (ids : List ObserverId) : ObserverSet :=
  ids.foldl (fun s id => (s.add? id).getD s) empty

/-- A list with the first occurrence of a member exchanged. -/
def exchange (old new : ObserverId) : List ObserverId → Option (List ObserverId)
  | [] => none
  | id :: rest => if id = old then some (new :: rest) else (exchange old new rest).map (id :: ·)

/-- The set with a member exchanged for an account that takes its place, or nothing if the
account is a member already or the member is none. -/
def replace? (s : ObserverSet) (old new : ObserverId) : Option ObserverSet :=
  if s.contains new then none else (exchange old new s.members).map (⟨·⟩)

/-- The number of members. -/
def size (s : ObserverSet) : Nat :=
  s.members.length

/-- How many votes decide a ballot: the given percentage of the members, rounded up, and at
least one. -/
def quorum (s : ObserverSet) (percent : UInt8) : Nat :=
  max 1 ((s.size * percent.toNat + 99) / 100)

end ObserverSet

/-! ### Layouts -/

instance : Layout ObserverId :=
  .via ObserverId.account ObserverId.mk

instance : Fields ObserverSet (List ObserverId) where
  split := ObserverSet.members
  join := ObserverSet.mk

instance : Layout ObserverSet :=
  .ofFields

end Settlement
