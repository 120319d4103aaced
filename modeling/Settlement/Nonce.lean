import Settlement.Layout

/-!
# Nonces

Every signing key numbers its outbound transactions on every chain, starting from zero. The
nonce record of a key and a chain holds the next number and the numbers that are still pending.
A second record leads from a number back to the cross-chain transaction that owns it, and a
third one marks the chain on which the funds are being moved to another key.
-/

namespace Settlement

/-! ### Sets of nonces -/

/-- A finite set of words, listed in increasing order. -/
structure NonceSet where
  /-- The elements. -/
  toList : List UInt64
  /-- They increase. -/
  sorted : toList.Pairwise (· < ·)
  deriving DecidableEq

namespace NonceSet

/-- An increasing list with a word put in its place. -/
def insertWord (n : UInt64) : List UInt64 → List UInt64
  | [] => [n]
  | m :: ms => if n < m then n :: m :: ms else if n = m then m :: ms else m :: insertWord n ms

theorem mem_insertWord {n x : UInt64} {ms : List UInt64} :
    x ∈ insertWord n ms ↔ x = n ∨ x ∈ ms := by
  induction ms with
  | nil => simp [insertWord]
  | cons m ms ih =>
    rw [insertWord]
    split
    · simp
    · split
      · rename_i heq
        simp [heq]
      · simp only [List.mem_cons, ih, ← or_assoc, or_comm (a := x = m)]

theorem sorted_insertWord (n : UInt64) {ms : List UInt64} (h : ms.Pairwise (· < ·)) :
    (insertWord n ms).Pairwise (· < ·) := by
  induction ms with
  | nil => simp [insertWord]
  | cons m ms ih =>
    obtain ⟨hm, hms⟩ := List.pairwise_cons.1 h
    rw [insertWord]
    split
    · rename_i hlt
      refine List.pairwise_cons.2 ⟨fun x hx => ?_, h⟩
      rcases List.mem_cons.1 hx with rfl | hx
      · exact hlt
      · exact UInt64.lt_trans hlt (hm x hx)
    · rename_i hle
      split
      · exact h
      · rename_i hne
        refine List.pairwise_cons.2 ⟨fun x hx => ?_, ih hms⟩
        rcases mem_insertWord.1 hx with rfl | hx
        · exact UInt64.lt_of_le_of_ne (UInt64.not_lt.1 hle) (Ne.symm hne)
        · exact hm x hx

/-- The set without elements. -/
def empty : NonceSet :=
  ⟨[], .nil⟩

/-- The set with an element. -/
def insert (s : NonceSet) (n : UInt64) : NonceSet :=
  ⟨insertWord n s.toList, sorted_insertWord n s.sorted⟩

/-- The set without an element. -/
def erase (s : NonceSet) (n : UInt64) : NonceSet :=
  ⟨s.toList.filter (· != n), s.sorted.filter _⟩

/-- Whether a word is an element. -/
def contains (s : NonceSet) (n : UInt64) : Bool :=
  s.toList.contains n

/-- The set of the words of a list. -/
def ofList (ns : List UInt64) : NonceSet :=
  ns.foldl insert empty

/-- The number of elements. -/
def size (s : NonceSet) : Nat :=
  s.toList.length

end NonceSet

/-! ### Records -/

/-- The nonces of a signing key on a chain. -/
structure NonceRecord where
  signingKey : String
  chainId : ChainId
  /-- The next nonce. -/
  next : UInt64
  /-- The nonces whose outbound transactions are not settled. -/
  pending : NonceSet
  deriving DecidableEq

namespace NonceRecord

/-- The record before the first nonce. -/
def fresh (signingKey : String) (chainId : ChainId) : NonceRecord :=
  ⟨signingKey, chainId, 0, .empty⟩

/-- The next nonce, and the record in which it is pending. -/
def reserve (r : NonceRecord) : UInt64 × NonceRecord :=
  (r.next, { r with next := r.next + 1, pending := r.pending.insert r.next })

/-- Whether a nonce is pending. -/
def isPending (r : NonceRecord) (nonce : UInt64) : Bool :=
  r.pending.contains nonce

/-- The record in which a nonce is not pending, and whether it was; or nothing if the nonce was
never reserved. -/
def release? (r : NonceRecord) (nonce : UInt64) : Option (Bool × NonceRecord) :=
  if r.next ≤ nonce then none
  else some (r.isPending nonce, { r with pending := r.pending.erase nonce })

end NonceRecord

/-- The owner of a nonce. -/
structure NonceOwner where
  signingKey : String
  chainId : ChainId
  nonce : UInt64
  cctxIndex : Digest
  deriving DecidableEq

/-- The mark of a chain whose funds are being moved. -/
structure FundMigration where
  chainId : ChainId
  cctxIndex : Digest
  createdHeight : UInt64
  deriving DecidableEq

/-! ### Layouts -/

instance : Layout NonceSet :=
  .via NonceSet.toList NonceSet.ofList

instance : Fields NonceRecord (String × ChainId × UInt64 × NonceSet) where
  split r := (r.signingKey, r.chainId, r.next, r.pending)
  join := fun (signingKey, chainId, next, pending) => ⟨signingKey, chainId, next, pending⟩

instance : Layout NonceRecord :=
  .ofFields

instance : Fields NonceOwner (String × ChainId × UInt64 × Digest) where
  split o := (o.signingKey, o.chainId, o.nonce, o.cctxIndex)
  join := fun (signingKey, chainId, nonce, cctxIndex) => ⟨signingKey, chainId, nonce, cctxIndex⟩

instance : Layout NonceOwner :=
  .ofFields

instance : Fields FundMigration (ChainId × Digest × UInt64) where
  split m := (m.chainId, m.cctxIndex, m.createdHeight)
  join := fun (chainId, cctxIndex, createdHeight) => ⟨chainId, cctxIndex, createdHeight⟩

instance : Layout FundMigration :=
  .ofFields

end Settlement
