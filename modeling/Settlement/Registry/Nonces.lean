import Settlement.Key
import Settlement.Registry.Error

/-!
# Nonces and fund migrations in the store

A nonce record is an ordinary record, so a reservation is committed or dropped together with
the transition that made it.
-/

namespace Settlement

namespace Registry

variable {σ : Type}

/-! ### Nonces -/

/-- The nonces of a signing key on a chain. -/
def nonceRecord? [ReadableStore σ] (s : σ) (signingKey : String) (chainId : ChainId) :
    Except RegistryError (Option NonceRecord) :=
  do return ← getRecord s (Key.nonces signingKey chainId).bytes

/-- Reserves the next nonce of a signing key on a chain. -/
def reserveNonce [WritableStore σ] (s : σ) (signingKey : String) (chainId : ChainId) :
    Except RegistryError (UInt64 × σ) := do
  let stored ← nonceRecord? s signingKey chainId
  let (nonce, record) := (stored.getD (.fresh signingKey chainId)).reserve
  let s ← putRecord s (Key.nonces signingKey chainId).bytes record
  return (nonce, s)

/-- Releases a nonce. Nothing is written if the nonce is not pending, or if the key has no
nonces on the chain. -/
def releaseNonce [WritableStore σ] (s : σ) (signingKey : String) (chainId : ChainId)
    (nonce : UInt64) : Except RegistryError σ := do
  let some record ← nonceRecord? s signingKey chainId | return s
  match record.release? nonce with
  | none =>
    throw (.nonceNotIssued record.signingKey record.chainId nonce record.next)
  | some (wasPending, record) =>
    if wasPending then putRecord s (Key.nonces signingKey chainId).bytes record else return s

/-- The pending nonces of a signing key on a chain. -/
def pendingNonces [ReadableStore σ] (s : σ) (signingKey : String) (chainId : ChainId) :
    Except RegistryError NonceSet := do
  let stored ← nonceRecord? s signingKey chainId
  return (stored.map NonceRecord.pending).getD .empty

/-- The owner of a nonce. -/
def nonceOwner? [ReadableStore σ] (s : σ) (signingKey : String) (chainId : ChainId)
    (nonce : UInt64) : Except RegistryError (Option NonceOwner) :=
  do return ← getRecord s (Key.nonceOwner signingKey chainId nonce).bytes

/-- Sets the owner of a nonce. -/
def setNonceOwner [WritableStore σ] (s : σ) (signingKey : String) (chainId : ChainId)
    (nonce : UInt64) (cctxIndex : Digest) : Except RegistryError σ := do
  let owner : NonceOwner := ⟨signingKey, chainId, nonce, cctxIndex⟩
  putRecord s (Key.nonceOwner signingKey chainId nonce).bytes owner

/-! ### Fund migrations -/

/-- The fund migration that is under way on a chain. -/
def fundMigration? [ReadableStore σ] (s : σ) (chainId : ChainId) :
    Except RegistryError (Option FundMigration) :=
  do return ← getRecord s (Key.fundMigration chainId).bytes

/-- Marks a chain as having a fund migration under way. -/
def setFundMigration [WritableStore σ] (s : σ) (migration : FundMigration) :
    Except RegistryError σ :=
  do return ← putRecord s (Key.fundMigration migration.chainId).bytes migration

/-- Removes the mark of a chain. -/
def removeFundMigration [WritableStore σ] (s : σ) (chainId : ChainId) : Except RegistryError σ :=
  do return ← deleteRecord s (Key.fundMigration chainId).bytes

/-- The fund migrations that are under way. -/
def fundMigrations [ReadableStore σ] (s : σ) : Except RegistryError (List FundMigration) :=
  do return ← scanRecords s KeyRange.fundMigrations.bytes

end Registry

end Settlement
