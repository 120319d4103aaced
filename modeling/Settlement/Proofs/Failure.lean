import Settlement.Proofs.Store
import Settlement.Service

/-!
# What a failure tells

A chain of steps and checks fails with the error of the first of them that does. That all its
errors are of some kind (`Settlement.FailsWith`) is therefore said link by link, and of every link
under the condition that those before it succeeded.

Some errors are internal: they say that the program has broken a rule of its own, or that it has
found a record which it cannot read. Every other error tells the caller what is wrong with the call,
or that the store has failed.

A call is refused with the error of its transition, and besides only if the store takes no writes.
-/

namespace Settlement

variable {ε ε' α β : Type} {P : ε → Prop} {Q : ε' → Prop}

/-- Whatever a computation fails with, it is an error of a kind. -/
def FailsWith (P : ε → Prop) (x : Except ε α) : Prop :=
  ∀ e, x = .error e → P e

namespace FailsWith

/-! ### Chains -/

theorem ok (a : α) : FailsWith P (.ok a : Except ε α) :=
  fun _ => nofun

theorem error {e : ε} (h : P e) : FailsWith P (.error e : Except ε α) := by
  rintro _ ⟨⟩
  exact h

theorem throw_bind {e : ε} {f : α → Except ε β} (h : P e) : FailsWith P (throw e >>= f) :=
  error h

/-- A chain fails as its first step does, or as what comes after it. -/
theorem bind {x : Except ε α} {f : α → Except ε β} (hx : FailsWith P x)
    (hf : ∀ a, x = .ok a → FailsWith P (f a)) : FailsWith P (x >>= f) := by
  cases x with
  | error e => exact error (hx e rfl)
  | ok a => exact hf a rfl

/-- What is made of a result cannot fail. -/
theorem bind_pure {x : Except ε α} (hx : FailsWith P x) (f : α → β) :
    FailsWith P (do let a ← x; pure (f a)) :=
  hx.bind fun a _ => ok (f a)

theorem map {x : Except ε α} (hx : FailsWith P x) (f : α → β) : FailsWith P (x.map f) := by
  cases x with
  | error e => exact error (hx e rfl)
  | ok a => exact ok (f a)

/-- An error under another name. -/
theorem mapError {x : Except ε' α} {f : ε' → ε} (hx : FailsWith Q x) (h : ∀ e, Q e → P (f e)) :
    FailsWith P (x.mapError f) := by
  cases x with
  | error e => exact error (h e (hx e rfl))
  | ok a => exact ok a

/-- Under other names all errors may be of a kind, whatever they were. -/
theorem mapError_of_forall (x : Except ε' α) {f : ε' → ε} (h : ∀ e, P (f e)) :
    FailsWith P (x.mapError f) :=
  mapError (Q := fun _ => True) (fun _ _ => trivial) fun e _ => h e

theorem storeError_lift {P : RegistryError → Prop} {x : Except StoreError α}
    (hx : FailsWith (fun e => P (.store e)) x) :
    FailsWith P (liftM x : Except RegistryError α) :=
  hx.mapError fun _ => id

theorem registryError_lift {P : SettlementError → Prop} {x : Except RegistryError α}
    (hx : FailsWith (fun e => P (.registry e)) x) :
    FailsWith P (liftM x : Except SettlementError α) :=
  hx.mapError fun _ => id

theorem storeError_lift_settlement {P : SettlementError → Prop} {x : Except StoreError α}
    (hx : FailsWith (fun e => P (.store e)) x) :
    FailsWith P (liftM x : Except SettlementError α) :=
  hx.mapError fun _ => id

theorem mono {P P' : ε → Prop} {x : Except ε α} (hx : FailsWith P x) (h : ∀ e, P e → P' e) :
    FailsWith P' x :=
  fun e he => h e (hx e he)

theorem of_forall (x : Except ε α) (h : ∀ e, P e) : FailsWith P x :=
  fun e _ => h e

/-- What has nothing to fail with succeeds. -/
theorem exists_ok {x : Except ε α} (hx : FailsWith P x) (h : ∀ e, ¬P e) : ∃ a, x = .ok a := by
  cases x with
  | error e => exact absurd (hx e rfl) (h e)
  | ok a => exact ⟨a, rfl⟩

/-! ### Checks -/

variable {p : Prop} [Decidable p]

theorem ite {x y : Except ε α} (hx : p → FailsWith P x) (hy : ¬p → FailsWith P y) :
    FailsWith P (if p then x else y) := by
  split
  · next hp => exact hx hp
  · next hp => exact hy hp

/-- What comes after a check fails if the fault is there, or for itself. -/
theorem guard {e : ε} {f : α → Except ε β} {x : Except ε β} (he : p → P e)
    (hx : ¬p → FailsWith P x) : FailsWith P (if p then throw e >>= f else x) :=
  ite (fun hp => throw_bind (he hp)) hx

/-- What comes after a check fails if the condition does not hold, or for itself. -/
theorem check {e : ε} {f : α → Except ε β} {x : Except ε β} (he : ¬p → P e)
    (hx : p → FailsWith P x) : FailsWith P (if p then x else throw e >>= f) :=
  ite hx fun hp => throw_bind (he hp)

/-- A step that is made under a condition only. -/
theorem when {x : Except ε α} {y : Except ε β} (hx : p → FailsWith P x) (hy : FailsWith P y) :
    FailsWith P (if p then x >>= fun _ => y else y) :=
  ite (fun hp => (hx hp).bind fun _ _ => hy) fun _ => hy

end FailsWith

/-! ### Kinds of errors -/

/-- It is the store that has failed, in one of some ways. -/
def StoreError.IsFault (F : StoreFault → Prop) : StoreError → Prop
  | .store fault => F fault
  | .record _ => False

/-- It is the store that has failed. -/
def RegistryError.IsFault (F : StoreFault → Prop) : RegistryError → Prop
  | .store e => e.IsFault F
  | _ => False

/-- It is the store that has failed. -/
def SettlementError.IsFault (F : StoreFault → Prop) : SettlementError → Prop
  | .registry e => e.IsFault F
  | .store e => e.IsFault F
  | _ => False

/-- Whether a record could not be read. -/
def StoreError.isInternal : StoreError → Bool
  | .store _ => false
  | .record _ => true

/-- Whether a nonce is released that was never issued, or a record could not be read. -/
def RegistryError.isInternal : RegistryError → Bool
  | .nonceNotIssued _ _ _ _ => true
  | .store e => e.isInternal
  | _ => false

/-- Whether the state of a transaction does not allow what is done with it, or a record could not be
read. -/
def SettlementError.isInternal : SettlementError → Bool
  | .invalidTransition _ _ => true
  | .cannotRevert => true
  | .invariantViolated _ _ => true
  | .pendingBallotDecided _ => true
  | .registry e => e.isInternal
  | .store e => e.isInternal
  | _ => false

/-- Whether an error is none that a caller can do anything about. -/
def CallError.isInternal : CallError → Bool
  | .registry e => e.isInternal
  | .settlement e => e.isInternal

section Kinds

variable {F : StoreFault → Prop}

/-- A failure of the store is no internal error. -/
theorem StoreError.IsFault.isInternal_eq {e : StoreError} (h : e.IsFault F) :
    e.isInternal = false := by
  cases e with
  | store fault => rfl
  | record e => exact h.elim

theorem RegistryError.IsFault.isInternal_eq {e : RegistryError} (h : e.IsFault F) :
    e.isInternal = false := by
  cases e with
  | store e => exact StoreError.IsFault.isInternal_eq h
  | _ => exact h.elim

theorem SettlementError.IsFault.isInternal_eq {e : SettlementError} (h : e.IsFault F) :
    e.isInternal = false := by
  cases e with
  | registry e => exact RegistryError.IsFault.isInternal_eq h
  | store e => exact StoreError.IsFault.isInternal_eq h
  | _ => exact h.elim

/-- A store that does not fail has no failure. -/
theorem StoreError.not_isFault {e : StoreError} : ¬e.IsFault fun _ => False := by
  intro h
  cases e <;> exact h

theorem SettlementError.not_isFault {e : SettlementError} : ¬e.IsFault fun _ => False := by
  intro h
  match e with
  | .registry (.store e) => exact StoreError.not_isFault h
  | .store e => exact StoreError.not_isFault h

end Kinds

/-! ### Steps -/

/-- The stores of a type fail in no other ways than these, be they read or written. -/
structure FaultsWith (F : StoreFault → Prop) (σ : Type) [WritableStore σ] : Prop where
  get : ∀ (s : σ) (key : Bytes), FailsWith F (ReadableStore.get s key)
  write : ∀ (s : σ) (writes : List Write), FailsWith F (WritableStore.write s writes)

/-- Whatever a store fails with, it is a fault of stores. -/
theorem FaultsWith.any (σ : Type) [WritableStore σ] : FaultsWith (fun _ => True) σ :=
  ⟨fun _ _ => .of_forall _ fun _ => trivial, fun _ _ => .of_forall _ fun _ => trivial⟩

section Steps

variable {σ : Type} [WritableStore σ] {s : σ} {F : StoreFault → Prop} {P : SettlementError → Prop}

/-- A write fails only because the store does not take it. -/
theorem FaultsWith.writeAll (hσ : FaultsWith F σ) {Q : StoreError → Prop}
    (hfault : ∀ fault, F fault → Q (.store fault)) (s : σ) (writes : List Write) :
    FailsWith Q (Settlement.writeAll s writes) :=
  (hσ.write s writes).mapError hfault

theorem Journal.failsWith_supportedChain {Q : RegistryError → Prop} {id : ChainId}
    (h : FailsWith Q (Registry.supportedChain s id)) (hQ : ∀ e, Q e → P (chainError e)) :
    FailsWith P (supportedChain s id) :=
  (h.map _).mapError hQ

theorem Journal.failsWith_externalChain {Q : RegistryError → Prop} {id : ChainId}
    (h : FailsWith Q (Registry.supportedChain s id)) (hQ : ∀ e, Q e → P (chainError e))
    (hP : P (.unsupportedChain id)) : FailsWith P (externalChain s id) :=
  (failsWith_supportedChain h hQ).bind fun chain _ => .ite (fun _ => .ok chain) fun _ => .error hP

omit [WritableStore σ] in
/-- A state changes along the graph of states, or not at all. -/
theorem Progress.failsWith_advance {p : Progress σ} {next : CctxStatus} {message : String}
    {block : Block}
    (h : p.cctx.status.canBecome next = false → P (.invalidTransition p.cctx.status next)) :
    FailsWith P (p.advance next message block) :=
  FailsWith.bind_pure (.ite (fun _ => .ok _) fun hnot => .error (h (by simpa using hnot))) _

/-- A nonce is reserved as soon as the record of its lane can be read. -/
theorem Progress.failsWith_assignNonce (hσ : FaultsWith F σ) {p : Progress σ}
    (hread : FailsWith (fun e => P (.registry e)) (Registry.nonceRecord? p.store
      p.cctx.current.signingKey p.cctx.current.chainId))
    (hfault : ∀ fault, F fault → P (.registry (.store (.store fault)))) :
    FailsWith P p.assignNonce := by
  have hput (s : σ) (writes : List Write) :
      FailsWith (fun e => P (.registry (.store e))) (writeAll s writes) :=
    hσ.writeAll hfault s writes
  refine FailsWith.bind (.registryError_lift (hread.bind fun stored _ => ?_))
    fun (nonce, s) _ => .bind_pure (.registryError_lift (.storeError_lift (hput _ _))) _
  exact .bind_pure (.storeError_lift (hput _ _)) _

/-- What satisfies the invariants can be stored. -/
theorem Progress.failsWith_save (hσ : FaultsWith F σ) {p : Progress σ}
    (h : FailsWith P p.cctx.validate) (hfault : ∀ fault, F fault → P (.store (.store fault))) :
    FailsWith P p.save :=
  h.bind fun _ _ => .bind_pure (.storeError_lift_settlement (hσ.writeAll hfault _ _)) _

end Steps

/-! ### Calls -/

section Calls

variable {γ : Type} {w : World γ} {P : CallError → Prop}

/-- A transition fails with an error of its own, or because the store takes no writes. -/
theorem Backend.failsWith_conclude {b : Backend} {ofStore : StoreError → ε} {P : ε → Prop}
    {result : Except ε (α × Draft)} (hresult : FailsWith P result)
    (hfault : ∀ fault, P (ofStore (.store fault))) : FailsWith P (b.conclude ofStore result).1 := by
  cases result with
  | error e => exact .error (hresult e rfl)
  | ok r =>
    rw [conclude]
    split
    · next e hcommit =>
      refine .error ?_
      -- A commit writes, and nothing else.
      rw [Overlay.commit] at hcommit
      split at hcommit
      · cases hwrite : WritableStore.write r.2.base r.2.writes with
        | ok b' => rw [writeAll, hwrite] at hcommit; cases hcommit
        | error fault =>
          rw [writeAll, hwrite] at hcommit
          cases hcommit
          exact hfault fault
      · cases hcommit
    · exact .ok _

theorem World.failsWith_runRegistry {run : Draft → Except RegistryError (Answer × Draft)}
    (hrun : FailsWith (fun e => P (.registry e)) (run (.fresh w.store)))
    (hfault : ∀ fault, P (.registry (.store (.store fault)))) :
    FailsWith P (w.runRegistry run).answer :=
  (Backend.failsWith_conclude hrun hfault).mapError fun _ => id

theorem World.failsWith_runSettlement
    {run : Draft → Except SettlementError (Answer × Draft × Effects) × γ}
    (hrun : FailsWith (fun e => P (.settlement e)) (run (.fresh w.store)).1)
    (hfault : ∀ fault, P (.settlement (.store (.store fault)))) :
    FailsWith P (w.runSettlement run).answer := by
  have hconclude := Backend.failsWith_conclude (b := w.store)
    (hrun.map fun r => ((r.1, r.2.2), r.2.1)) hfault
  rw [runSettlement]
  simp only
  split
  · next e store h => exact .error (hconclude e (congrArg Prod.fst h))
  · exact .ok _

end Calls

end Settlement
