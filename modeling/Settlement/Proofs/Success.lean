import Settlement.Cctx.Error

/-!
# What a success tells

A computation that may fail is a chain of steps and checks. If the chain succeeds, then every
step of it did and every check was passed. The lemmas here read a success backwards, one link at
a time; `simp` with them and with the definition of a computation turns its success into the
conjunction of everything that it rests on.
-/

namespace Settlement

variable {ε ε' α β : Type}

/-! ### Chains -/

@[simp]
theorem bind_eq_ok_iff {x : Except ε α} {f : α → Except ε β} {b : β} :
    x >>= f = .ok b ↔ ∃ a, x = .ok a ∧ f a = .ok b := by
  cases x <;> simp [bind, Except.bind]

@[simp]
theorem pure_eq_ok_iff {a b : α} : (pure a : Except ε α) = .ok b ↔ a = b := by
  simp [pure, Except.pure]

@[simp]
theorem throw_ne_ok {e : ε} {a : α} : ¬(throw e : Except ε α) = .ok a := by
  simp [throw, throwThe, MonadExceptOf.throw]

theorem throw_bind_ne_ok {e : ε} {f : α → Except ε β} {b : β} : ¬throw e >>= f = .ok b := by
  simp [bind_eq_ok_iff]

@[simp]
theorem map_eq_ok_iff {x : Except ε α} {f : α → β} {b : β} :
    x.map f = .ok b ↔ ∃ a, x = .ok a ∧ f a = b := by
  cases x <;> simp [Except.map]

/-! ### Errors under another name -/

@[simp]
theorem mapError_eq_ok_iff {x : Except ε α} {f : ε → ε'} {a : α} :
    x.mapError f = .ok a ↔ x = .ok a := by
  cases x with
  | error e => exact iff_of_false (by rintro ⟨⟩) (by rintro ⟨⟩)
  | ok b =>
    change Except.ok b = Except.ok a ↔ _
    rw [Except.ok.injEq, Except.ok.injEq]

@[simp]
theorem storeError_lift_eq_ok_iff {x : Except StoreError α} {a : α} :
    (liftM x : Except RegistryError α) = .ok a ↔ x = .ok a :=
  mapError_eq_ok_iff

@[simp]
theorem registryError_lift_eq_ok_iff {x : Except RegistryError α} {a : α} :
    (liftM x : Except SettlementError α) = .ok a ↔ x = .ok a :=
  mapError_eq_ok_iff

@[simp]
theorem storeError_lift_settlement_eq_ok_iff {x : Except StoreError α} {a : α} :
    (liftM x : Except SettlementError α) = .ok a ↔ x = .ok a :=
  mapError_eq_ok_iff

/-! ### Checks -/

/-- A choice succeeds as the chosen side does. -/
theorem ite_eq_ok_iff {p : Prop} [Decidable p] {x y : Except ε α} {a : α} :
    (if p then x else y) = .ok a ↔ p ∧ x = .ok a ∨ ¬p ∧ y = .ok a := by
  split <;> simp [*]

/-- What comes after a check succeeds if the fault is not there. -/
theorem guard_eq_ok_iff {p : Prop} [Decidable p] {e : ε} {f : α → Except ε β} {x : Except ε β}
    {b : β} : (if p then throw e >>= f else x) = .ok b ↔ ¬p ∧ x = .ok b := by
  rw [ite_eq_ok_iff, or_iff_right fun h => throw_bind_ne_ok h.2]

/-- What comes after a check succeeds if the condition holds. -/
theorem unless_eq_ok_iff {p : Prop} [Decidable p] {e : ε} {f : α → Except ε β} {x : Except ε β}
    {b : β} : (if p then x else throw e >>= f) = .ok b ↔ p ∧ x = .ok b := by
  rw [ite_eq_ok_iff, or_iff_left fun h => throw_bind_ne_ok h.2]

/-- What comes after a step that is made under a condition only succeeds in any case. -/
theorem ok_of_when {p : Prop} [Decidable p] {x : Except ε α} {y : Except ε β} {b : β}
    (h : (if p then x >>= fun _ => y else y) = .ok b) : y = .ok b := by
  rcases ite_eq_ok_iff.1 h with ⟨-, h⟩ | ⟨-, h⟩
  · obtain ⟨_, -, h⟩ := bind_eq_ok_iff.1 h
    exact h
  · exact h

/-! ### Forwards -/

/-- A chain succeeds if its first step does, and then what comes after it. -/
theorem exists_ok_bind {x : Except ε α} {f : α → Except ε β} {a : α} (hx : x = .ok a)
    (hf : ∃ b, f a = .ok b) : ∃ b, x >>= f = .ok b := by
  obtain ⟨b, hb⟩ := hf
  exact ⟨b, bind_eq_ok_iff.2 ⟨a, hx, hb⟩⟩

theorem exists_ok_guard {p : Prop} [Decidable p] {e : ε} {f : α → Except ε β} {x : Except ε β}
    (hp : ¬p) (hx : ∃ b, x = .ok b) : ∃ b, (if p then throw e >>= f else x) = .ok b := by
  rwa [if_neg hp]

theorem exists_ok_unless {p : Prop} [Decidable p] {e : ε} {f : α → Except ε β} {x : Except ε β}
    (hp : p) (hx : ∃ b, x = .ok b) : ∃ b, (if p then x else throw e >>= f) = .ok b := by
  rwa [if_pos hp]

/-- A step that is made under a condition only makes no difference if it succeeds. -/
theorem when_eq {p : Prop} [Decidable p] {x : Except ε α} {y : Except ε β}
    (hx : p → ∃ a, x = .ok a) : (if p then x >>= fun _ => y else y) = y := by
  split
  · next hp =>
    obtain ⟨a, rfl⟩ := hx hp
    rfl
  · rfl

/-- What is made of the end of a chain can be made of it in its last step. -/
theorem map_bind_eq {γ : Type} {x : Except ε α} {f : α → Except ε β} {g : β → γ} :
    (x >>= f).map g = x >>= fun a => (f a).map g := by
  cases x <;> rfl

/-- A chain whose first step succeeds comes to what is left of it. -/
theorem bind_eq {x : Except ε α} {f : α → Except ε β} {a : α} {y : Except ε β} (hx : x = .ok a)
    (hf : f a = y) : x >>= f = y := by
  rw [hx]
  exact hf

end Settlement
