import Settlement.Cctx.Fees

/-!
# The share of the unused fee as a formula

What an attempt owes to the stability pool is computed with checked products of 256 bits, and the
division comes last. Whenever an amount is found, it is the formula over the natural numbers,
rounded down and never wrapped. The converse needs more than that the amount fits: the product
before the division has to fit, and this product is up to a hundred times the amount
(`Settlement.Attempt.unusedFee?_eq_some_iff`). So there are prices at which an amount that would
fit is not found (`Settlement.Sample.unusedFee_not_found`).
-/

namespace Settlement

/-! ### Checked numbers -/

namespace U256

theorem ofNat?_eq_some_iff {n : Nat} {x : U256} : ofNat? n = some x ↔ x.toNat = n := by
  rw [ofNat?]
  split
  · next h =>
    rw [Option.some.injEq]
    exact ⟨fun hx => hx ▸ rfl, fun hx => ext hx.symm⟩
  · next h =>
    refine ⟨nofun, fun hx => absurd ?_ h⟩
    rw [← hx]
    exact x.toNat_lt

/-- A product that is found is the product of the natural numbers. -/
theorem mul?_eq_some_iff {x y z : U256} : x.mul? y = some z ↔ z.toNat = x.toNat * y.toNat :=
  ofNat?_eq_some_iff

theorem eq_zero_iff {x : U256} : x = .zero ↔ x.toNat = 0 :=
  ⟨fun h => h ▸ rfl, fun h => ext h⟩

/-- A percentage is the same number among those of 256 bits. -/
theorem toNat_ofNat_byte (b : UInt8) : (ofNat b.toNat).toNat = b.toNat :=
  Nat.mod_eq_of_lt (Nat.lt_trans b.toNat_lt (by decide))

end U256

/-! ### The formula -/

namespace Attempt

/-- The fee for the gas that was granted and not used. -/
def unusedFee (a : Attempt) : Nat :=
  (a.effectiveGasLimit.toNat - a.gasUsed.toNat) * a.gasPrice.toNat

/-- The share of it that a percentage makes, rounded down. -/
def unusedShare (a : Attempt) (percent : UInt8) : Nat :=
  a.unusedFee * percent.toNat / 100

variable {a : Attempt} {percent : UInt8} {amount : U256}

/-- A percentage of at most a hundred makes no more than the fee itself. -/
theorem unusedShare_le (h : percent.toNat ≤ 100) : a.unusedShare percent ≤ a.unusedFee := by
  have hle : a.unusedFee * percent.toNat ≤ a.unusedFee * 100 := Nat.mul_le_mul_left _ h
  calc a.unusedShare percent ≤ a.unusedFee * 100 / 100 := Nat.div_le_div_right hle
    _ = a.unusedFee := Nat.mul_div_cancel _ (by decide)

/-- A share that is not zero has no factor that is zero. -/
theorem factors_of_unusedShare_pos (h : 0 < a.unusedShare percent) :
    a.effectiveGasLimit ≠ 0 ∧ a.gasPrice ≠ .zero ∧ percent ≠ 0 := by
  refine ⟨fun hzero => ?_, fun hzero => ?_, fun hzero => ?_⟩ <;>
    simp [unusedShare, unusedFee, hzero, U256.zero] at h

/-- The two products, and what is left of them after the division. -/
theorem products_eq_some_iff (hle : a.gasUsed ≤ a.effectiveGasLimit) :
    (∃ fee share, (U256.ofWord (a.effectiveGasLimit - a.gasUsed)).mul? a.gasPrice = some fee ∧
      fee.mul? (.ofNat percent.toNat) = some share ∧ share.hundredth = amount) ↔
    a.unusedFee < U256.size ∧ a.unusedFee * percent.toNat < U256.size ∧
      amount.toNat = a.unusedShare percent := by
  have hunused : (U256.ofWord (a.effectiveGasLimit - a.gasUsed)).toNat * a.gasPrice.toNat
      = a.unusedFee :=
    congrArg (· * a.gasPrice.toNat) (UInt64.toNat_sub_of_le _ _ hle)
  simp only [U256.mul?_eq_some_iff, hunused, U256.toNat_ofNat_byte]
  constructor
  · rintro ⟨fee, share, hfee, hshare, rfl⟩
    rw [hfee] at hshare
    refine ⟨hfee ▸ fee.toNat_lt, hshare ▸ share.toNat_lt, ?_⟩
    rw [unusedShare, ← hshare, U256.hundredth]
  · rintro ⟨hfee, hshare, hamount⟩
    exact ⟨⟨_, hfee⟩, ⟨_, hshare⟩, rfl, rfl, U256.ext hamount.symm⟩

/-- **What is found, and when.** An amount is found exactly if gas was used, no more of it than
was granted, and the product before the division fits and leaves something after it. -/
theorem unusedFee?_eq_some_iff :
    a.unusedFee? percent = some amount ↔
      a.gasUsed ≠ 0 ∧ a.gasUsed ≤ a.effectiveGasLimit ∧
        a.unusedFee * percent.toNat < U256.size ∧
        amount.toNat = a.unusedShare percent ∧ 0 < a.unusedShare percent := by
  rw [unusedFee?]
  constructor
  · intro h
    split at h
    · cases h
    next hfactors =>
    split at h
    · cases h
    next hless =>
    split at h
    · cases h
    next fee hfee =>
    split at h
    · cases h
    next share hshare =>
    split at h
    · cases h
    next hpos =>
    cases h
    have hle : a.gasUsed ≤ a.effectiveGasLimit := UInt64.not_lt.1 hless
    obtain ⟨-, hfits, hamount⟩ := (products_eq_some_iff hle).1 ⟨fee, share, hfee, hshare, rfl⟩
    rw [U256.eq_zero_iff, hamount] at hpos
    exact ⟨fun hused => hfactors (.inr (.inl hused)), hle, hfits, hamount, Nat.pos_of_ne_zero hpos⟩
  · rintro ⟨hused, hle, hfits, hamount, hpos⟩
    obtain ⟨hlimit, hprice, hpercent⟩ := factors_of_unusedShare_pos hpos
    have hfee : a.unusedFee < U256.size := by
      have hone : 0 < percent.toNat := Nat.pos_of_ne_zero fun h => hpercent (UInt8.toNat.inj h)
      exact Nat.lt_of_le_of_lt (Nat.le_mul_of_pos_right _ hone) hfits
    obtain ⟨fee, share, hfee, hshare, rfl⟩ := (products_eq_some_iff hle).2 ⟨hfee, hfits, hamount⟩
    rw [if_neg (by simp [hlimit, hused, hprice, hpercent]), if_neg (UInt64.not_lt.2 hle), hfee]
    simp only [hshare]
    rw [if_neg (by rw [U256.eq_zero_iff, hamount]; omega)]

theorem unusedFee?_eq_none_iff (hused : a.gasUsed ≠ 0) (hle : a.gasUsed ≤ a.effectiveGasLimit) :
    a.unusedFee? percent = none ↔
      a.unusedShare percent = 0 ∨ U256.size ≤ a.unusedFee * percent.toNat := by
  rw [Option.eq_none_iff_forall_ne_some]
  constructor
  · intro h
    obtain hzero | hpos := Nat.eq_zero_or_pos (a.unusedShare percent)
    · exact .inl hzero
    · refine .inr (Nat.not_lt.1 fun hfits => ?_)
      have hshare : a.unusedShare percent < U256.size :=
        Nat.lt_of_le_of_lt (Nat.div_le_self _ _) hfits
      exact h ⟨_, hshare⟩ (unusedFee?_eq_some_iff.2 ⟨hused, hle, hfits, rfl, hpos⟩)
  · intro h amount hfound
    obtain ⟨-, -, hfits, -, hpos⟩ := unusedFee?_eq_some_iff.1 hfound
    omega

/-- **The unused fee is the formula, as far as the product fits.** Let gas have been used, no more
of it than was granted, and let the percentage be at most a hundred. An amount that is found is
the share of the unused fee, rounded down and not wrapped, and it is at most the fee. If the share
is zero, then nothing is found. If it is positive and the product before the division fits into
256 bits, then it is found. If this product does not fit, then nothing is found, also where the
share itself would fit. -/
theorem unusedFee_exact (a : Attempt) (percent : UInt8) (hpercent : percent.toNat ≤ 100)
    (hused : a.gasUsed ≠ 0) (hle : a.gasUsed ≤ a.effectiveGasLimit) :
    (0 < a.unusedShare percent → a.unusedFee * percent.toNat < U256.size →
      ∃ amount, a.unusedFee? percent = some amount) ∧
    (∀ amount, a.unusedFee? percent = some amount →
      amount.toNat = a.unusedShare percent ∧ amount.toNat ≤ a.unusedFee) ∧
    (a.unusedShare percent = 0 → a.unusedFee? percent = none) ∧
    (U256.size ≤ a.unusedFee * percent.toNat → a.unusedFee? percent = none) := by
  have hnone : a.unusedFee? percent = none ↔ _ := unusedFee?_eq_none_iff hused hle
  refine ⟨fun hpos hfits => ?_, fun amount hfound => ?_, fun hzero => hnone.2 (.inl hzero),
    fun hlarge => hnone.2 (.inr hlarge)⟩
  · refine Option.ne_none_iff_exists'.1 fun h => ?_
    have := hnone.1 h
    omega
  · have hamount := (unusedFee?_eq_some_iff.1 hfound).2.2.2.1
    exact ⟨hamount, hamount ▸ unusedShare_le hpercent⟩

end Attempt

/-! ### At the highest prices -/

namespace Sample

/-- An attempt that has left one of two units of gas, each at the given price. -/
def halfUsed (price : Nat) : Attempt :=
  { Attempt.fresh "0xReceiver" ⟨1⟩ (.ofNat 100) 21000 "key" with
    gasUsed := 1
    gasPrice := .ofNat price
    effectiveGasLimit := 2 }

/-- The whole of what is left is found up to a hundredth of the greatest number, and not beyond. -/
theorem unusedFee_at_border :
    (∃ amount, (halfUsed ((U256.size - 1) / 100)).unusedFee? 100 = some amount) ∧
    (halfUsed ((U256.size - 1) / 100 + 1)).unusedFee? 100 = none :=
  ⟨((halfUsed ((U256.size - 1) / 100)).unusedFee_exact 100 (by decide) (by decide)
      (by decide)).1 (by decide +kernel) (by decide +kernel),
    ((halfUsed ((U256.size - 1) / 100 + 1)).unusedFee_exact 100 (by decide) (by decide)
      (by decide)).2.2.2 (by decide +kernel)⟩

/-- The share of the unused fee fits, and no factor is zero, but nothing is found. -/
theorem unusedFee_not_found :
    (halfUsed (U256.size - 1)).effectiveGasLimit ≠ 0 ∧
    (halfUsed (U256.size - 1)).gasUsed ≠ 0 ∧
    (halfUsed (U256.size - 1)).gasPrice ≠ .zero ∧
    (halfUsed (U256.size - 1)).gasUsed ≤ (halfUsed (U256.size - 1)).effectiveGasLimit ∧
    0 < (halfUsed (U256.size - 1)).unusedShare 95 ∧
    (halfUsed (U256.size - 1)).unusedShare 95 < U256.size ∧
    (halfUsed (U256.size - 1)).unusedFee? 95 = none := by
  decide +kernel

end Sample

end Settlement
