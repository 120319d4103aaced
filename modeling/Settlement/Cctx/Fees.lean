import Settlement.Cctx.Basic

/-!
# Unused gas

The gas that an attempt was granted and did not use has been paid for. A share of that fee is
owed to the stability pool of the chain: the unused gas times its price, times the percentage,
divided by a hundred and rounded down. Nothing is owed if one of the factors is zero, if more
gas was used than granted, or if a product does not fit into 256 bits.
-/

namespace Settlement

/-- A number divided by a hundred and rounded down. -/
def U256.hundredth (x : U256) : U256 :=
  ⟨x.toNat / 100, Nat.lt_of_le_of_lt (Nat.div_le_self _ _) x.toNat_lt⟩

/-- The share of the unused fee of an attempt that is owed to the stability pool. -/
def Attempt.unusedFee? (a : Attempt) (percent : UInt8) : Option U256 :=
  if a.effectiveGasLimit = 0 ∨ a.gasUsed = 0 ∨ a.gasPrice = .zero ∨ percent = 0 then none
  else if a.effectiveGasLimit < a.gasUsed then none
  else
    match (U256.ofWord (a.effectiveGasLimit - a.gasUsed)).mul? a.gasPrice with
    | none => none
    | some fee =>
      match fee.mul? (.ofNat percent.toNat) with
      | none => none
      | some share => if share.hundredth = .zero then none else some share.hundredth

end Settlement
