/-!
# Nearest quotients

`nearestQuotient` divides naturals and rounds to the nearest integer, a half going to the even
neighbour. Floating-point rounding and the wrapping of angles are both built on it: the first
divides by the gap between neighbouring values, the second by the length of a full turn.
-/

set_option autoImplicit false

namespace CircularArc

/-- The integer nearest to `dividend / divisor`; of two equally near integers, the even one. -/
def nearestQuotient (dividend divisor : Nat) : Nat :=
  let lower := dividend / divisor
  let rest := dividend % divisor
  if 2 * rest < divisor ∨ (2 * rest = divisor ∧ lower % 2 = 0) then lower else lower + 1

theorem nearestQuotient_le (dividend divisor : Nat) :
    nearestQuotient dividend divisor ≤ dividend / divisor + 1 := by
  unfold nearestQuotient
  dsimp only
  split <;> omega

theorem le_nearestQuotient (dividend divisor : Nat) :
    dividend / divisor ≤ nearestQuotient dividend divisor := by
  unfold nearestQuotient
  dsimp only
  split <;> omega

theorem nearestQuotient_mul (quotient : Nat) {divisor : Nat} (positive : 0 < divisor) :
    nearestQuotient (quotient * divisor) divisor = quotient := by
  unfold nearestQuotient
  simp [Nat.mul_div_cancel _ positive, positive]

theorem nearestQuotient_mul_bounds (dividend : Nat) {divisor : Nat} (positive : 0 < divisor) :
    2 * dividend ≤ 2 * (nearestQuotient dividend divisor * divisor) + divisor ∧
      2 * (nearestQuotient dividend divisor * divisor) ≤ 2 * dividend + divisor := by
  have decomposition := Nat.div_add_mod dividend divisor
  have restBound := Nat.mod_lt dividend positive
  rw [Nat.mul_comm] at decomposition
  unfold nearestQuotient
  dsimp only
  split
  · omega
  · rw [Nat.succ_mul (dividend / divisor)]
    omega

theorem nearestQuotient_mono {smaller larger : Nat} (order : smaller ≤ larger) (divisor : Nat) :
    nearestQuotient smaller divisor ≤ nearestQuotient larger divisor := by
  have lowerOrder : smaller / divisor ≤ larger / divisor := Nat.div_le_div_right order
  by_cases sameLower : smaller / divisor = larger / divisor
  · have smallerParts := Nat.div_add_mod smaller divisor
    have largerParts := Nat.div_add_mod larger divisor
    rw [sameLower] at smallerParts
    unfold nearestQuotient
    dsimp only
    rw [sameLower]
    split <;> split <;> omega
  · have upper := nearestQuotient_le smaller divisor
    have lower := le_nearestQuotient larger divisor
    omega

end CircularArc
