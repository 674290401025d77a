import CircularArc.Number.Arithmetic
import CircularArc.Proofs.ExactOrder
import Mathlib.Tactic.FieldSimp
import Mathlib.Tactic.Ring

/-!
# Rounded counts of units

Rounding moves a count of units by at most its 2 ^ 53rd part, keeps the order of counts, and is
symmetric about zero.
-/

set_option autoImplicit false

namespace CircularArc

theorem nearestMagnitude_error (units : Nat) :
    2 ^ 53 * units ≤ 2 ^ 53 * nearestMagnitude units + units ∧
      2 ^ 53 * nearestMagnitude units ≤ 2 ^ 53 * units + units := by
  by_cases small : units.log2 ≤ 52
  · have single : spacing units = 1 := by
      unfold spacing
      rw [Nat.sub_eq_zero_of_le small]
    have exact : nearestMagnitude units = units := by
      have divided := nearestQuotient_mul units Nat.one_pos
      rw [Nat.mul_one] at divided
      rw [nearestMagnitude, single, divided, Nat.mul_one]
    omega
  · have nonzero : units ≠ 0 := by
      rintro rfl
      exact small (by decide)
    have aligned : 2 ^ 52 * spacing units ≤ units := by
      refine le_trans (le_of_eq ?_) (Nat.log2_self_le nonzero)
      unfold spacing
      rw [Nat.pow_eq, ← pow_add, Nat.add_sub_of_le (by omega)]
    obtain ⟨above, below⟩ := nearestMagnitude_bounds units
    omega

theorem roundedUnits_neg (total : Int) : roundedUnits (-total) = -roundedUnits total := by
  unfold roundedUnits
  rw [Int.natAbs_neg, ← Binary64.signedUnits_not]
  by_cases zero : total = 0
  · subst zero
    rfl
  · have opposite : decide (-total < 0) = !decide (total < 0) := by
      rw [← decide_not, decide_eq_decide]
      omega
    rw [opposite]

theorem roundedUnits_of_nonneg {total : Int} (nonneg : 0 ≤ total) :
    roundedUnits total = nearestMagnitude total.natAbs := by
  unfold roundedUnits
  simp [Binary64.signedUnits, not_lt.mpr nonneg]

theorem natAbs_roundedUnits (total : Int) :
    (roundedUnits total).natAbs = nearestMagnitude total.natAbs :=
  Binary64.natAbs_signedUnits _ _

theorem roundedUnits_nonneg {total : Int} (nonneg : 0 ≤ total) : 0 ≤ roundedUnits total := by
  rw [roundedUnits_of_nonneg nonneg]
  exact Int.natCast_nonneg _

theorem roundedUnits_mono {smaller larger : Int} (order : smaller ≤ larger) :
    roundedUnits smaller ≤ roundedUnits larger := by
  have ofNonneg {low high : Int} (nonneg : 0 ≤ low) (ordered : low ≤ high) :
      roundedUnits low ≤ roundedUnits high := by
    rw [roundedUnits_of_nonneg nonneg, roundedUnits_of_nonneg (le_trans nonneg ordered)]
    exact_mod_cast nearestMagnitude_mono (by omega)
  rcases le_total 0 smaller with nonneg | nonpos
  · exact ofNonneg nonneg order
  · rcases le_total 0 larger with largerNonneg | largerNonpos
    · have reflected := roundedUnits_nonneg (Int.neg_nonneg_of_nonpos nonpos)
      rw [roundedUnits_neg] at reflected
      have := roundedUnits_nonneg largerNonneg
      omega
    · have reflected := ofNonneg (Int.neg_nonneg_of_nonpos largerNonpos) (Int.neg_le_neg order)
      rw [roundedUnits_neg, roundedUnits_neg] at reflected
      omega

section Bounds

variable {total bound : Int} (exact : roundedUnits bound = bound)
include exact

theorem roundedUnits_le_of_le (order : total ≤ bound) : roundedUnits total ≤ bound := by
  have rounded := roundedUnits_mono order
  rwa [exact] at rounded

theorem le_roundedUnits_of_le (order : bound ≤ total) : bound ≤ roundedUnits total := by
  have rounded := roundedUnits_mono order
  rwa [exact] at rounded

theorem lt_of_roundedUnits_lt (less : roundedUnits total < bound) : total < bound :=
  not_le.mp fun beyond => absurd less (not_lt.mpr (le_roundedUnits_of_le exact beyond))

theorem lt_of_lt_roundedUnits (more : bound < roundedUnits total) : bound < total :=
  not_le.mp fun short => absurd more (not_lt.mpr (roundedUnits_le_of_le exact short))

end Bounds

theorem roundedUnits_of_representable {total : Int} (aligned : Representable total.natAbs) :
    roundedUnits total = total := by
  unfold roundedUnits
  rw [nearestMagnitude_of_representable aligned]
  by_cases negative : total < 0
  · simp only [Binary64.signedUnits, negative, decide_true, ↓reduceIte]
    omega
  · simp only [Binary64.signedUnits, negative, decide_false, Bool.false_eq_true, ↓reduceIte]
    omega

theorem natAbs_roundedUnits_le {total : Int} {bound : Nat} (aligned : Representable bound)
    (within : total.natAbs ≤ bound) : (roundedUnits total).natAbs ≤ bound := by
  rw [natAbs_roundedUnits, ← nearestMagnitude_of_representable aligned]
  exact nearestMagnitude_mono within

theorem abs_unitsValue_roundedUnits_sub_le (total : Int) :
    |unitsValue (roundedUnits total) - unitsValue total| ≤ |unitsValue total| / 2 ^ 53 := by
  have inUnits : 2 ^ 53 * (roundedUnits total - total).natAbs ≤ total.natAbs := by
    have error := nearestMagnitude_error total.natAbs
    unfold roundedUnits
    by_cases negative : total < 0
    · simp only [Binary64.signedUnits, negative, decide_true, ↓reduceIte]
      omega
    · simp only [Binary64.signedUnits, negative, decide_false, Bool.false_eq_true, ↓reduceIte]
      omega
  have scaled : (2 : ℚ) ^ 53 * |((roundedUnits total - total : Int) : ℚ)| ≤ |(total : ℚ)| := by
    rw [← Int.cast_abs, ← Int.cast_abs, Int.abs_eq_natAbs, Int.abs_eq_natAbs]
    exact_mod_cast inUnits
  rw [← unitsValue_sub]
  unfold unitsValue
  rw [abs_div, abs_div, div_right_comm]
  gcongr
  rw [le_div_iff₀ (by positivity)]
  linarith

end CircularArc
