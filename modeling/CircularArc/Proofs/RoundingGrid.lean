import CircularArc.Proofs.Angles

/-!
# How coarse rounding is

Between two powers of two the numbers of the format form a grid, and the grid doubles its spacing
from one power to the next. Beyond `2` every number is a multiple of twice `epsilonUnits`, so the
numbers next to half a turn keep their distance from it.
-/

set_option autoImplicit false

namespace CircularArc

/-- The gap between one and the next larger floating-point number, in units. -/
@[irreducible] def epsilonUnits : Nat := 2 ^ 1022

/-- Half the gap between twice `epsilonUnits` and the next larger number, in units. -/
@[irreducible] def crumbUnits : Nat := 2 ^ 970

/-- The large constants as multiples of the small ones. -/
private structure Multiples : Prop where
  halfTurn : halfTurnUnits = 14148475504056880 * epsilonUnits
  one : Binary64.unitsPerOne = 4503599627370496 * epsilonUnits
  epsilon : epsilonUnits = 4503599627370496 * crumbUnits
  allowance : endAllowance.position = .units (2 * epsilonUnits)

private theorem multiples : Multiples where
  halfTurn := by decide +kernel
  one := by decide +kernel
  epsilon := by decide +kernel
  allowance := by decide +kernel

theorem halfTurnUnits_eq_mul : halfTurnUnits = 14148475504056880 * epsilonUnits :=
  multiples.halfTurn

theorem unitsPerOne_eq_mul : Binary64.unitsPerOne = 4503599627370496 * epsilonUnits :=
  multiples.one

theorem epsilonUnits_eq_mul : epsilonUnits = 4503599627370496 * crumbUnits := multiples.epsilon

theorem endAllowance_position : endAllowance.position = .units (2 * epsilonUnits) :=
  multiples.allowance

theorem exactLimit_eq_mul : exactLimit = 40564819207303340847894502572032 * epsilonUnits := by
  unfold exactLimit
  rw [unitsPerOne_eq_mul]
  omega

/-!
## Grains
-/

/-- A power of two, as the spacing of a part of the grid. The largest one that is met here is the
spacing between `4` and `8`. -/
def IsGrain (grain : Int) : Prop := ∃ exponent ≤ 1024, grain = 2 ^ exponent

theorem crumbUnits_eq : (crumbUnits : Int) = 2 ^ 970 := by
  unfold crumbUnits
  exact Nat.cast_pow 2 970

theorem epsilonUnits_eq : (epsilonUnits : Int) = 2 ^ 1022 := by
  unfold epsilonUnits
  exact Nat.cast_pow 2 1022

theorem one_isGrain : IsGrain 1 := ⟨0, by decide, rfl⟩

theorem crumb_isGrain : IsGrain crumbUnits := ⟨970, by decide, crumbUnits_eq⟩

theorem two_crumb_isGrain : IsGrain (2 * crumbUnits) :=
  ⟨970 + 1, by decide, by rw [crumbUnits_eq, ← pow_succ']⟩

theorem epsilon_isGrain : IsGrain epsilonUnits := ⟨1022, by decide, epsilonUnits_eq⟩

theorem two_epsilon_isGrain : IsGrain (2 * epsilonUnits) :=
  ⟨1022 + 1, by decide, by rw [epsilonUnits_eq, ← pow_succ']⟩

theorem four_epsilon_isGrain : IsGrain (4 * epsilonUnits) :=
  ⟨1022 + 2, by decide, by rw [epsilonUnits_eq, pow_add, mul_comm]; rfl⟩

theorem roundedUnits_zero : roundedUnits 0 = 0 := roundedUnits_of_representable representable_zero

private theorem nearestQuotient_of_tie {dividend divisor half : Nat} (positive : 0 < divisor)
    (tie : 2 * dividend = 2 * (2 * half * divisor) + divisor ∨
      2 * dividend + divisor = 2 * (2 * half * divisor)) :
    nearestQuotient dividend divisor = 2 * half := by
  have parts := Nat.div_add_mod dividend divisor
  unfold nearestQuotient
  dsimp only
  rcases tie with above | below
  · have lower : dividend / divisor = 2 * half :=
      Nat.div_eq_of_lt_le (by omega) (by rw [Nat.succ_mul]; omega)
    rw [lower, Nat.mul_comm] at parts
    rw [lower, if_pos (.inr ⟨by omega, by omega⟩)]
  · cases half with
    | zero => omega
    | succ half =>
      have successor : 2 * (half + 1) * divisor = (2 * half + 1) * divisor + divisor := by
        ring
      have lower : dividend / divisor = 2 * half + 1 :=
        Nat.div_eq_of_lt_le (by omega) (by rw [Nat.succ_mul]; omega)
      rw [lower, Nat.mul_comm] at parts
      rw [lower, if_neg (by omega)]
      omega

namespace IsGrain

variable {grain : Int} (isGrain : IsGrain grain)
include isGrain

theorem pos : 0 < grain := by
  obtain ⟨exponent, -, rfl⟩ := isGrain
  positivity

/-- Rounding moves a count by at most half the grain, as long as there are at most 53 bits above it. -/
theorem near_rounded (total : Int) (within : total.natAbs < 2 ^ 53 * grain) :
    2 * roundedUnits total ≤ 2 * total + grain ∧ 2 * total ≤ 2 * roundedUnits total + grain := by
  obtain ⟨exponent, -, rfl⟩ := isGrain
  have below : total.natAbs < 2 ^ 53 * 2 ^ exponent := by exact_mod_cast within
  have fine : spacing total.natAbs ≤ 2 ^ exponent := by
    by_cases zero : total.natAbs = 0
    · rw [zero]
      exact Nat.one_le_two_pow
    · rw [← pow_add] at below
      have log := (Nat.log2_lt zero).mpr below
      unfold spacing
      exact Nat.pow_le_pow_right (by decide) (by omega)
  obtain ⟨above, below⟩ := nearestMagnitude_bounds total.natAbs
  have magnitude := natAbs_roundedUnits total
  have fineInt : (spacing total.natAbs : Int) ≤ 2 ^ exponent := by exact_mod_cast fine
  rcases le_total 0 total with nonneg | nonpos
  · have := roundedUnits_nonneg nonneg
    omega
  · have := roundedUnits_mono nonpos
    rw [roundedUnits_zero] at this
    omega

theorem dvd_rounded (total : Int) (beyond : 2 ^ 52 * grain ≤ total.natAbs) :
    grain ∣ roundedUnits total := by
  obtain ⟨exponent, -, rfl⟩ := isGrain
  have beyondNat : 2 ^ (52 + exponent) ≤ total.natAbs := by
    rw [pow_add]
    exact_mod_cast beyond
  have nonzero : total.natAbs ≠ 0 := by
    have := Nat.two_pow_pos (52 + exponent)
    omega
  have log := (Nat.le_log2 nonzero).mpr beyondNat
  have coarse : 2 ^ exponent ∣ spacing total.natAbs := by
    unfold spacing
    exact Nat.pow_dvd_pow 2 (by omega)
  have magnitude : 2 ^ exponent ∣ (roundedUnits total).natAbs := by
    rw [natAbs_roundedUnits]
    exact Nat.dvd_trans coarse (Nat.dvd_mul_left _ _)
  exact_mod_cast Int.natCast_dvd.mpr magnitude

theorem representable {units : Nat} (aligned : grain ∣ units) (within : units ≤ 2 ^ 53 * grain) :
    Representable units := by
  obtain ⟨exponent, small, rfl⟩ := isGrain
  obtain ⟨significand, rfl⟩ : 2 ^ exponent ∣ units := by exact_mod_cast aligned
  have bound : significand ≤ 2 ^ 53 := by
    rw [mul_comm] at within
    exact Nat.le_of_mul_le_mul_right (by exact_mod_cast within) (Nat.two_pow_pos exponent)
  rw [mul_comm]
  refine ⟨?_, spacing_dvd_scaled bound exponent⟩
  have limit : 2 ^ exponent ≤ Binary64.unitsPerOne := by
    have within : exponent ≤ 1074 := by omega
    unfold Binary64.unitsPerOne
    generalize 1074 = largest at within ⊢
    exact Nat.pow_le_pow_right (by decide) within
  exact lt_of_le_of_lt (Nat.mul_le_mul bound limit) exactLimit_lt

theorem rounded_of_dvd {total : Int} (aligned : grain ∣ total)
    (within : total.natAbs ≤ 2 ^ 53 * grain) : roundedUnits total = total :=
  roundedUnits_of_representable (isGrain.representable (Int.dvd_natAbs.mpr aligned) within)

/-- Halfway between two multiples of the grain rounding goes to the even one. -/
theorem rounded_of_tie {total center : Int} (even : 2 * grain ∣ center)
    (beyond : 2 ^ 52 * grain ≤ total) (within : total < 2 ^ 53 * grain)
    (tie : 2 * total = 2 * center + grain ∨ 2 * total + grain = 2 * center) :
    roundedUnits total = center := by
  have positive := isGrain.pos
  obtain ⟨exponent, -, rfl⟩ := isGrain
  obtain ⟨half, rfl⟩ := even
  have halfNonneg : 0 ≤ half :=
    nonneg_of_mul_nonneg_right (by omega) (by omega : 0 < 2 * (2 : Int) ^ exponent)
  lift half to Nat using halfNonneg
  lift total to Nat using (by omega)
  have beyondNat : 2 ^ (52 + exponent) ≤ total := by
    rw [pow_add]
    exact_mod_cast beyond
  have withinNat : total < 2 ^ (52 + exponent + 1) := by
    rw [show 52 + exponent + 1 = 53 + exponent by omega, pow_add]
    exact_mod_cast within
  have nonzero : total ≠ 0 := by
    have := Nat.two_pow_pos (52 + exponent)
    omega
  have log := (Nat.log2_eq_iff nonzero).mpr ⟨beyondNat, withinNat⟩
  have spaced : spacing total = 2 ^ exponent := by
    unfold spacing
    rw [log, Nat.add_sub_cancel_left, Nat.pow_eq]
  have quotient : nearestQuotient total (2 ^ exponent) = 2 * half := by
    refine nearestQuotient_of_tie (Nat.two_pow_pos exponent) ?_
    rw [mul_right_comm] at tie
    exact_mod_cast tie
  rw [roundedUnits_of_nonneg (Int.natCast_nonneg _), Int.natAbs_natCast, nearestMagnitude, spaced,
    quotient]
  push_cast
  ring

end IsGrain

theorem epsilonUnits_pos : 0 < epsilonUnits := by exact_mod_cast epsilon_isGrain.pos

/-!
## The grid around half a turn
-/

theorem four_dvd_fullTurn : (4 * epsilonUnits : Int) ∣ 2 * halfTurnUnits :=
  ⟨7074237752028440, by rw [halfTurnUnits_eq_mul]; push_cast; ring⟩

theorem two_epsilon_dvd_one : (2 * epsilonUnits : Int) ∣ Binary64.unitsPerOne :=
  ⟨2251799813685248, by rw [unitsPerOne_eq_mul]; push_cast; ring⟩

theorem two_dvd_halfTurn : (2 * epsilonUnits : Int) ∣ halfTurnUnits :=
  ⟨7074237752028440, by rw [halfTurnUnits_eq_mul]; push_cast; ring⟩

theorem roundedUnits_halfTurn : roundedUnits halfTurnUnits = halfTurnUnits := by
  have size := halfTurnUnits_eq_mul
  exact two_epsilon_isGrain.rounded_of_dvd two_dvd_halfTurn (by omega)

theorem roundedUnits_neg_halfTurn : roundedUnits (-halfTurnUnits) = -halfTurnUnits := by
  rw [roundedUnits_neg, roundedUnits_halfTurn]

theorem natAbs_roundedUnits_le_halfTurn {count : Int} (within : count.natAbs ≤ halfTurnUnits) :
    (roundedUnits count).natAbs ≤ halfTurnUnits := by
  have least := le_roundedUnits_of_le roundedUnits_neg_halfTurn (show _ ≤ count by omega)
  have most := roundedUnits_le_of_le roundedUnits_halfTurn (show count ≤ _ by omega)
  omega

theorem add_le_of_lt_of_dvd {grain smaller larger : Int} (order : smaller < larger)
    (smallerAligned : grain ∣ smaller) (largerAligned : grain ∣ larger) :
    smaller + grain ≤ larger := by
  have apart := Int.le_of_dvd (by omega) (Int.dvd_sub largerAligned smallerAligned)
  omega

section Exact

variable {count : Int} (exact : roundedUnits count = count)
include exact

theorem halfTurn_add_le_of_lt (beyond : (halfTurnUnits : Int) < count) :
    halfTurnUnits + 2 * epsilonUnits ≤ count := by
  have size := halfTurnUnits_eq_mul
  have aligned := two_epsilon_isGrain.dvd_rounded count (by omega)
  rw [exact] at aligned
  exact add_le_of_lt_of_dvd beyond two_dvd_halfTurn aligned

theorem add_le_halfTurn_of_lt (below : count < halfTurnUnits) :
    count + 2 * epsilonUnits ≤ halfTurnUnits := by
  have size := halfTurnUnits_eq_mul
  have one := unitsPerOne_eq_mul
  rcases lt_or_ge count (2 * Binary64.unitsPerOne) with near | far
  · omega
  · have aligned := two_epsilon_isGrain.dvd_rounded count (by omega)
    rw [exact] at aligned
    exact add_le_of_lt_of_dvd below aligned two_dvd_halfTurn

theorem neg_halfTurn_add_le_of_lt (above : -halfTurnUnits < count) :
    -halfTurnUnits + 2 * epsilonUnits ≤ count := by
  have mirrored := add_le_halfTurn_of_lt
    (show roundedUnits (-count) = -count by rw [roundedUnits_neg, exact]) (by omega)
  omega

end Exact

/-!
Halfway between two neighbours beside half a turn or beside a full turn rounding goes to the turn,
whose multiple of the grain is the even one.
-/

theorem eight_dvd_fullTurn : (2 * (4 * epsilonUnits) : Int) ∣ 2 * halfTurnUnits :=
  ⟨3537118876014220, by rw [halfTurnUnits_eq_mul]; push_cast; ring⟩

theorem four_dvd_halfTurn : (2 * (2 * epsilonUnits) : Int) ∣ halfTurnUnits :=
  ⟨3537118876014220, by rw [halfTurnUnits_eq_mul]; push_cast; ring⟩

theorem roundedUnits_before_fullTurn :
    roundedUnits (2 * halfTurnUnits - 2 * epsilonUnits) = 2 * halfTurnUnits := by
  have size := halfTurnUnits_eq_mul
  have positive := epsilonUnits_pos
  exact four_epsilon_isGrain.rounded_of_tie eight_dvd_fullTurn (by omega) (by omega) (by omega)

theorem roundedUnits_beyond_fullTurn :
    roundedUnits (2 * halfTurnUnits + 2 * epsilonUnits) = 2 * halfTurnUnits := by
  have size := halfTurnUnits_eq_mul
  have positive := epsilonUnits_pos
  exact four_epsilon_isGrain.rounded_of_tie eight_dvd_fullTurn (by omega) (by omega) (by omega)

theorem roundedUnits_beside_halfTurn :
    roundedUnits (halfTurnUnits - epsilonUnits) = halfTurnUnits := by
  have size := halfTurnUnits_eq_mul
  have positive := epsilonUnits_pos
  exact two_epsilon_isGrain.rounded_of_tie four_dvd_halfTurn (by omega) (by omega) (by omega)

theorem roundedUnits_beyond_halfTurn :
    roundedUnits (halfTurnUnits + epsilonUnits) = halfTurnUnits := by
  have size := halfTurnUnits_eq_mul
  have positive := epsilonUnits_pos
  exact two_epsilon_isGrain.rounded_of_tie four_dvd_halfTurn (by omega) (by omega) (by omega)

theorem roundedUnits_before_halfTurn :
    roundedUnits (halfTurnUnits - 3 * epsilonUnits) = halfTurnUnits - 4 * epsilonUnits := by
  have size := halfTurnUnits_eq_mul
  have positive := epsilonUnits_pos
  refine two_epsilon_isGrain.rounded_of_tie (Int.dvd_sub four_dvd_halfTurn ?_) (by omega) (by omega)
    (by omega)
  exact ⟨1, by ring⟩

theorem roundedUnits_le_halfTurn {total : Int} (within : total ≤ halfTurnUnits + epsilonUnits) :
    roundedUnits total ≤ halfTurnUnits := by
  have order := roundedUnits_mono within
  rwa [roundedUnits_beyond_halfTurn] at order

theorem roundedUnits_le_fullTurn {total : Int}
    (within : total ≤ 2 * halfTurnUnits + 2 * epsilonUnits) :
    roundedUnits total ≤ 2 * halfTurnUnits := by
  have order := roundedUnits_mono within
  rwa [roundedUnits_beyond_fullTurn] at order

/-!
## The grid beyond small counts

Beyond `epsilonUnits` numbers are multiples of `crumbUnits`, and beyond twice `epsilonUnits` of twice
as much.
-/

theorem epsilonUnits_add_le_of_lt {count : Int} (exact : roundedUnits count = count)
    (beyond : epsilonUnits < count) : epsilonUnits + crumbUnits ≤ count := by
  have parts := epsilonUnits_eq_mul
  have aligned := crumb_isGrain.dvd_rounded count (by omega)
  rw [exact] at aligned
  exact add_le_of_lt_of_dvd beyond ⟨4503599627370496, by omega⟩ aligned

theorem roundedUnits_beyond_two_epsilon :
    roundedUnits (2 * epsilonUnits + crumbUnits) = 2 * epsilonUnits := by
  have parts := epsilonUnits_eq_mul
  have positive := crumb_isGrain.pos
  exact two_crumb_isGrain.rounded_of_tie ⟨2251799813685248, by omega⟩ (by omega) (by omega)
    (by omega)

theorem roundedUnits_le_two_epsilon {total : Int} (within : total ≤ 2 * epsilonUnits + crumbUnits) :
    roundedUnits total ≤ 2 * epsilonUnits := by
  have order := roundedUnits_mono within
  rwa [roundedUnits_beyond_two_epsilon] at order

theorem two_epsilon_add_le_roundedUnits {total : Int}
    (beyond : 2 * epsilonUnits + crumbUnits < total) :
    2 * epsilonUnits + 2 * crumbUnits ≤ roundedUnits total := by
  have parts := epsilonUnits_eq_mul
  have positive := epsilonUnits_pos
  rcases le_or_gt (3 * epsilonUnits : Int) total with far | near
  · have order := roundedUnits_mono far
    rw [epsilon_isGrain.rounded_of_dvd (Int.dvd_mul_left _ _) (by omega)] at order
    omega
  · have rounding := two_crumb_isGrain.near_rounded total (by omega)
    have aligned := two_crumb_isGrain.dvd_rounded total (by omega)
    exact add_le_of_lt_of_dvd (by omega) ⟨4503599627370496, by omega⟩ aligned

theorem roundedUnits_roundedUnits {total : Int} (within : total.natAbs ≤ exactLimit) :
    roundedUnits (roundedUnits total) = roundedUnits total := by
  refine roundedUnits_of_representable ?_
  rw [natAbs_roundedUnits]
  exact ⟨nearestMagnitude_lt_of_le_exactLimit within, spacing_dvd_nearestMagnitude _⟩

theorem Binary64.roundedUnits_of_position {number : Binary64} {count : Int}
    (stands : number.position = .units count) : roundedUnits count = count := by
  obtain ⟨negative, units, aligned, rfl, rfl⟩ := position_eq_units_iff.mp stands
  apply roundedUnits_of_representable
  rw [natAbs_signedUnits]
  exact aligned

theorem Number.roundedUnits_of_position {number : Number} {count : Int}
    (stands : number.position = .units count) (within : count.natAbs ≤ exactLimit) :
    roundedUnits count = count := by
  obtain ⟨nearest, -, nearestAt⟩ := toBinary64_of_position stands within
  exact Binary64.roundedUnits_of_position nearestAt

end CircularArc
