import CircularArc.Proofs.MovedEnds

/-!
# Where centers come to stand

Halving is exact but for the smallest magnitudes. The center of an arc, and that of its complement,
never fails and divides the arc into two parts that differ by at most four times `epsilonUnits`.
-/

set_option autoImplicit false

namespace CircularArc

/-- Half a count of units, to the nearest count, ties to even. -/
def halfUnits (count : Int) : Int :=
  Binary64.signedUnits (count < 0) (nearestQuotient count.natAbs 2)

/-- The count at which half the sum of two numbers comes out. -/
def middleUnits (lo hi : Int) : Int := halfUnits (roundedUnits (lo + hi))

/-- The count at which the opposite of an angle comes out. -/
def antipodeUnits (count : Int) : Int :=
  if count ≤ 0 then roundedUnits (count + halfTurnUnits) else roundedUnits (count - halfTurnUnits)

/-- The count at which the center of an arc comes out. -/
def centerUnits (lo hi : Int) : Int :=
  if hi < lo then antipodeUnits (middleUnits lo hi) else middleUnits lo hi

def complementCenterUnits (lo hi : Int) : Int :=
  if lo = hi then antipodeUnits hi else centerUnits hi lo

/-!
## Halving
-/

theorem representable_half {units : Nat} (aligned : Representable units) :
    Representable (nearestQuotient units 2) := by
  by_cases small : units ≤ 2 ^ 53
  · have near := nearestQuotient_mul_bounds units Nat.two_pos
    exact one_isGrain.representable (one_dvd _) (by omega)
  · obtain ⟨bounded, multiple⟩ := aligned
    have log : 53 ≤ units.log2 := (Nat.le_log2 (by omega)).mpr (by omega)
    obtain ⟨half, rfl⟩ : 2 ∣ units := Nat.dvd_trans (dvd_pow_self 2 (by omega)) multiple
    have halfLog : (2 * half).log2 = half.log2 + 1 := Nat.log2_two_mul (by omega)
    have scaled : spacing (2 * half) = 2 * spacing half := by
      unfold spacing
      rw [Nat.pow_eq, Nat.pow_eq, halfLog, ← pow_succ']
      congr 1
      omega
    rw [scaled] at multiple
    rw [mul_comm, nearestQuotient_mul half Nat.two_pos]
    exact ⟨by omega, Nat.dvd_of_mul_dvd_mul_left Nat.two_pos multiple⟩

section Halving

variable {count : Int}

theorem natAbs_halfUnits (count : Int) :
    (halfUnits count).natAbs = nearestQuotient count.natAbs 2 :=
  Binary64.natAbs_signedUnits _ _

theorem halfUnits_near (count : Int) :
    2 * halfUnits count ≤ count + 1 ∧ count ≤ 2 * halfUnits count + 1 := by
  have near := nearestQuotient_mul_bounds count.natAbs Nat.two_pos
  unfold halfUnits Binary64.signedUnits
  by_cases negative : count < 0
  · simp only [negative, decide_true, ↓reduceIte]
    omega
  · simp only [negative, decide_false, Bool.false_eq_true, ↓reduceIte]
    omega

theorem halfUnits_twice (count : Int) : halfUnits (2 * count) = count := by
  have divided := nearestQuotient_mul count.natAbs Nat.two_pos
  have magnitude := natAbs_halfUnits (2 * count)
  rw [Int.natAbs_mul, mul_comm] at magnitude
  have near := halfUnits_near (2 * count)
  omega

theorem Binary64.position_half {number : Binary64} (stands : number.position = .units count) :
    number.half.position = .units (halfUnits count) := by
  obtain ⟨negative, units, aligned, rfl, rfl⟩ := position_eq_units_iff.mp stands
  have total : signedUnits negative (nearestQuotient units 2) =
      halfUnits (signedUnits negative units) := by
    rw [halfUnits, natAbs_signedUnits]
    by_cases zero : units = 0
    · subst zero
      simp [nearestQuotient]
    · cases negative with
      | true =>
        have below : signedUnits true units < 0 := by
          simp only [signedUnits, ↓reduceIte]
          omega
        rw [decide_eq_true below]
      | false =>
        have notBelow : ¬ signedUnits false units < 0 := by
          simp only [signedUnits, Bool.false_eq_true, ↓reduceIte]
          omega
        rw [decide_eq_false notBelow]
  rw [half, ofUnits_signedUnits negative _ (representable_half aligned), position, total]

theorem Number.half_of_position {number : Number} (stands : number.position = .units count)
    (within : count.natAbs ≤ exactLimit) :
    ∃ half : Binary64, number.half = .ok (.real half) ∧
      half.position = .units (halfUnits count) := by
  obtain ⟨nearest, converts, nearestAt⟩ := toBinary64_of_position stands within
  refine ⟨nearest.half, ?_, Binary64.position_half nearestAt⟩
  rw [Number.half, converts, ok_bind]
  rfl

theorem Number.antipode_of_position {number : Number} (stands : number.position = .units count)
    (within : count.natAbs ≤ halfTurnUnits) :
    ∃ opposite : Binary64, number.antipode = .ok (.real opposite) ∧
      opposite.position = .units (antipodeUnits count) := by
  have limit := halfTurnUnits_le_exactLimit
  obtain ⟨nearest, converts, nearestAt⟩ := toBinary64_of_position stands (by omega)
  unfold antipode antipodeUnits
  rw [le_of_position stands integer_zero_position]
  by_cases nonpos : count ≤ 0
  · rw [if_pos (decide_eq_true nonpos), if_pos nonpos]
    exact ⟨_, combine_real converts halfTurn,
      Binary64.position_add nearestAt halfTurn_position (by omega)⟩
  · rw [if_neg (by simpa using nonpos), if_neg nonpos]
    exact ⟨_, combine_real converts halfTurn,
      Binary64.position_sub nearestAt halfTurn_position (by omega)⟩

end Halving

/-!
## Centers of arcs
-/

/-- A center, read as a point of the circle, divides what lies between two points into two parts that
hardly differ. -/
structure Halves (source target total center : Int) : Prop where
  within : center.natAbs ≤ halfTurnUnits
  parts : spanUnits source (canonicalUnits center) + spanUnits (canonicalUnits center) target = total
  after : spanUnits source (canonicalUnits center) ≤
    spanUnits (canonicalUnits center) target + 4 * epsilonUnits
  before : spanUnits (canonicalUnits center) target ≤
    spanUnits source (canonicalUnits center) + 4 * epsilonUnits

section Middle

variable {lo hi : Int}

theorem middleUnits_mem (order : lo ≤ hi) (loExact : roundedUnits lo = lo)
    (hiExact : roundedUnits hi = hi) (loWithin : lo.natAbs ≤ halfTurnUnits)
    (hiWithin : hi.natAbs ≤ halfTurnUnits) :
    lo ≤ middleUnits lo hi ∧ middleUnits lo hi ≤ hi := by
  have limit := halfTurnUnits_le_exactLimit
  have least := le_roundedUnits_of_le (roundedUnits_twice loExact (by omega))
    (show 2 * lo ≤ lo + hi by omega)
  have most := roundedUnits_le_of_le (roundedUnits_twice hiExact (by omega))
    (show lo + hi ≤ 2 * hi by omega)
  have near := halfUnits_near (roundedUnits (lo + hi))
  unfold middleUnits
  omega

theorem middleUnits_near (loWithin : lo.natAbs ≤ halfTurnUnits)
    (hiWithin : hi.natAbs ≤ halfTurnUnits) :
    2 * middleUnits lo hi ≤ lo + hi + 2 * epsilonUnits + 1 ∧
      lo + hi ≤ 2 * middleUnits lo hi + 2 * epsilonUnits + 1 := by
  have size := halfTurnUnits_eq_mul
  have positive := epsilonUnits_pos
  have sum := four_epsilon_isGrain.near_rounded (lo + hi) (by omega)
  have near := halfUnits_near (roundedUnits (lo + hi))
  unfold middleUnits
  omega

theorem roundedUnits_middle_near (loWithin : lo.natAbs ≤ halfTurnUnits)
    (hiWithin : hi.natAbs ≤ halfTurnUnits) {turn : Int} (isTurn : turn.natAbs = halfTurnUnits)
    (inside : (middleUnits lo hi + turn).natAbs ≤ halfTurnUnits) :
    2 * roundedUnits (middleUnits lo hi + turn) ≤ lo + hi + 2 * turn + 4 * epsilonUnits ∧
      lo + hi + 2 * turn ≤ 2 * roundedUnits (middleUnits lo hi + turn) + 4 * epsilonUnits := by
  have size := halfTurnUnits_eq_mul
  have one := unitsPerOne_eq_mul
  have positive := epsilonUnits_pos
  rcases lt_or_ge (lo + hi).natAbs (4 * Binary64.unitsPerOne) with near | far
  · have sum := two_epsilon_isGrain.near_rounded (lo + hi) (by omega)
    have half := halfUnits_near (roundedUnits (lo + hi))
    have moved := two_epsilon_isGrain.near_rounded (middleUnits lo hi + turn) (by omega)
    unfold middleUnits at *
    omega
  · have sum := four_epsilon_isGrain.near_rounded (lo + hi) (by omega)
    obtain ⟨quotient, multiple⟩ := four_epsilon_isGrain.dvd_rounded (lo + hi) (by omega)
    have half : middleUnits lo hi = 2 * epsilonUnits * quotient := by
      rw [middleUnits, multiple, show 4 * (epsilonUnits : Int) * quotient =
        2 * (2 * epsilonUnits * quotient) by ring, halfUnits_twice]
    have turnAligned : (2 * epsilonUnits : Int) ∣ turn := by
      rw [← Int.dvd_natAbs, isTurn]
      exact two_dvd_halfTurn
    have aligned : (2 * epsilonUnits : Int) ∣ middleUnits lo hi + turn :=
      Int.dvd_add (half ▸ Int.dvd_mul_right _ _) turnAligned
    rw [two_epsilon_isGrain.rounded_of_dvd aligned (by omega)]
    rw [multiple] at sum
    rw [half]
    constructor <;> linarith

theorem NormalCounts.centerUnits_mem (counts : NormalCounts lo hi) :
    lo ≤ centerUnits lo hi ∧ centerUnits lo hi ≤ hi := by
  obtain ⟨above, order, below, loExact, hiExact⟩ := counts
  rw [centerUnits, if_neg (not_lt.mpr order)]
  exact middleUnits_mem order loExact hiExact (by omega) (by omega)

theorem NormalCounts.halves (counts : NormalCounts lo hi) :
    Halves lo hi (hi - lo) (centerUnits lo hi) := by
  have ⟨behind, before⟩ := counts.centerUnits_mem
  obtain ⟨above, order, below, -, -⟩ := counts
  have positive := epsilonUnits_pos
  have near := middleUnits_near (show lo.natAbs ≤ halfTurnUnits by omega)
    (show hi.natAbs ≤ halfTurnUnits by omega)
  have center : centerUnits lo hi = middleUnits lo hi := if_neg (not_lt.mpr order)
  have canonical := canonicalUnits_of_within (show -halfTurnUnits < centerUnits lo hi by omega)
    (by omega)
  constructor
  · omega
  all_goals
    rw [canonical, spanUnits_of_le behind, spanUnits_of_le before]
    omega

/-- Where the center of an arc that passes half a turn comes to stand: behind the lower end, or before
the upper end and at minus half a turn at the least. -/
inductive PassingCenter (lo hi center : Int) : Prop where
  | behind (beyond : lo ≤ center) (below : center ≤ halfTurnUnits)
      (le : 2 * center ≤ lo + hi + 2 * halfTurnUnits + 4 * epsilonUnits)
      (ge : lo + hi + 2 * halfTurnUnits ≤ 2 * center + 4 * epsilonUnits)
  | before (above : -halfTurnUnits ≤ center) (short : center ≤ hi)
      (le : 2 * center ≤ lo + hi - 2 * halfTurnUnits + 4 * epsilonUnits)
      (ge : lo + hi - 2 * halfTurnUnits ≤ 2 * center + 4 * epsilonUnits)

theorem PassingCenter.halves {center : Int} (placed : PassingCenter lo hi center)
    (above : -halfTurnUnits < hi) (order : hi ≤ lo) (below : lo ≤ halfTurnUnits) :
    Halves lo hi (hi - lo + 2 * halfTurnUnits) center := by
  have size := halfTurnUnits_eq_mul
  have positive := epsilonUnits_pos
  cases placed with
  | behind beyond centerBelow le ge =>
    have canonical := canonicalUnits_of_within (show -halfTurnUnits < center by omega) centerBelow
    have apart : hi < center := by omega
    constructor
    · omega
    all_goals
      rw [canonical, spanUnits_of_le beyond, spanUnits_of_lt apart]
      omega
  | before centerAbove short le ge =>
    by_cases lowest : center = -halfTurnUnits
    · have canonical : canonicalUnits center = halfTurnUnits := by
        rw [canonicalUnits_of_le (by omega)]
        omega
      have apart : hi < halfTurnUnits := by omega
      constructor
      · omega
      all_goals
        rw [canonical, spanUnits_of_le below, spanUnits_of_lt apart]
        omega
    · have canonical := canonicalUnits_of_within (show -halfTurnUnits < center by omega) (by omega)
      have apart : center < lo := by omega
      constructor
      · omega
      all_goals
        rw [canonical, spanUnits_of_lt apart, spanUnits_of_le short]
        omega

theorem InvertedCounts.passingCenter (counts : InvertedCounts lo hi) :
    PassingCenter lo hi (centerUnits lo hi) := by
  have hiGap := neg_halfTurn_add_le_of_lt counts.hi_exact counts.above
  obtain ⟨above, order, below, loExact, hiExact⟩ := counts
  have loWithin : lo.natAbs ≤ halfTurnUnits := by omega
  have hiWithin : hi.natAbs ≤ halfTurnUnits := by omega
  have near := middleUnits_near loWithin hiWithin
  rw [centerUnits, if_pos order, antipodeUnits]
  by_cases nonpos : middleUnits lo hi ≤ 0
  · have least :=
      le_roundedUnits_of_le loExact (show lo ≤ middleUnits lo hi + halfTurnUnits by omega)
    have most := roundedUnits_le_of_le roundedUnits_halfTurn
      (show middleUnits lo hi + halfTurnUnits ≤ _ by omega)
    have moved := roundedUnits_middle_near loWithin hiWithin (Int.natAbs_natCast halfTurnUnits)
      (by omega)
    rw [if_pos nonpos]
    exact .behind least most moved.1 moved.2
  · have least := le_roundedUnits_of_le roundedUnits_neg_halfTurn
      (show _ ≤ middleUnits lo hi - halfTurnUnits by omega)
    have most :=
      roundedUnits_le_of_le hiExact (show middleUnits lo hi - halfTurnUnits ≤ hi by omega)
    have moved := roundedUnits_middle_near loWithin hiWithin
      (show (-(halfTurnUnits : Int)).natAbs = halfTurnUnits by omega) (by omega)
    rw [← sub_eq_add_neg] at moved
    rw [if_neg nonpos]
    exact .before least most (by omega) (by omega)

theorem antipodeUnits_passingCenter {count : Int} (exact : roundedUnits count = count)
    (above : -halfTurnUnits < count) (below : count ≤ halfTurnUnits) :
    PassingCenter count count (antipodeUnits count) := by
  have size := halfTurnUnits_eq_mul
  have positive := epsilonUnits_pos
  unfold antipodeUnits
  by_cases nonpos : count ≤ 0
  · have least := le_roundedUnits_of_le exact (show count ≤ count + halfTurnUnits by omega)
    have most :=
      roundedUnits_le_of_le roundedUnits_halfTurn (show count + halfTurnUnits ≤ _ by omega)
    have near := two_epsilon_isGrain.near_rounded (count + halfTurnUnits) (by omega)
    rw [if_pos nonpos]
    exact .behind least most (by omega) (by omega)
  · have least :=
      le_roundedUnits_of_le roundedUnits_neg_halfTurn (show _ ≤ count - halfTurnUnits by omega)
    have most := roundedUnits_le_of_le exact (show count - halfTurnUnits ≤ count by omega)
    have near := two_epsilon_isGrain.near_rounded (count - halfTurnUnits) (by omega)
    rw [if_neg nonpos]
    exact .before least most (by omega) (by omega)

end Middle

theorem ValidCounts.halves {lo hi : Int} (counts : ValidCounts lo hi)
    (nonempty : ¬ (lo = halfTurnUnits ∧ hi = -halfTurnUnits))
    (notFull : ¬ (lo = -halfTurnUnits ∧ hi = halfTurnUnits)) :
    Halves lo hi (spanUnits lo hi) (centerUnits lo hi) := by
  cases counts with
  | empty loAt hiAt => exact absurd ⟨loAt, hiAt⟩ nonempty
  | full loAt hiAt => exact absurd ⟨loAt, hiAt⟩ notFull
  | normal counts =>
    rw [spanUnits_of_le counts.order]
    exact counts.halves
  | inverted counts =>
    rw [spanUnits_of_lt counts.order]
    exact counts.passingCenter.halves counts.above (le_of_lt counts.order) counts.below

/-- The center of the complement divides what an arc leaves of the circle. It comes out at minus half
a turn only if the lower end is not at half a turn. -/
theorem ValidCounts.complement_halves {lo hi : Int} (counts : ValidCounts lo hi)
    (nonempty : ¬ (lo = halfTurnUnits ∧ hi = -halfTurnUnits))
    (notFull : ¬ (lo = -halfTurnUnits ∧ hi = halfTurnUnits)) :
    Halves hi lo (2 * halfTurnUnits - spanUnits lo hi) (complementCenterUnits lo hi) ∧
      (complementCenterUnits lo hi = -halfTurnUnits → lo < halfTurnUnits) := by
  have positive := halfTurnUnits_pos
  unfold complementCenterUnits
  cases counts with
  | empty loAt hiAt => exact absurd ⟨loAt, hiAt⟩ nonempty
  | full loAt hiAt => exact absurd ⟨loAt, hiAt⟩ notFull
  | normal counts =>
    obtain ⟨above, order, below, loExact, hiExact⟩ := counts
    rw [spanUnits_of_le order]
    by_cases single : lo = hi
    · subst single
      have halves :=
        (antipodeUnits_passingCenter loExact above below).halves above (le_refl lo) below
      rw [sub_self, zero_add] at halves
      rw [if_pos rfl, sub_self, sub_zero]
      refine ⟨halves, fun lowest => lt_of_le_of_ne below ?_⟩
      rintro rfl
      rw [antipodeUnits, if_neg (by omega), sub_self, roundedUnits_zero] at lowest
      omega
    · have complement : InvertedCounts hi lo := ⟨above, by omega, below, hiExact, loExact⟩
      have halves := complement.passingCenter.halves above order below
      rw [if_neg single, show 2 * halfTurnUnits - (hi - lo) = lo - hi + 2 * halfTurnUnits by ring]
      exact ⟨halves, fun _ => by omega⟩
  | inverted counts =>
    obtain ⟨above, order, below, loExact, hiExact⟩ := counts
    have complement : NormalCounts hi lo := ⟨above, le_of_lt order, below, hiExact, loExact⟩
    have inside := complement.centerUnits_mem
    rw [if_neg (by omega), spanUnits_of_lt order,
      show 2 * halfTurnUnits - (hi - lo + 2 * halfTurnUnits) = lo - hi by ring]
    exact ⟨complement.halves, fun lowest => by omega⟩

/-!
## Centers are angles
-/

section Within

theorem natAbs_antipodeUnits_le {count : Int} (within : count.natAbs ≤ halfTurnUnits) :
    (antipodeUnits count).natAbs ≤ halfTurnUnits := by
  unfold antipodeUnits
  split <;> exact natAbs_roundedUnits_le_halfTurn (by omega)

variable {lo hi : Int} (loWithin : lo.natAbs ≤ halfTurnUnits) (hiWithin : hi.natAbs ≤ halfTurnUnits)
include loWithin hiWithin

theorem natAbs_middleUnits_le : (middleUnits lo hi).natAbs ≤ halfTurnUnits := by
  have sumWithin := natAbs_roundedUnits_le representable_fullTurnUnits
    (show (lo + hi).natAbs ≤ fullTurnUnits by unfold fullTurnUnits; omega)
  have near := halfUnits_near (roundedUnits (lo + hi))
  unfold fullTurnUnits at sumWithin
  unfold middleUnits
  omega

theorem natAbs_centerUnits_le : (centerUnits lo hi).natAbs ≤ halfTurnUnits := by
  have middle := natAbs_middleUnits_le loWithin hiWithin
  unfold centerUnits
  split
  · exact natAbs_antipodeUnits_le middle
  · exact middle

theorem natAbs_complementCenterUnits_le :
    (complementCenterUnits lo hi).natAbs ≤ halfTurnUnits := by
  unfold complementCenterUnits
  split
  · exact natAbs_antipodeUnits_le hiWithin
  · exact natAbs_centerUnits_le hiWithin loWithin

end Within

namespace Arc

variable {arc : Arc} {lo hi : Int}

theorem EndsAt.center (endsAt : arc.EndsAt lo hi) (loWithin : lo.natAbs ≤ halfTurnUnits)
    (hiWithin : hi.natAbs ≤ halfTurnUnits) :
    ∃ center : Binary64, arc.center = .ok (.real center) ∧
      center.position = .units (centerUnits lo hi) := by
  obtain ⟨lower, upper⟩ := arc
  obtain ⟨loNumber, rfl⟩ := Value.IsAngle.eq_number ⟨lo, endsAt.lo_at, loWithin⟩
  obtain ⟨hiNumber, rfl⟩ := Value.IsAngle.eq_number ⟨hi, endsAt.hi_at, hiWithin⟩
  have limit := halfTurnUnits_le_exactLimit
  obtain ⟨sum, sumIs, sumAt⟩ :=
    Number.add_of_position endsAt.lo_at endsAt.hi_at (by omega) (by omega) (by omega)
  have sumWithin := natAbs_roundedUnits_le representable_fullTurnUnits
    (show (lo + hi).natAbs ≤ fullTurnUnits by unfold fullTurnUnits; omega)
  unfold fullTurnUnits at sumWithin
  obtain ⟨middle, middleIs, middleAt⟩ := Number.half_of_position sumAt (by omega)
  have near := halfUnits_near (roundedUnits (lo + hi))
  have inverted : hiNumber.lt loNumber = decide (hi < lo) :=
    Number.lt_of_position endsAt.hi_at endsAt.lo_at
  simp only [Arc.center, Value.halfSum_number, sumIs, ok_bind, middleIs, isInverted_number, inverted]
  unfold centerUnits middleUnits
  by_cases order : hi < lo
  · rw [if_pos (decide_eq_true order), if_pos order]
    exact Number.antipode_of_position middleAt (by omega)
  · rw [if_neg (by simpa using order), if_neg order]
    exact ⟨middle, rfl, middleAt⟩

theorem EndsAt.complementCenter (endsAt : arc.EndsAt lo hi)
    (loWithin : lo.natAbs ≤ halfTurnUnits) (hiWithin : hi.natAbs ≤ halfTurnUnits) :
    ∃ center : Binary64, arc.complementCenter = .ok (.real center) ∧
      center.position = .units (complementCenterUnits lo hi) := by
  obtain ⟨lower, upper⟩ := arc
  obtain ⟨loNumber, rfl⟩ := Value.IsAngle.eq_number ⟨lo, endsAt.lo_at, loWithin⟩
  obtain ⟨hiNumber, rfl⟩ := Value.IsAngle.eq_number ⟨hi, endsAt.hi_at, hiWithin⟩
  have single : loNumber.same hiNumber = decide (lo = hi) :=
    Number.same_of_position endsAt.lo_at endsAt.hi_at
  have swapped : (Arc.mk (.number hiNumber) (.number loNumber)).EndsAt hi lo :=
    ⟨endsAt.hi_at, endsAt.lo_at⟩
  unfold Arc.complementCenter Arc.complement complementCenterUnits
  simp only [Value.same_number, single, Value.antipode_number]
  by_cases same : lo = hi
  · simp only [same, decide_true, ↓reduceIte]
    exact Number.antipode_of_position endsAt.hi_at hiWithin
  · simp only [same, decide_false, Bool.false_eq_true, ↓reduceIte]
    exact swapped.center hiWithin loWithin

end Arc

end CircularArc
