import CircularArc.Proofs.BoundedArithmetic
import CircularArc.Proofs.CountedArcs

/-!
# Lengths of arcs

The length of a valid arc never fails and depends on the positions of its ends only. A normal arc's
length is rounded once and an inverted arc's twice, so it is off by at most two, or three, times
`epsilonUnits`. Only the empty arc and the shortest arc across half a turn lose all of it.
-/

set_option autoImplicit false

namespace CircularArc

/-- The count of units at which the length of an inverted arc comes out, before its sign is looked
at. -/
def completedUnits (lo hi : Int) : Int :=
  roundedUnits (roundedUnits (hi - lo) + 2 * halfTurnUnits)

/-- The count of units at which the length of an arc comes out. -/
def lengthUnits (lo hi : Int) : Int :=
  if lo ≤ hi then roundedUnits (hi - lo)
  else if 0 < completedUnits lo hi then completedUnits lo hi
  else -Binary64.unitsPerOne

namespace Arc

variable {arc other : Arc} {lo hi : Int}

theorem EndsAt.length (endsAt : arc.EndsAt lo hi) (loWithin : lo.natAbs ≤ halfTurnUnits)
    (hiWithin : hi.natAbs ≤ halfTurnUnits) :
    ∃ length, arc.length = .ok length ∧ length.position = .units (lengthUnits lo hi) := by
  obtain ⟨lower, upper⟩ := arc
  obtain ⟨loNumber, rfl⟩ := Value.IsAngle.eq_number ⟨lo, endsAt.lo_at, loWithin⟩
  obtain ⟨hiNumber, rfl⟩ := Value.IsAngle.eq_number ⟨hi, endsAt.hi_at, hiWithin⟩
  have limit := halfTurnUnits_le_exactLimit
  have zeroAt := Number.integer_zero_position
  obtain ⟨difference, differs, differenceAt⟩ :=
    Number.sub_of_position endsAt.hi_at endsAt.lo_at (by omega) (by omega) (by omega)
  have sign : (Number.integer 0).le difference = decide (lo ≤ hi) := by
    rw [Number.le_of_position zeroAt differenceAt, decide_eq_decide, ← not_lt,
      roundedUnits_neg_iff]
    omega
  unfold Arc.length lengthUnits
  rw [Value.sub_number, differs, ok_bind, sign]
  by_cases order : lo ≤ hi
  · simp only [order, decide_true, ↓reduceIte]
    exact ⟨difference, rfl, differenceAt⟩
  · have differenceWithin := natAbs_roundedUnits_le representable_fullTurnUnits
      (show (hi - lo).natAbs ≤ fullTurnUnits by unfold fullTurnUnits; omega)
    unfold fullTurnUnits at differenceWithin
    obtain ⟨completed, completedIs, completedAt⟩ :=
      Number.add_of_position differenceAt Number.real_fullTurn_position (by omega) (by omega) (by omega)
    have positive : (Number.integer 0).lt completed = decide (0 < completedUnits lo hi) :=
      Number.lt_of_position zeroAt completedAt
    simp only [order, decide_false, Bool.false_eq_true, ↓reduceIte, completedIs, ok_bind,
      positive, decide_eq_true_eq]
    split
    · exact ⟨completed, rfl, completedAt⟩
    · refine ⟨_, rfl, ?_⟩
      have minusOneAt := Binary64.position_ofInt (show (-1 : Int).natAbs ≤ 2 ^ 53 by decide)
      rw [neg_one_mul] at minusOneAt
      exact minusOneAt

theorem EndsAt.length_lt {otherLo otherHi : Int} {length otherLength : Number}
    (endsAt : arc.EndsAt lo hi) (valid : arc.Valid) (otherAt : other.EndsAt otherLo otherHi)
    (otherValid : other.Valid) (lengthIs : arc.length = .ok length)
    (otherLengthIs : other.length = .ok otherLength) :
    otherLength.lt length = true ↔ lengthUnits otherLo otherHi < lengthUnits lo hi := by
  have ⟨loWithin, hiWithin⟩ := endsAt.within valid
  have ⟨otherLoWithin, otherHiWithin⟩ := otherAt.within otherValid
  obtain ⟨_, found, stands⟩ := endsAt.length loWithin hiWithin
  cases lengthIs.symm.trans found
  obtain ⟨_, otherFound, otherStands⟩ := otherAt.length otherLoWithin otherHiWithin
  cases otherLengthIs.symm.trans otherFound
  rw [Number.lt_of_position otherStands stands, decide_eq_true_eq]

theorem EndsAt.length_le {otherLo otherHi : Int} (endsAt : arc.EndsAt lo hi) (valid : arc.Valid)
    (otherAt : other.EndsAt otherLo otherHi) (otherValid : other.Valid)
    (shorter : lengthUnits lo hi ≤ lengthUnits otherLo otherHi) :
    ∃ length otherLength, arc.length = .ok length ∧ other.length = .ok otherLength ∧
      length.le otherLength = true := by
  have ⟨loWithin, hiWithin⟩ := endsAt.within valid
  have ⟨otherLoWithin, otherHiWithin⟩ := otherAt.within otherValid
  obtain ⟨length, lengthIs, lengthAt⟩ := endsAt.length loWithin hiWithin
  obtain ⟨otherLength, otherLengthIs, otherLengthAt⟩ := otherAt.length otherLoWithin otherHiWithin
  refine ⟨length, otherLength, lengthIs, otherLengthIs, ?_⟩
  rw [Number.le_of_position lengthAt otherLengthAt, decide_eq_true_eq]
  exact shorter

theorem Valid.exists_length (valid : arc.Valid) : ∃ length, arc.length = .ok length := by
  obtain ⟨lo, hi, endsAt, counts⟩ := valid.exists_endsAt
  obtain ⟨length, lengthIs, -⟩ := endsAt.length counts.within.1 counts.within.2
  exact ⟨length, lengthIs⟩

end Arc

/-!
## Bounds on lengths
-/

variable {lo hi otherLo otherHi : Int}

theorem lengthUnits_of_le (order : lo ≤ hi) : lengthUnits lo hi = roundedUnits (hi - lo) :=
  if_pos order

theorem lengthUnits_of_lt (order : hi < lo) :
    lengthUnits lo hi =
      if 0 < completedUnits lo hi then completedUnits lo hi else -Binary64.unitsPerOne :=
  if_neg (not_le.mpr order)

theorem completedUnits_mono (loOrder : otherLo ≤ lo) (hiOrder : hi ≤ otherHi) :
    completedUnits lo hi ≤ completedUnits otherLo otherHi := by
  have difference := roundedUnits_mono (show hi - lo ≤ otherHi - otherLo by omega)
  exact roundedUnits_mono (by omega)

theorem neg_unitsPerOne_le_lengthUnits : -(Binary64.unitsPerOne : Int) ≤ lengthUnits lo hi := by
  unfold lengthUnits
  split
  · have := roundedUnits_nonneg (show 0 ≤ hi - lo by omega)
    omega
  · split <;> omega

theorem roundedUnits_fullTurn : roundedUnits (2 * halfTurnUnits) = 2 * halfTurnUnits := by
  refine roundedUnits_of_representable ?_
  have same : ((2 : Int) * halfTurnUnits).natAbs = fullTurnUnits := by
    unfold fullTurnUnits
    omega
  rw [same]
  exact representable_fullTurnUnits

theorem lengthUnits_full :
    lengthUnits (-halfTurnUnits) halfTurnUnits = 2 * halfTurnUnits := by
  rw [lengthUnits_of_le (by omega), sub_neg_eq_add, ← two_mul, roundedUnits_fullTurn]

theorem lengthUnits_empty :
    lengthUnits halfTurnUnits (-halfTurnUnits) = -Binary64.unitsPerOne := by
  have positive := halfTurnUnits_pos
  have vanishes : completedUnits halfTurnUnits (-halfTurnUnits) = 0 := by
    rw [completedUnits, ← neg_add', ← two_mul, roundedUnits_neg, roundedUnits_fullTurn,
      neg_add_cancel, roundedUnits_zero]
  rw [lengthUnits_of_lt (by omega), vanishes, if_neg (lt_irrefl 0)]

theorem lengthUnits_shortest :
    lengthUnits halfTurnUnits (2 * epsilonUnits - halfTurnUnits) = -Binary64.unitsPerOne := by
  have size := halfTurnUnits_eq_mul
  have positive := epsilonUnits_pos
  have opposite : (2 * epsilonUnits - halfTurnUnits - halfTurnUnits : Int) =
      -(2 * halfTurnUnits - 2 * epsilonUnits) := by ring
  have vanishes : completedUnits halfTurnUnits (2 * epsilonUnits - halfTurnUnits) = 0 := by
    rw [completedUnits, opposite, roundedUnits_neg, roundedUnits_before_fullTurn, neg_add_cancel,
      roundedUnits_zero]
  rw [lengthUnits_of_lt (by omega), vanishes, if_neg (lt_irrefl 0)]

theorem completedUnits_of_far (loWithin : lo.natAbs ≤ halfTurnUnits)
    (hiWithin : hi.natAbs ≤ halfTurnUnits) (order : hi < lo)
    (far : 4 * Binary64.unitsPerOne ≤ lo - hi) :
    (4 * epsilonUnits : Int) ∣ completedUnits lo hi ∧
      completedUnits lo hi ≤ hi - lo + 2 * halfTurnUnits + 2 * epsilonUnits ∧
      hi - lo + 2 * halfTurnUnits ≤ completedUnits lo hi + 2 * epsilonUnits := by
  have size := halfTurnUnits_eq_mul
  have one := unitsPerOne_eq_mul
  have positive := epsilonUnits_pos
  have near := four_epsilon_isGrain.near_rounded (hi - lo) (by omega)
  have aligned :=
    Int.dvd_add (four_epsilon_isGrain.dvd_rounded (hi - lo) (by omega)) four_dvd_fullTurn
  unfold completedUnits
  rw [four_epsilon_isGrain.rounded_of_dvd aligned (by omega)]
  exact ⟨aligned, by omega⟩

/-- An inverted arc's length is off by at most three times `epsilonUnits`: where the first rounding is
coarse, the second one is exact. -/
theorem completedUnits_near (order : hi < lo) (loWithin : lo.natAbs ≤ halfTurnUnits)
    (hiWithin : hi.natAbs ≤ halfTurnUnits) :
    completedUnits lo hi ≤ hi - lo + 2 * halfTurnUnits + 3 * epsilonUnits ∧
      hi - lo + 2 * halfTurnUnits ≤ completedUnits lo hi + 3 * epsilonUnits := by
  have size := halfTurnUnits_eq_mul
  have one := unitsPerOne_eq_mul
  have positive := epsilonUnits_pos
  rcases lt_or_ge (hi - lo).natAbs (4 * Binary64.unitsPerOne) with near | far
  · unfold completedUnits
    have first := two_epsilon_isGrain.near_rounded (hi - lo) (by omega)
    have second := four_epsilon_isGrain.near_rounded (roundedUnits (hi - lo) + 2 * halfTurnUnits)
      (by omega)
    omega
  · have measured := completedUnits_of_far loWithin hiWithin order (by omega)
    omega

theorem completedUnits_le (order : hi < lo) : completedUnits lo hi ≤ 2 * halfTurnUnits := by
  have nonpos := roundedUnits_le_of_le roundedUnits_zero (show hi - lo ≤ 0 by omega)
  exact roundedUnits_le_of_le roundedUnits_fullTurn (by omega)

theorem natAbs_lengthUnits_le (loWithin : lo.natAbs ≤ halfTurnUnits)
    (hiWithin : hi.natAbs ≤ halfTurnUnits) : (lengthUnits lo hi).natAbs ≤ 2 * halfTurnUnits := by
  have size := halfTurnUnits_eq_mul
  have one := unitsPerOne_eq_mul
  by_cases order : lo ≤ hi
  · rw [lengthUnits_of_le order]
    exact natAbs_roundedUnits_le representable_fullTurnUnits (by omega)
  · rw [lengthUnits_of_lt (by omega)]
    have bounded := completedUnits_le (show hi < lo by omega)
    split <;> omega

theorem roundedUnits_le_completedUnits {rest : Int} (loWithin : lo.natAbs ≤ halfTurnUnits)
    (hiWithin : hi.natAbs ≤ halfTurnUnits)
    (shorter : rest + 2 * epsilonUnits ≤ hi - lo + 2 * halfTurnUnits) :
    roundedUnits rest ≤ completedUnits lo hi := by
  have size := halfTurnUnits_eq_mul
  have positive := epsilonUnits_pos
  have near := four_epsilon_isGrain.near_rounded (hi - lo) (by omega)
  exact roundedUnits_mono (by omega)

theorem InvertedCounts.completedUnits_pos (counts : InvertedCounts lo hi)
    (longer : ¬ (lo = halfTurnUnits ∧ hi = 2 * epsilonUnits - halfTurnUnits)) :
    0 < completedUnits lo hi := by
  have hiGap := neg_halfTurn_add_le_of_lt counts.hi_exact counts.above
  obtain ⟨above, order, below, loExact, hiExact⟩ := counts
  have size := halfTurnUnits_eq_mul
  have one := unitsPerOne_eq_mul
  have positive := epsilonUnits_pos
  have apart : 4 * epsilonUnits ≤ hi - lo + 2 * halfTurnUnits := by
    rcases lt_or_ge lo halfTurnUnits with short | atHalfTurn
    · have loGap := add_le_halfTurn_of_lt loExact short
      omega
    · rcases lt_or_ge hi.natAbs (2 * Binary64.unitsPerOne) with near | far
      · omega
      · have aligned := two_epsilon_isGrain.dvd_rounded hi (by omega)
        rw [hiExact] at aligned
        have hiNext := add_le_of_lt_of_dvd (by omega)
          (Int.dvd_sub (Int.dvd_refl (2 * epsilonUnits)) two_dvd_halfTurn) aligned
        omega
  have near := completedUnits_near order (by omega) (by omega)
  omega

theorem ValidCounts.spanUnits_nonneg (counts : ValidCounts lo hi) : 0 ≤ spanUnits lo hi := by
  have ⟨loWithin, hiWithin⟩ := counts.within
  unfold spanUnits
  split <;> omega

/-- The empty arc's length is no measure of it, and the shortest arc across half a turn is taken for
the empty one. All other lengths are nearly exact. -/
theorem ValidCounts.lengthUnits_near (counts : ValidCounts lo hi)
    (nonempty : ¬ (lo = halfTurnUnits ∧ hi = -halfTurnUnits)) :
    lengthUnits lo hi ≤ spanUnits lo hi + 3 * epsilonUnits ∧
      (¬ (lo = halfTurnUnits ∧ hi = 2 * epsilonUnits - halfTurnUnits) →
        0 ≤ lengthUnits lo hi ∧ spanUnits lo hi ≤ lengthUnits lo hi + 3 * epsilonUnits) := by
  have ⟨loWithin, hiWithin⟩ := counts.within
  have size := halfTurnUnits_eq_mul
  have positive := epsilonUnits_pos
  rcases le_or_gt lo hi with order | order
  · rw [lengthUnits_of_le order, spanUnits_of_le order]
    have near := four_epsilon_isGrain.near_rounded (hi - lo) (by omega)
    have nonneg := roundedUnits_nonneg (show 0 ≤ hi - lo by omega)
    omega
  · have near := completedUnits_near order loWithin hiWithin
    rw [lengthUnits_of_lt order, spanUnits_of_lt order]
    cases counts with
    | empty loAt hiAt => exact absurd ⟨loAt, hiAt⟩ nonempty
    | full loAt hiAt => omega
    | normal counts => exact absurd order (not_lt.mpr counts.order)
    | inverted counts =>
      have completed := counts.completedUnits_pos
      split <;> omega

end CircularArc
