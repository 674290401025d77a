import CircularArc.Binary64.Word
import CircularArc.Proofs.DirectedDistance
import CircularArc.Proofs.Growing

/-!
# The points that centers name

The center of an arc names a point of the arc and halves it. It need not be in canonical form: where
the sum of the two ends is positive but hardly more than nothing, either the center of the arc or that
of its complement comes out at minus half a turn.
-/

set_option autoImplicit false

namespace CircularArc

/-!
## Centers at minus half a turn
-/

/-- The sum of the two counts is positive, but half of it is lost beside half a turn. Half of a single
unit is nothing. -/
def NearlyCancel (lo hi : Int) : Prop :=
  2 ≤ lo + hi ∧ lo + hi ≤ 2 * epsilonUnits + crumbUnits

section Lowest

variable {lo hi count : Int}

theorem nearlyCancel_comm : NearlyCancel lo hi ↔ NearlyCancel hi lo := by
  unfold NearlyCancel
  rw [add_comm]

theorem roundedUnits_of_small (small : count.natAbs ≤ 2 ^ 53) : roundedUnits count = count := by
  exact one_isGrain.rounded_of_dvd (one_dvd count) (by omega)

/-- The opposite of a small positive angle is rounded to minus half a turn. -/
theorem antipodeUnits_eq_neg_halfTurn_iff (within : count.natAbs ≤ halfTurnUnits) :
    antipodeUnits count = -halfTurnUnits ↔ 0 < count ∧ count ≤ epsilonUnits := by
  have size := halfTurnUnits_eq_mul
  have positive := epsilonUnits_pos
  unfold antipodeUnits
  by_cases nonpos : count ≤ 0
  · have nonneg := roundedUnits_nonneg (show 0 ≤ count + halfTurnUnits by omega)
    rw [if_pos nonpos]
    omega
  · rw [if_neg nonpos, ← neg_sub, roundedUnits_neg, neg_inj]
    constructor
    · intro lost
      have near := two_epsilon_isGrain.near_rounded (halfTurnUnits - count) (by omega)
      omega
    · rintro ⟨-, small⟩
      have least := roundedUnits_mono (show halfTurnUnits - epsilonUnits ≤ halfTurnUnits - count
        by omega)
      have most :=
        roundedUnits_le_of_le roundedUnits_halfTurn (show halfTurnUnits - count ≤ _ by omega)
      rw [roundedUnits_beside_halfTurn] at least
      exact le_antisymm most least

theorem middleUnits_pos_iff : 0 < middleUnits lo hi ↔ 2 ≤ lo + hi := by
  have near := halfUnits_near (roundedUnits (lo + hi))
  unfold middleUnits
  rcases le_or_gt 2 (lo + hi) with least | below
  · have order := roundedUnits_mono least
    rw [roundedUnits_of_small (show (2 : Int).natAbs ≤ 2 ^ 53 by decide)] at order
    omega
  · have order := roundedUnits_mono (show lo + hi ≤ 1 by omega)
    rw [roundedUnits_of_small (show (1 : Int).natAbs ≤ 2 ^ 53 by decide)] at order
    have single : halfUnits 1 = 0 := by decide
    rcases lt_or_eq_of_le order with less | same
    · omega
    · rw [same, single]
      omega

theorem middleUnits_le_epsilonUnits_iff :
    middleUnits lo hi ≤ epsilonUnits ↔ lo + hi ≤ 2 * epsilonUnits + crumbUnits := by
  have near := halfUnits_near (roundedUnits (lo + hi))
  have parts := epsilonUnits_eq_mul
  have positive := epsilonUnits_pos
  unfold middleUnits
  rcases le_or_gt (lo + hi) (2 * epsilonUnits + crumbUnits) with small | large
  · have rounded := roundedUnits_le_two_epsilon small
    omega
  · have rounded := two_epsilon_add_le_roundedUnits large
    omega

theorem ValidCounts.centerUnits_eq_neg_halfTurn_iff (counts : ValidCounts lo hi) :
    centerUnits lo hi = -halfTurnUnits ↔ hi < lo ∧ NearlyCancel lo hi := by
  obtain ⟨loWithin, hiWithin⟩ := counts.within
  unfold centerUnits
  by_cases order : hi < lo
  · rw [if_pos order, antipodeUnits_eq_neg_halfTurn_iff (natAbs_middleUnits_le loWithin hiWithin),
      middleUnits_pos_iff, middleUnits_le_epsilonUnits_iff, and_iff_right order]
    rfl
  · rw [if_neg order]
    refine iff_of_false (fun lowest => ?_) (fun cancels => order cancels.1)
    have size := halfTurnUnits_eq_mul
    have positive := epsilonUnits_pos
    cases counts with
    | empty loAt hiAt => omega
    | full loAt hiAt =>
      have near := middleUnits_near loWithin hiWithin
      omega
    | normal counts =>
      have ⟨above, _, _, loExact, hiExact⟩ := counts
      have inside := middleUnits_mem counts.order loExact hiExact loWithin hiWithin
      omega
    | inverted counts => exact order counts.order

theorem ValidCounts.swap (counts : ValidCounts lo hi) (distinct : lo ≠ hi) : ValidCounts hi lo := by
  cases counts with
  | empty loAt hiAt => exact .full hiAt loAt
  | full loAt hiAt => exact .empty hiAt loAt
  | normal counts =>
    obtain ⟨above, order, below, loExact, hiExact⟩ := counts
    exact .inverted ⟨above, lt_of_le_of_ne order distinct, below, hiExact, loExact⟩
  | inverted counts =>
    obtain ⟨above, order, below, loExact, hiExact⟩ := counts
    exact .normal ⟨above, le_of_lt order, below, hiExact, loExact⟩

theorem nearlyCancel_self_iff (exact : roundedUnits count = count) :
    NearlyCancel count count ↔ 0 < count ∧ count ≤ epsilonUnits := by
  have parts := epsilonUnits_eq_mul
  have positive := epsilonUnits_pos
  unfold NearlyCancel
  rcases le_or_gt count epsilonUnits with small | large
  · omega
  · have next := epsilonUnits_add_le_of_lt exact large
    omega

theorem ValidCounts.complementCenterUnits_eq_neg_halfTurn_iff (counts : ValidCounts lo hi) :
    complementCenterUnits lo hi = -halfTurnUnits ↔ lo ≤ hi ∧ NearlyCancel lo hi := by
  unfold complementCenterUnits
  by_cases single : lo = hi
  · subst single
    have turn := halfTurnUnits_pos
    have exact : roundedUnits lo = lo := by
      cases counts with
      | empty loAt hiAt | full loAt hiAt => omega
      | normal counts => exact counts.lo_exact
      | inverted counts => exact counts.lo_exact
    rw [if_pos rfl, antipodeUnits_eq_neg_halfTurn_iff counts.within.1, nearlyCancel_self_iff exact,
      and_iff_right (le_refl lo)]
  · rw [if_neg single, (counts.swap single).centerUnits_eq_neg_halfTurn_iff, nearlyCancel_comm]
    exact and_congr_left fun _ => lt_iff_le_and_ne.trans (and_iff_left single)

end Lowest

theorem unitsValue_crumb : unitsValue crumbUnits = 1 / 2 ^ 104 := by
  rw [crumbUnits_eq, unitsValue, Int.cast_pow, Int.cast_ofNat, show 1074 = 970 + 104 by decide,
    pow_add, ← div_div, div_self (pow_ne_zero _ two_ne_zero)]

namespace Arc

variable {arc : Arc} {lo hi : Int}

/-- The sum of the two ends is positive, at least two units, but hardly more than `1 / 2 ^ 51`. -/
def EndsNearlyCancel (arc : Arc) : Prop :=
  unitsValue 2 ≤ arc.lo.exactValue + arc.hi.exactValue ∧
    arc.lo.exactValue + arc.hi.exactValue ≤ 1 / 2 ^ 51 + 1 / 2 ^ 104

theorem EndsAt.endsNearlyCancel_iff (endsAt : arc.EndsAt lo hi) :
    arc.EndsNearlyCancel ↔ NearlyCancel lo hi := by
  unfold EndsNearlyCancel NearlyCancel
  rw [endsAt.lo_exact, endsAt.hi_exact, ← unitsValue_two_epsilon, ← unitsValue_crumb,
    ← unitsValue_add, ← unitsValue_add, unitsValue_le_iff, unitsValue_le_iff]

/-- The centers of an arc and of its complement are angles. The first comes out at minus half a turn if
the lower end exceeds the upper one and the two nearly cancel, the second if they nearly cancel in the
other order. -/
theorem Valid.centers_range (valid : arc.Valid) :
    ∃ center middle, arc.center = .ok center ∧ arc.complementCenter = .ok middle ∧
      (Value.number center).IsAngle ∧ (Value.number middle).IsAngle ∧
      ((Value.number center).exactValue = -halfCircle ↔
        arc.hi.exactValue < arc.lo.exactValue ∧ arc.EndsNearlyCancel) ∧
      ((Value.number middle).exactValue = -halfCircle ↔
        arc.lo.exactValue ≤ arc.hi.exactValue ∧ arc.EndsNearlyCancel) := by
  obtain ⟨lo, hi, endsAt, counts⟩ := valid.exists_endsAt
  obtain ⟨loWithin, hiWithin⟩ := counts.within
  obtain ⟨center, centerIs, centerAt⟩ := endsAt.center loWithin hiWithin
  obtain ⟨middle, middleIs, middleAt⟩ := endsAt.complementCenter loWithin hiWithin
  have centerStands : (Value.number center).position = .units (centerUnits lo hi) := centerAt
  have middleStands : (Value.number middle).position = .units (complementCenterUnits lo hi) :=
    middleAt
  refine ⟨center, middle, centerIs, middleIs,
    ⟨_, centerStands, natAbs_centerUnits_le loWithin hiWithin⟩,
    ⟨_, middleStands, natAbs_complementCenterUnits_le loWithin hiWithin⟩, ?_, ?_⟩
  · rw [Value.exactValue_of_position centerStands, neg_halfCircle, unitsValue_inj,
      counts.centerUnits_eq_neg_halfTurn_iff, endsAt.endsNearlyCancel_iff, endsAt.lo_exact,
      endsAt.hi_exact, unitsValue_lt_iff]
  · rw [Value.exactValue_of_position middleStands, neg_halfCircle, unitsValue_inj,
      counts.complementCenterUnits_eq_neg_halfTurn_iff, endsAt.endsNearlyCancel_iff,
      endsAt.lo_exact, endsAt.hi_exact, unitsValue_le_iff]

theorem Valid.centers_range_of_lowerHalf :
    lowerHalf.Valid ∧ ∃ center middle, lowerHalf.center = .ok center ∧
      lowerHalf.complementCenter = .ok middle ∧ (Value.number center).exactValue ≠ -halfCircle ∧
      (Value.number middle).exactValue ≠ -halfCircle := by
  have size := halfTurnUnits_eq_mul
  have parts := epsilonUnits_eq_mul
  have positive := epsilonUnits_pos
  have apart : ¬ lowerHalf.EndsNearlyCancel := by
    rw [lowerHalf_endsAt.endsNearlyCancel_iff, NearlyCancel]
    omega
  obtain ⟨center, middle, centerIs, middleIs, -, -, centerLowest, middleLowest⟩ :=
    lowerHalf_valid.centers_range
  exact ⟨lowerHalf_valid, center, middle, centerIs, middleIs,
    fun lowest => apart (centerLowest.mp lowest).2, fun lowest => apart (middleLowest.mp lowest).2⟩

/-- The arc from one half on, past half a turn, to the next number above minus one half. -/
def oppositeHalves : Arc :=
  ⟨.number (Binary64.ofWord 0x3fe0000000000000), .number (Binary64.ofWord 0xbfdfffffffffffff)⟩

/-- Its center is minus half a turn, which is no point in canonical form. -/
theorem oppositeHalves_center_leaves_circle :
    oppositeHalves.Valid ∧ oppositeHalves.center = .ok minusHalfTurn ∧
      (Value.number minusHalfTurn).exactValue ∉ circle := by
  have evaluated : oppositeHalves.Valid ∧ oppositeHalves.center = .ok minusHalfTurn := by
    decide +kernel
  refine ⟨evaluated.1, evaluated.2, fun onCircle => ?_⟩
  rw [Value.exactValue_minusHalfTurn] at onCircle
  exact lt_irrefl _ onCircle.1

/-!
## The center halves the arc
-/

/-- The center of a non-empty arc lies in it and, unless the arc is full, halves it. -/
theorem Valid.center_halves (valid : arc.Valid) (nonempty : arc.isEmpty = false) :
    ∃ center, arc.center = .ok center ∧ arc.containsPoint (.number center) = .ok true ∧
      (arc.isFull = false →
        forwardGap arc.lo.exactValue (Value.number center).circlePoint +
            forwardGap (Value.number center).circlePoint arc.hi.exactValue = arc.exactLength ∧
          |forwardGap arc.lo.exactValue (Value.number center).circlePoint -
            forwardGap (Value.number center).circlePoint arc.hi.exactValue| ≤ 1 / 2 ^ 50) := by
  obtain ⟨lo, hi, endsAt, counts⟩ := valid.exists_endsAt
  obtain ⟨loWithin, hiWithin⟩ := counts.within
  obtain ⟨center, centerIs, centerAt⟩ := endsAt.center loWithin hiWithin
  have stands : (Value.number center).position = .units (centerUnits lo hi) := centerAt
  have within := natAbs_centerUnits_le loWithin hiWithin
  have isAngle : (Value.number center).IsAngle := ⟨_, stands, within⟩
  refine ⟨center, centerIs, ?_⟩
  rw [(valid.containsPoint_decides isAngle nofun).eq_true_iff]
  cases whole : arc.isFull with
  | true =>
    rw [valid.isFull_iff] at whole
    rw [points_of_full whole.1 whole.2]
    exact ⟨isAngle.circlePoint_mem, nofun⟩
  | false =>
    have proper := valid.proper_of_isEmpty_of_isFull nonempty whole
    rw [← Bool.not_eq_true, endsAt.isEmpty_iff] at nonempty
    rw [← Bool.not_eq_true, endsAt.isFull_iff] at whole
    have ⟨parts, after, before⟩ := (counts.halves nonempty whole).gaps stands
    rw [← endsAt.exactLength] at parts
    rw [← endsAt.lo_exact, ← endsAt.hi_exact] at parts after before
    refine ⟨proper.mem_points_iff.mpr ⟨isAngle.circlePoint_mem, ?_⟩, fun _ => ⟨parts, ?_⟩⟩
    · have nonneg := forwardGap_nonneg isAngle.circlePoint_mem proper.hi_mem
      linarith
    · rw [abs_le]
      constructor <;> linarith

theorem Valid.center_halves_of_shortestCrossing :
    shortestCrossing.Valid ∧ shortestCrossing.isEmpty = false ∧ shortestCrossing.isFull = false ∧
      ∃ center, shortestCrossing.center = .ok center ∧
        shortestCrossing.containsPoint (.number center) = .ok true ∧
        |forwardGap shortestCrossing.lo.exactValue (Value.number center).circlePoint -
          forwardGap (Value.number center).circlePoint shortestCrossing.hi.exactValue| ≤
            1 / 2 ^ 50 := by
  have endsAt := shortestCrossing_endsAt
  have size := halfTurnUnits_eq_mul
  have positive := epsilonUnits_pos
  have nonempty : shortestCrossing.isEmpty = false := by
    rw [← Bool.not_eq_true, endsAt.isEmpty_iff]
    omega
  have notFull : shortestCrossing.isFull = false := by
    rw [← Bool.not_eq_true, endsAt.isFull_iff]
    omega
  obtain ⟨center, centerIs, held, halved⟩ := shortestCrossing_valid.center_halves nonempty
  exact ⟨shortestCrossing_valid, nonempty, notFull, center, centerIs, held, (halved notFull).2⟩

end Arc

end CircularArc
