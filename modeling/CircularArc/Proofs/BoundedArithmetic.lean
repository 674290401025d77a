import CircularArc.Proofs.ForwardDistance
import CircularArc.Proofs.RoundingGrid

/-!
# Bounds on sums that may leave the finite range

Where a sum or a double stands follows from where its terms stand: the sign of a zero is lost. Sums
respect bounds even where a term is infinite or the result leaves the finite range, and doubling is
exact as long as it stays within that range.
-/

set_option autoImplicit false

namespace CircularArc

theorem representable_double {units : Nat} (aligned : Representable units)
    (bounded : 2 * units < magnitudeLimit) : Representable (2 * units) := by
  refine ⟨bounded, ?_⟩
  by_cases zero : units = 0
  · subst zero
    exact Nat.dvd_zero _
  · have log : (2 * units).log2 = units.log2 + 1 := Nat.log2_two_mul zero
    have scaled : spacing (2 * units) ∣ 2 * spacing units := by
      unfold spacing
      simp only [Nat.pow_eq]
      rw [← pow_succ', log]
      exact Nat.pow_dvd_pow 2 (by omega)
    exact Nat.dvd_trans scaled (Nat.mul_dvd_mul_left 2 aligned.2)

theorem roundedUnits_twice {count : Int} (exact : roundedUnits count = count)
    (within : (2 * count).natAbs ≤ exactLimit) : roundedUnits (2 * count) = 2 * count := by
  have bounded := exactLimit_lt
  have aligned : Representable count.natAbs := by
    rw [← exact, natAbs_roundedUnits]
    exact ⟨nearestMagnitude_lt_of_le_exactLimit (by omega), spacing_dvd_nearestMagnitude _⟩
  refine roundedUnits_of_representable ?_
  rw [Int.natAbs_mul]
  exact representable_double aligned (by omega)

namespace Position

/-- Where the rounded sum of two numbers stands. Opposite infinities have no sum. -/
def plus : Position → Position → Position
  | .undefined, _ => .undefined
  | _, .undefined => .undefined
  | .belowAll, .aboveAll => .undefined
  | .aboveAll, .belowAll => .undefined
  | .belowAll, _ => .belowAll
  | _, .belowAll => .belowAll
  | .aboveAll, _ => .aboveAll
  | _, .aboveAll => .aboveAll
  | .units left, .units right => (Binary64.ofUnits false (left + right)).position

def opposite : Position → Position
  | .undefined => .undefined
  | .belowAll => .aboveAll
  | .units count => .units (-count)
  | .aboveAll => .belowAll

def twofold (place : Position) : Position := place.plus place

@[simp] theorem belowAll_le_iff (place : Position) :
    belowAll.le place = true ↔ place ≠ .undefined := by
  cases place <;> simp [le]

@[simp] theorem le_aboveAll_iff (place : Position) :
    place.le aboveAll = true ↔ place ≠ .undefined := by
  cases place <;> simp [le]

theorem exists_units_of_le {place : Position} {least most : Int}
    (above : (units least).le place = true) (below : place.le (units most) = true) :
    ∃ count, place = units count ∧ least ≤ count ∧ count ≤ most := by
  cases place with
  | undefined | belowAll => cases above
  | aboveAll => cases below
  | units count =>
    rw [le_units, decide_eq_true_eq] at above below
    exact ⟨count, rfl, above, below⟩

end Position

namespace Binary64

variable {left right number : Binary64} {leftCount rightCount count : Int}

theorem position_ofUnits_ne_undefined (zeroNegative : Bool) (total : Int) :
    (ofUnits zeroNegative total).position ≠ .undefined := by
  unfold ofUnits
  split
  · simp [zero, position]
  · split
    · simp [position]
    · simp only [position]
      split <;> simp

theorem position_ofUnits_of_beyond (zeroNegative : Bool) {total : Int}
    (beyond : ¬ nearestMagnitude total.natAbs < magnitudeLimit) :
    (ofUnits zeroNegative total).position = if total < 0 then .belowAll else .aboveAll := by
  have nonzero : total ≠ 0 := by
    rintro rfl
    exact beyond (nearestMagnitude_lt_of_le_exactLimit (Nat.zero_le _))
  simp only [ofUnits, nonzero, beyond, ↓reduceIte, ↓reduceDIte, position, decide_eq_true_eq]

theorem position_ofUnits_mono (zeroNegative : Bool) {smaller larger : Int}
    (order : smaller ≤ larger) :
    (ofUnits zeroNegative smaller).position.le (ofUnits zeroNegative larger).position = true := by
  by_cases smallerBounded : nearestMagnitude smaller.natAbs < magnitudeLimit
  · by_cases largerBounded : nearestMagnitude larger.natAbs < magnitudeLimit
    · rw [position_ofUnits _ smallerBounded, position_ofUnits _ largerBounded]
      exact Position.units_le_units (roundedUnits_mono order)
    · have positive : ¬ larger < 0 := fun negative => largerBounded
        (lt_of_le_of_lt (nearestMagnitude_mono (by omega)) smallerBounded)
      rw [position_ofUnits_of_beyond _ largerBounded, if_neg positive, Position.le_aboveAll_iff]
      exact position_ofUnits_ne_undefined _ _
  · rw [position_ofUnits_of_beyond _ smallerBounded]
    split
    · rw [Position.belowAll_le_iff]
      exact position_ofUnits_ne_undefined _ _
    · have largerBeyond : ¬ nearestMagnitude larger.natAbs < magnitudeLimit := fun bounded =>
        smallerBounded (lt_of_le_of_lt (nearestMagnitude_mono (by omega)) bounded)
      rw [position_ofUnits_of_beyond _ largerBeyond, if_neg (by omega)]
      rfl

theorem position_ofUnits_sign (zeroNegative : Bool) (total : Int) :
    (ofUnits zeroNegative total).position = (ofUnits false total).position := by
  unfold ofUnits
  split
  · simp [zero, position]
  · rfl

theorem position_add_eq_plus (left right : Binary64) :
    (left.add right).position = left.position.plus right.position := by
  cases left with
  | nan => rfl
  | infinite leftSign =>
    cases right with
    | nan => cases leftSign <;> rfl
    | infinite rightSign => cases leftSign <;> cases rightSign <;> rfl
    | finite => cases leftSign <;> rfl
  | finite =>
    cases right with
    | nan => rfl
    | infinite rightSign => cases rightSign <;> rfl
    | finite => exact position_ofUnits_sign _ _

theorem position_neg_eq_opposite (number : Binary64) :
    number.neg.position = number.position.opposite := by
  cases number with
  | nan => rfl
  | infinite sign => cases sign <;> rfl
  | finite sign units => simp [neg, position, Position.opposite]

theorem position_sub_eq_plus (minuend subtrahend : Binary64) :
    (minuend.sub subtrahend).position = minuend.position.plus subtrahend.position.opposite := by
  rw [sub, position_add_eq_plus, position_neg_eq_opposite]

theorem position_twice_eq_plus (number : Binary64) :
    number.twice.position = number.position.plus number.position := by
  cases number with
  | nan => rfl
  | infinite sign => cases sign <;> rfl
  | finite sign units =>
    simp only [twice, position, Position.plus, ← two_mul]
    exact position_ofUnits_sign _ _

theorem position_twice (stands : number.position = .units count)
    (within : (2 * count).natAbs ≤ exactLimit) : number.twice.position = .units (2 * count) := by
  have exact := roundedUnits_of_position stands
  obtain ⟨negative, units, aligned, rfl, rfl⟩ := position_eq_units_iff.mp stands
  rw [twice, position_ofUnits, roundedUnits_twice exact within]
  exact nearestMagnitude_lt_of_le_exactLimit within

end Binary64

/-!
## Sums keep the order of places
-/

namespace Position

variable {left right smaller larger otherSmaller otherLarger : Position}
  {leftCount rightCount : Int}

theorem units_plus_units (within : (leftCount + rightCount).natAbs ≤ exactLimit) :
    (units leftCount).plus (units rightCount) = .units (roundedUnits (leftCount + rightCount)) :=
  Binary64.position_ofUnits _ (nearestMagnitude_lt_of_le_exactLimit within)

theorem plus_eq_undefined_iff :
    left.plus right = .undefined ↔ left = .undefined ∨ right = .undefined ∨
      left = .belowAll ∧ right = .aboveAll ∨ left = .aboveAll ∧ right = .belowAll := by
  cases left <;> cases right <;> simp [plus, Binary64.position_ofUnits_ne_undefined]

theorem le_cases (order : smaller.le larger = true) :
    smaller = .belowAll ∨ larger = .aboveAll ∨
      ∃ least most, smaller = .units least ∧ larger = .units most ∧ least ≤ most := by
  cases smaller with
  | undefined => cases order
  | belowAll => exact .inl rfl
  | units least =>
    cases larger with
    | undefined | belowAll => cases order
    | units most => exact .inr (.inr ⟨least, most, rfl, rfl, of_decide_eq_true order⟩)
    | aboveAll => exact .inr (.inl rfl)
  | aboveAll =>
    cases larger with
    | undefined | belowAll | units => cases order
    | aboveAll => exact .inr (.inl rfl)

/-- Sums of larger terms are larger, unless opposite infinities are added. -/
theorem plus_le_plus (order : smaller.le larger = true)
    (otherOrder : otherSmaller.le otherLarger = true)
    (defined : smaller.plus otherSmaller ≠ .undefined)
    (largerDefined : larger.plus otherLarger ≠ .undefined) :
    (smaller.plus otherSmaller).le (larger.plus otherLarger) = true := by
  by_cases least : smaller.plus otherSmaller = .belowAll
  · rw [least]
    exact (belowAll_le_iff _).mpr largerDefined
  by_cases most : larger.plus otherLarger = .aboveAll
  · rw [most]
    exact (le_aboveAll_iff _).mpr defined
  rcases le_cases order with rfl | rfl | ⟨low, high, rfl, rfl, ordered⟩
  · cases otherSmaller <;> contradiction
  · cases otherLarger <;> contradiction
  rcases le_cases otherOrder with rfl | rfl | ⟨otherLow, otherHigh, rfl, rfl, otherOrdered⟩
  · contradiction
  · contradiction
  exact Binary64.position_ofUnits_mono false (by omega)

theorem le_plus (leftFrom : (units leftCount).le left = true)
    (rightFrom : (units rightCount).le right = true)
    (within : (leftCount + rightCount).natAbs ≤ exactLimit) :
    (units (roundedUnits (leftCount + rightCount))).le (left.plus right) = true := by
  rw [← units_plus_units within]
  refine plus_le_plus leftFrom rightFrom (Binary64.position_ofUnits_ne_undefined _ _) ?_
  rw [ne_eq, plus_eq_undefined_iff]
  rintro (rfl | rfl | ⟨rfl, rfl⟩ | ⟨rfl, rfl⟩) <;> contradiction

theorem plus_le (leftTo : left.le (units leftCount) = true)
    (rightTo : right.le (units rightCount) = true)
    (within : (leftCount + rightCount).natAbs ≤ exactLimit) :
    (left.plus right).le (units (roundedUnits (leftCount + rightCount))) = true := by
  rw [← units_plus_units within]
  refine plus_le_plus leftTo rightTo ?_ (Binary64.position_ofUnits_ne_undefined _ _)
  rw [ne_eq, plus_eq_undefined_iff]
  rintro (rfl | rfl | ⟨rfl, rfl⟩ | ⟨rfl, rfl⟩) <;> contradiction

theorem defined_of_le (order : smaller.le larger = true) :
    smaller ≠ .undefined ∧ larger ≠ .undefined := by
  cases smaller <;> cases larger <;> simp_all [le]

theorem twofold_mono (order : smaller.le larger = true) :
    smaller.twofold.le larger.twofold = true := by
  obtain ⟨defined, largerDefined⟩ := defined_of_le order
  refine plus_le_plus order order ?_ ?_
  · rw [ne_eq, plus_eq_undefined_iff]
    rintro (_ | _ | ⟨rfl, _⟩ | ⟨rfl, _⟩) <;> contradiction
  · rw [ne_eq, plus_eq_undefined_iff]
    rintro (_ | _ | ⟨rfl, _⟩ | ⟨rfl, _⟩) <;> contradiction

theorem opposite_antitone (order : smaller.le larger = true) :
    larger.opposite.le smaller.opposite = true := by
  rcases le_cases order with rfl | rfl | ⟨least, most, rfl, rfl, ordered⟩
  · cases larger <;> trivial
  · cases smaller <;> trivial
  · exact units_le_units (Int.neg_le_neg ordered)

theorem plus_opposite_antitone (count : Int) (order : smaller.le larger = true) :
    ((units count).plus larger.opposite).le ((units count).plus smaller.opposite) = true := by
  have reversed := opposite_antitone order
  obtain ⟨defined, largerDefined⟩ := defined_of_le reversed
  refine plus_le_plus (units_le_units le_rfl) reversed ?_ ?_
  · simp [plus_eq_undefined_iff, defined]
  · simp [plus_eq_undefined_iff, largerDefined]

end Position

theorem roundedUnits_nonpos_iff {total : Int} : roundedUnits total ≤ 0 ↔ total ≤ 0 := by
  have reflected : roundedUnits (-total) < 0 ↔ -total < 0 := roundedUnits_neg_iff
  rw [roundedUnits_neg] at reflected
  omega

theorem Number.integer_zero_position : (Number.integer 0).position = .units 0 := by
  simp [Number.position]

theorem Value.integer_zero_isPlaced : (number (.integer 0)).IsPlaced :=
  ⟨0, Number.integer_zero_position⟩

theorem Value.exactValue_integer_zero : (number (.integer 0)).exactValue = 0 := by
  have stands : (number (.integer 0)).position = .units 0 := Number.integer_zero_position
  rw [exactValue_of_position stands, unitsValue_zero]

theorem Number.real_fullTurn_position :
    (Number.real fullTurn).position = .units (2 * halfTurnUnits) := by
  have stands : (Number.real fullTurn).position = .units fullTurnUnits := rfl
  rw [stands, fullTurnUnits, Nat.cast_mul, Nat.cast_ofNat]

theorem Number.le_eq_false_of_lt {left right : Number} (less : left.lt right = true) :
    right.le left = false := by
  rw [Number.lt, Position.lt, Bool.and_eq_true, Bool.not_eq_true'] at less
  exact less.2

theorem Binary64.neg_margin_cases {margin : Binary64}
    (negative : (Number.real margin).lt (.integer 0) = true) :
    margin.position.le (.units (-halfTurnUnits)) = true ∨
      ∃ count, margin.position = .units count ∧ count < 0 ∧ -halfTurnUnits ≤ count := by
  cases margin with
  | nan => cases negative
  | infinite sign =>
    cases sign with
    | true => exact .inl rfl
    | false => cases negative
  | finite sign units aligned =>
    have marginAt : (Number.real (.finite sign units aligned)).position =
      .units (signedUnits sign units) := rfl
    rw [Number.lt_of_position marginAt Number.integer_zero_position, decide_eq_true_eq] at negative
    rcases le_or_gt (-(halfTurnUnits : Int)) (signedUnits sign units) with near | far
    · exact .inr ⟨_, marginAt, negative, near⟩
    · refine .inl ?_
      rw [position]
      exact Position.units_le_units (by omega)

theorem Binary64.nonneg_margin_cases {margin : Binary64} (bound : Int)
    (nonneg : (Number.integer 0).le margin = true) :
    (Position.units bound).le margin.position = true ∨
      ∃ count, margin.position = .units count ∧ 0 ≤ count ∧ count ≤ bound := by
  cases margin with
  | nan => cases nonneg
  | infinite sign =>
    cases sign with
    | true => cases nonneg
    | false => exact .inl rfl
  | finite sign units aligned =>
    have marginAt : (Number.real (.finite sign units aligned)).position =
      .units (signedUnits sign units) := rfl
    rw [Number.le_of_position Number.integer_zero_position marginAt, decide_eq_true_eq] at nonneg
    rcases le_or_gt (signedUnits sign units) bound with near | far
    · exact .inr ⟨_, marginAt, nonneg, near⟩
    · refine .inl ?_
      rw [position]
      exact Position.units_le_units (by omega)

end CircularArc
