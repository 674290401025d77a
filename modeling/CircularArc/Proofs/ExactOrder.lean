import CircularArc.Arc.Numeric
import CircularArc.Arc.PointSet
import CircularArc.Arc.Valid
import Mathlib.Tactic.Linarith
import Mathlib.Tactic.Positivity

/-!
# Comparisons are comparisons of exact values

Numbers are compared by position, point sets are made of rational numbers. On values that stand at a
finite place the two orders are one, so a test that succeeds decides a statement about exact values.
-/

set_option autoImplicit false

namespace CircularArc

/-- The test succeeds, and its outcome is whether the statement holds. -/
def Decides (test : Except Fault Bool) (statement : Prop) : Prop :=
  ∃ outcome, test = .ok outcome ∧ (outcome = true ↔ statement)

namespace Decides

variable {test : Except Fault Bool} {statement other : Prop}

theorem of_ok {outcome : Bool} (succeeds : test = .ok outcome)
    (means : outcome = true ↔ statement) : Decides test statement :=
  ⟨outcome, succeeds, means⟩

theorem congr (decides : Decides test statement) (same : statement ↔ other) :
    Decides test other := by
  obtain ⟨outcome, succeeds, means⟩ := decides
  exact ⟨outcome, succeeds, means.trans same⟩

theorem eq_true_iff (decides : Decides test statement) : test = .ok true ↔ statement := by
  obtain ⟨outcome, succeeds, means⟩ := decides
  rw [succeeds, Except.ok.injEq]
  exact means

theorem eq_false_iff (decides : Decides test statement) : test = .ok false ↔ ¬ statement := by
  obtain ⟨outcome, succeeds, means⟩ := decides
  rw [succeeds, Except.ok.injEq, ← means, Bool.not_eq_true]

theorem unique (decides : Decides test statement) (otherDecides : Decides test other) :
    statement ↔ other := by
  rw [← decides.eq_true_iff, otherDecides.eq_true_iff]

theorem eq_of_iff {otherTest : Except Fault Bool} (decides : Decides test statement)
    (otherDecides : Decides otherTest other) (same : statement ↔ other) : test = otherTest := by
  obtain ⟨outcome, succeeds, means⟩ := decides
  obtain ⟨otherOutcome, otherSucceeds, otherMeans⟩ := otherDecides
  have agree : outcome = otherOutcome := by
    rw [Bool.eq_iff_iff, means, otherMeans]
    exact same
  rw [succeeds, otherSucceeds, agree]

end Decides

theorem unitsValue_le_iff {left right : Int} :
    unitsValue left ≤ unitsValue right ↔ left ≤ right := by
  unfold unitsValue
  rw [div_le_div_iff_of_pos_right (by positivity), Int.cast_le]

theorem unitsValue_lt_iff {left right : Int} :
    unitsValue left < unitsValue right ↔ left < right := by
  rw [← not_le, unitsValue_le_iff, not_le]

theorem unitsValue_inj {left right : Int} : unitsValue left = unitsValue right ↔ left = right := by
  rw [le_antisymm_iff, unitsValue_le_iff, unitsValue_le_iff, ← le_antisymm_iff]

theorem unitsValue_add (left right : Int) :
    unitsValue (left + right) = unitsValue left + unitsValue right := by
  unfold unitsValue
  rw [Int.cast_add, add_div]

theorem unitsValue_neg (count : Int) : unitsValue (-count) = -unitsValue count := by
  unfold unitsValue
  rw [Int.cast_neg, neg_div]

theorem unitsValue_sub (left right : Int) :
    unitsValue (left - right) = unitsValue left - unitsValue right := by
  rw [sub_eq_add_neg, unitsValue_add, unitsValue_neg, ← sub_eq_add_neg]

theorem unitsValue_zero : unitsValue 0 = 0 := by
  unfold unitsValue
  rw [Int.cast_zero, zero_div]

theorem halfCircle_pos : 0 < halfCircle := by
  unfold halfCircle
  rw [← unitsValue_zero, unitsValue_lt_iff]
  exact_mod_cast halfTurnUnits_pos

namespace Value

def IsPlaced (value : Value) : Prop := ∃ count : Int, value.position = .units count

theorem exactValue_of_position {value : Value} {count : Int}
    (stands : value.position = .units count) : value.exactValue = unitsValue count := by
  unfold exactValue
  rw [stands]

theorem IsAngle.isPlaced {value : Value} (isAngle : value.IsAngle) : value.IsPlaced := by
  obtain ⟨count, stands, _⟩ := isAngle
  exact ⟨count, stands⟩

theorem isAngle_iff {value : Value} :
    value.IsAngle ↔
      value.IsPlaced ∧ -halfCircle ≤ value.exactValue ∧ value.exactValue ≤ halfCircle := by
  unfold halfCircle
  constructor
  · intro isAngle
    refine ⟨isAngle.isPlaced, ?_⟩
    obtain ⟨count, stands, bound⟩ := isAngle
    rw [exactValue_of_position stands, ← unitsValue_neg, unitsValue_le_iff, unitsValue_le_iff]
    omega
  · rintro ⟨⟨count, stands⟩, below, above⟩
    rw [exactValue_of_position stands, ← unitsValue_neg, unitsValue_le_iff] at below
    rw [exactValue_of_position stands, unitsValue_le_iff] at above
    exact ⟨count, stands, by omega⟩

theorem IsAngle.neg_halfCircle_le {value : Value} (isAngle : value.IsAngle) :
    -halfCircle ≤ value.exactValue := (isAngle_iff.mp isAngle).2.1

theorem IsAngle.le_halfCircle {value : Value} (isAngle : value.IsAngle) :
    value.exactValue ≤ halfCircle := (isAngle_iff.mp isAngle).2.2

theorem IsPlaced.isHalfTurn_iff {value : Value} (placed : value.IsPlaced) :
    value.IsHalfTurn ↔ value.exactValue = halfCircle := by
  obtain ⟨count, stands⟩ := placed
  unfold IsHalfTurn halfCircle
  rw [stands, exactValue_of_position stands, unitsValue_inj, Position.units.injEq]

theorem IsPlaced.isMinusHalfTurn_iff {value : Value} (placed : value.IsPlaced) :
    value.IsMinusHalfTurn ↔ value.exactValue = -halfCircle := by
  obtain ⟨count, stands⟩ := placed
  unfold IsMinusHalfTurn halfCircle
  rw [stands, exactValue_of_position stands, ← unitsValue_neg, unitsValue_inj,
    Position.units.injEq]

theorem halfTurn_isPlaced : IsPlaced (number halfTurn) := ⟨halfTurnUnits, halfTurn_position⟩

theorem minusHalfTurn_isPlaced : IsPlaced (number minusHalfTurn) :=
  ⟨-(halfTurnUnits : Int), minusHalfTurn_position⟩

@[simp] theorem exactValue_halfTurn : exactValue (number halfTurn) = halfCircle :=
  exactValue_of_position halfTurn_position

@[simp] theorem exactValue_minusHalfTurn : exactValue (number minusHalfTurn) = -halfCircle := by
  have stands : (number minusHalfTurn).position = .units (-(halfTurnUnits : Int)) :=
    minusHalfTurn_position
  rw [exactValue_of_position stands, unitsValue_neg]
  rfl

theorem halfTurn_isAngle : IsAngle (number halfTurn) := ⟨halfTurnUnits, halfTurn_position, by omega⟩

theorem minusHalfTurn_isAngle : IsAngle (number minusHalfTurn) :=
  ⟨-(halfTurnUnits : Int), minusHalfTurn_position, by omega⟩

theorem zero_isAngle : IsAngle (number (Binary64.zero false)) := ⟨0, rfl, Nat.zero_le _⟩

theorem zero_isPlaced : IsPlaced (number (Binary64.zero false)) := ⟨0, rfl⟩

theorem exactValue_zero : exactValue (number (Binary64.zero false)) = 0 := unitsValue_zero

end Value

namespace Number

variable {left right : Number}

theorem le_eq_decide (leftPlaced : (Value.number left).IsPlaced)
    (rightPlaced : (Value.number right).IsPlaced) :
    left.le right =
      decide ((Value.number left).exactValue ≤ (Value.number right).exactValue) := by
  obtain ⟨leftCount, leftAt⟩ := leftPlaced
  obtain ⟨rightCount, rightAt⟩ := rightPlaced
  rw [le_of_position leftAt rightAt, Value.exactValue_of_position leftAt,
    Value.exactValue_of_position rightAt, decide_eq_decide, unitsValue_le_iff]

theorem lt_asymm (less : left.lt right = true) : right.lt left = false := by
  unfold lt Position.lt at less ⊢
  rw [Bool.and_eq_true, Bool.not_eq_true'] at less
  rw [less.2, Bool.false_and]

theorem lt_eq_decide (leftPlaced : (Value.number left).IsPlaced)
    (rightPlaced : (Value.number right).IsPlaced) :
    left.lt right =
      decide ((Value.number left).exactValue < (Value.number right).exactValue) := by
  obtain ⟨leftCount, leftAt⟩ := leftPlaced
  obtain ⟨rightCount, rightAt⟩ := rightPlaced
  rw [lt_of_position leftAt rightAt, Value.exactValue_of_position leftAt,
    Value.exactValue_of_position rightAt, decide_eq_decide, unitsValue_lt_iff]

theorem same_eq_decide (leftPlaced : (Value.number left).IsPlaced)
    (rightPlaced : (Value.number right).IsPlaced) :
    left.same right =
      decide ((Value.number left).exactValue = (Value.number right).exactValue) := by
  obtain ⟨leftCount, leftAt⟩ := leftPlaced
  obtain ⟨rightCount, rightAt⟩ := rightPlaced
  rw [same_of_position leftAt rightAt, Value.exactValue_of_position leftAt,
    Value.exactValue_of_position rightAt, decide_eq_decide, unitsValue_inj]

end Number

end CircularArc
