import CircularArc.Arc.Construction
import CircularArc.Arc.Containment
import CircularArc.Proofs.NumberArithmetic
import Mathlib.Tactic.NormNum

/-!
# Angles

A value is accepted as an angle exactly when it stands at most half a turn from zero, and every
angle but a truth value names a point of the circle.
-/

set_option autoImplicit false

namespace CircularArc

theorem halfTurnUnits_le_exactLimit : 4 * halfTurnUnits ≤ exactLimit := by decide +kernel

namespace Number

variable {number : Number} {count : Int}

theorem position_abs (stands : number.position = .units count) :
    number.abs.position = .units |count| := by
  cases number with
  | truth content =>
    cases stands
    cases content <;> simp [abs, position]
  | integer content =>
    cases stands
    rw [abs_mul, Nat.abs_cast, Int.abs_eq_natAbs]
    rfl
  | real content => exact Binary64.position_abs stands

theorem exceedsHalfTurn_of_position (stands : number.position = .units count) :
    number.exceedsHalfTurn = decide (halfTurnUnits < count.natAbs) := by
  unfold exceedsHalfTurn
  rw [lt_of_position real_halfTurn_position (position_abs stands), decide_eq_decide,
    Int.abs_eq_natAbs, Int.ofNat_lt]

theorem exists_position_of_isFinite {nearest : Binary64}
    (converts : number.toBinary64 = .ok nearest) (finite : nearest.isFinite = true) :
    ∃ count, number.position = .units count := by
  cases number with
  | truth => exact ⟨_, rfl⟩
  | integer => exact ⟨_, rfl⟩
  | real content =>
    cases converts
    exact Binary64.exists_position_of_isFinite finite

end Number

namespace Value

theorem angle_eq_ok_iff {value : Value} {name : String} {angle : Number} :
    value.angle name = .ok angle ↔ value = .number angle ∧ value.IsAngle := by
  cases value with
  | null | text | list => simp [Value.angle]
  | number content =>
    constructor
    · intro accepted
      simp only [Value.angle, isFinite] at accepted
      cases converts : content.toBinary64 with
      | error fault =>
        rw [converts] at accepted
        cases accepted
      | ok nearest =>
        simp only [converts, ok_bind, pure_eq_ok] at accepted
        cases finite : nearest.isFinite with
        | false => simp [finite] at accepted
        | true =>
          obtain ⟨count, stands⟩ := Number.exists_position_of_isFinite converts finite
          rw [Number.exceedsHalfTurn_of_position stands] at accepted
          by_cases exceeds : halfTurnUnits < count.natAbs
          · simp [finite, exceeds] at accepted
          · simp only [finite, exceeds, Bool.not_true, Bool.false_eq_true, decide_false,
              ↓reduceIte] at accepted
            cases accepted
            exact ⟨rfl, count, stands, by omega⟩
    · rintro ⟨same, count, stands, within⟩
      cases same
      have limit := halfTurnUnits_le_exactLimit
      obtain ⟨nearest, converts, nearestAt⟩ :=
        Number.toBinary64_of_position stands (by omega)
      have finite := Binary64.isFinite_of_position nearestAt
      have inside : ¬ halfTurnUnits < count.natAbs := by omega
      simp only [Value.angle, isFinite, converts, ok_bind, pure_eq_ok, finite,
        Number.exceedsHalfTurn_of_position stands, inside, Bool.not_true, Bool.false_eq_true,
        decide_false, ↓reduceIte]

/-- The point of the circle that an angle names: minus half a turn is read as half a turn. -/
def circlePoint (value : Value) : ℚ :=
  if value.exactValue = -halfCircle then halfCircle else value.exactValue

theorem IsAngle.circlePoint_mem {value : Value} (isAngle : value.IsAngle) :
    value.circlePoint ∈ circle := by
  have positive := halfCircle_pos
  unfold circlePoint
  split
  · exact ⟨by linarith, le_refl _⟩
  · rename_i apart
    exact ⟨lt_of_le_of_ne isAngle.neg_halfCircle_le (Ne.symm apart), isAngle.le_halfCircle⟩

end Value

theorem Number.canonical_spec {angle : Number} (isAngle : (Value.number angle).IsAngle) :
    (Value.number angle.canonical).IsAngle ∧
      (Value.number angle.canonical).exactValue = (Value.number angle).circlePoint := by
  unfold canonical Value.circlePoint
  rw [same_eq_decide isAngle.isPlaced Value.minusHalfTurn_isPlaced, Value.exactValue_minusHalfTurn]
  by_cases atMinus : (Value.number angle).exactValue = -halfCircle
  · rw [if_pos (by simpa using atMinus), if_pos atMinus]
    exact ⟨Value.halfTurn_isAngle, Value.exactValue_halfTurn⟩
  · rw [if_neg (by simpa using atMinus), if_neg atMinus]
    exact ⟨isAngle, rfl⟩

theorem Value.IsAngle.point {value : Value} (isAngle : value.IsAngle)
    (notTruth : value.kind ≠ .truth) :
    ∃ point : Number, value.point = .ok point ∧ (Value.number point).IsAngle ∧
      (Value.number point).exactValue = value.circlePoint := by
  obtain ⟨content, rfl⟩ := isAngle.eq_number
  have accepted : (Value.number content).angle "p" = .ok content :=
    angle_eq_ok_iff.mpr ⟨rfl, isAngle⟩
  obtain ⟨count, stands, within⟩ := isAngle
  have limit := halfTurnUnits_le_exactLimit
  obtain ⟨nearest, converts, nearestAt⟩ := Number.toBinary64_of_position stands (by omega)
  have nearestStands : (number (.real nearest)).position = .units count := nearestAt
  have nearestAngle : (number (.real nearest)).IsAngle := ⟨count, nearestStands, within⟩
  have samePoint : (number (.real nearest)).circlePoint = (number content).circlePoint := by
    unfold circlePoint
    rw [exactValue_of_position stands, exactValue_of_position nearestStands]
  obtain ⟨canonicalAngle, canonicalAt⟩ := Number.canonical_spec nearestAngle
  refine ⟨(Number.real nearest).canonical, ?_, canonicalAngle, canonicalAt.trans samePoint⟩
  cases content with
  | truth => exact absurd rfl notTruth
  | integer content =>
    simp only [Value.point, accepted, ok_bind, converts]
    rfl
  | real content =>
    simp only [Value.point, accepted, ok_bind, converts]
    rfl

end CircularArc
