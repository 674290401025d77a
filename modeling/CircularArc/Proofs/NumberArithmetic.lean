import CircularArc.Proofs.RoundedUnits

/-!
# Arithmetic on numbers of all kinds

An integer of at most 53 bits converts exactly, and so do the truth values. Within that range a sum
or a difference of two numbers stands at the rounded sum or difference of their positions, whatever
their kinds: two integers are added exactly, and rounding leaves their sum as it is.
-/

set_option autoImplicit false

namespace CircularArc

/-- Up to this count of units every integer is a floating-point number. -/
def exactLimit : Nat := 2 ^ 53 * Binary64.unitsPerOne

theorem unitsPerOne_pos : 0 < Binary64.unitsPerOne := by
  unfold Binary64.unitsPerOne
  generalize 1074 = exponent
  exact Nat.two_pow_pos exponent

theorem exactLimit_lt : exactLimit < magnitudeLimit := by decide +kernel

theorem representable_ones {ones : Nat} (bound : ones ≤ 2 ^ 53) :
    Representable (ones * Binary64.unitsPerOne) := by
  refine ⟨lt_of_le_of_lt (Nat.mul_le_mul_right _ bound) exactLimit_lt, ?_⟩
  unfold Binary64.unitsPerOne
  generalize 1074 = exponent
  exact spacing_dvd_scaled bound exponent

theorem representable_exactLimit : Representable exactLimit := representable_ones (le_refl _)

theorem nearestMagnitude_lt_of_le_exactLimit {units : Nat} (within : units ≤ exactLimit) :
    nearestMagnitude units < magnitudeLimit := by
  refine lt_of_le_of_lt (nearestMagnitude_mono within) ?_
  rw [nearestMagnitude_of_representable representable_exactLimit]
  exact exactLimit_lt

theorem natAbs_le_of_ones {ones : Int}
    (within : (ones * Binary64.unitsPerOne).natAbs ≤ exactLimit) : ones.natAbs ≤ 2 ^ 53 := by
  rw [Int.natAbs_mul, Int.natAbs_natCast] at within
  exact Nat.le_of_mul_le_mul_right within unitsPerOne_pos

theorem roundedUnits_ones {ones : Int} (bound : ones.natAbs ≤ 2 ^ 53) :
    roundedUnits (ones * Binary64.unitsPerOne) = ones * Binary64.unitsPerOne := by
  apply roundedUnits_of_representable
  rw [Int.natAbs_mul, Int.natAbs_natCast]
  exact representable_ones bound

namespace Binary64

theorem position_eq_units_iff {number : Binary64} {count : Int} :
    number.position = .units count ↔
      ∃ negative units aligned, number = .finite negative units aligned ∧
        signedUnits negative units = count := by
  cases number with
  | nan => simp [position]
  | infinite negative => cases negative <;> simp [position]
  | finite negative units aligned =>
    constructor
    · intro stands
      cases stands
      exact ⟨negative, units, aligned, rfl, rfl⟩
    · rintro ⟨otherSign, otherUnits, otherAligned, equal, rfl⟩
      cases equal
      rfl

theorem isFinite_of_position {number : Binary64} {count : Int}
    (stands : number.position = .units count) : number.isFinite = true := by
  obtain ⟨negative, units, aligned, rfl, _⟩ := position_eq_units_iff.mp stands
  rfl

theorem exists_position_of_isFinite {number : Binary64} (finite : number.isFinite = true) :
    ∃ count, number.position = .units count := by
  cases number with
  | nan => simp [isFinite] at finite
  | infinite => simp [isFinite] at finite
  | finite negative units => exact ⟨_, rfl⟩

theorem position_ofInt {value : Int} (bound : value.natAbs ≤ 2 ^ 53) :
    (ofInt value).position = .units (value * unitsPerOne) := by
  have aligned := representable_ones bound
  rw [← Int.natAbs_natCast unitsPerOne, ← Int.natAbs_mul] at aligned
  unfold ofInt
  rw [position_ofUnits, roundedUnits_of_representable aligned]
  rw [nearestMagnitude_of_representable aligned]
  exact aligned.1

theorem position_neg {number : Binary64} {count : Int}
    (stands : number.position = .units count) : number.neg.position = .units (-count) := by
  obtain ⟨negative, units, aligned, rfl, rfl⟩ := position_eq_units_iff.mp stands
  simp [neg, position]

theorem position_abs {number : Binary64} {count : Int}
    (stands : number.position = .units count) : number.abs.position = .units |count| := by
  obtain ⟨negative, units, aligned, rfl, rfl⟩ := position_eq_units_iff.mp stands
  rw [Int.abs_eq_natAbs, natAbs_signedUnits]
  rfl

theorem position_add {left right : Binary64} {leftCount rightCount : Int}
    (leftAt : left.position = .units leftCount) (rightAt : right.position = .units rightCount)
    (within : (leftCount + rightCount).natAbs ≤ exactLimit) :
    (left.add right).position = .units (roundedUnits (leftCount + rightCount)) := by
  obtain ⟨leftSign, leftUnits, leftAligned, rfl, rfl⟩ := position_eq_units_iff.mp leftAt
  obtain ⟨rightSign, rightUnits, rightAligned, rfl, rfl⟩ := position_eq_units_iff.mp rightAt
  exact position_ofUnits _ (nearestMagnitude_lt_of_le_exactLimit within)

theorem position_sub {left right : Binary64} {leftCount rightCount : Int}
    (leftAt : left.position = .units leftCount) (rightAt : right.position = .units rightCount)
    (within : (leftCount - rightCount).natAbs ≤ exactLimit) :
    (left.sub right).position = .units (roundedUnits (leftCount - rightCount)) := by
  rw [sub_eq_add_neg] at within ⊢
  exact position_add leftAt (position_neg rightAt) within

end Binary64

namespace Number

variable {left right : Number} {leftCount rightCount : Int}

theorem asInteger?_eq_some {number : Number} {value : Int}
    (isInteger : number.asInteger? = some value) :
    number.position = .units (value * Binary64.unitsPerOne) := by
  cases number with
  | truth content =>
    cases isInteger
    rfl
  | integer content =>
    cases isInteger
    rfl
  | real content => cases isInteger

theorem toBinary64_of_position {number : Number} {count : Int}
    (stands : number.position = .units count) (within : count.natAbs ≤ exactLimit) :
    ∃ nearest, number.toBinary64 = .ok nearest ∧ nearest.position = .units count := by
  cases number with
  | truth content =>
    cases stands
    exact ⟨_, rfl, Binary64.position_ofInt (by cases content <;> decide)⟩
  | integer content =>
    cases stands
    have converts := Binary64.position_ofInt (natAbs_le_of_ones within)
    refine ⟨Binary64.ofInt content, ?_, converts⟩
    simp only [toBinary64, Binary64.isFinite_of_position converts, ↓reduceIte]
  | real content => exact ⟨content, rfl, stands⟩

section Combine

variable {exact : Int → Int → Int} {rounded : Binary64 → Binary64 → Binary64}

/-- An operation on floating-point numbers rounds the results of one on integers. -/
structure Rounds (exact : Int → Int → Int) (rounded : Binary64 → Binary64 → Binary64) : Prop where
  mul : ∀ left right unit, exact (left * unit) (right * unit) = exact left right * unit
  position : ∀ {left right : Binary64} {leftCount rightCount : Int},
    left.position = .units leftCount → right.position = .units rightCount →
      (exact leftCount rightCount).natAbs ≤ exactLimit →
        (rounded left right).position = .units (roundedUnits (exact leftCount rightCount))

theorem add_rounds : Rounds (· + ·) Binary64.add where
  mul left right unit := (add_mul left right unit).symm
  position := Binary64.position_add

theorem sub_rounds : Rounds (· - ·) Binary64.sub where
  mul left right unit := (sub_mul left right unit).symm
  position := Binary64.position_sub

theorem Rounds.combine_of_position (rounds : Rounds exact rounded)
    (leftAt : left.position = .units leftCount) (rightAt : right.position = .units rightCount)
    (leftWithin : leftCount.natAbs ≤ exactLimit) (rightWithin : rightCount.natAbs ≤ exactLimit)
    (within : (exact leftCount rightCount).natAbs ≤ exactLimit) :
    ∃ result, combine exact rounded left right = .ok result ∧
      result.position = .units (roundedUnits (exact leftCount rightCount)) := by
  obtain ⟨leftReal, leftConverts, leftRealAt⟩ := toBinary64_of_position leftAt leftWithin
  obtain ⟨rightReal, rightConverts, rightRealAt⟩ := toBinary64_of_position rightAt rightWithin
  unfold combine
  split
  · rename_i leftValue rightValue leftIs rightIs
    rw [asInteger?_eq_some leftIs] at leftAt
    rw [asInteger?_eq_some rightIs] at rightAt
    cases leftAt
    cases rightAt
    rw [rounds.mul] at within ⊢
    refine ⟨_, rfl, ?_⟩
    rw [roundedUnits_ones (natAbs_le_of_ones within)]
    rfl
  · rw [leftConverts, rightConverts]
    exact ⟨_, rfl, rounds.position leftRealAt rightRealAt within⟩

theorem combine_real {number : Number} {nearest : Binary64}
    (converts : number.toBinary64 = .ok nearest) (operand : Binary64) :
    combine exact rounded number (.real operand) = .ok (.real (rounded nearest operand)) := by
  cases number with
  | truth | integer | real =>
    simp only [combine, asInteger?, converts, toBinary64_real, ok_bind, pure_eq_ok]

theorem real_combine {number : Number} {nearest : Binary64}
    (converts : number.toBinary64 = .ok nearest) (operand : Binary64) :
    combine exact rounded (.real operand) number = .ok (.real (rounded operand nearest)) := by
  simp only [combine, asInteger?, converts, toBinary64_real, ok_bind, pure_eq_ok]

end Combine

theorem add_of_position (leftAt : left.position = .units leftCount)
    (rightAt : right.position = .units rightCount) (leftWithin : leftCount.natAbs ≤ exactLimit)
    (rightWithin : rightCount.natAbs ≤ exactLimit)
    (sumWithin : (leftCount + rightCount).natAbs ≤ exactLimit) :
    ∃ sum, left.add right = .ok sum ∧
      sum.position = .units (roundedUnits (leftCount + rightCount)) :=
  add_rounds.combine_of_position leftAt rightAt leftWithin rightWithin sumWithin

theorem sub_of_position (leftAt : left.position = .units leftCount)
    (rightAt : right.position = .units rightCount) (leftWithin : leftCount.natAbs ≤ exactLimit)
    (rightWithin : rightCount.natAbs ≤ exactLimit)
    (differenceWithin : (leftCount - rightCount).natAbs ≤ exactLimit) :
    ∃ difference, left.sub right = .ok difference ∧
      difference.position = .units (roundedUnits (leftCount - rightCount)) :=
  sub_rounds.combine_of_position leftAt rightAt leftWithin rightWithin differenceWithin

end Number

end CircularArc
