import CircularArc.Arc.Numeric
import CircularArc.Proofs.CheckedEnds

/-!
# Which pairs of ends pass the validity check

The check refuses what compares wrongly. Of the pairs without an undefined end it accepts just those
that the checked constructor stores unchanged. An undefined number compares with nothing, so it passes
beside an angle other than minus half a turn, while the constructor refuses it.
-/

set_option autoImplicit false

namespace CircularArc

theorem Number.exceedsHalfTurn_real_eq_false_iff {number : Binary64} :
    (Number.real number).exceedsHalfTurn = false ↔
      number = .nan ∨ (Value.number number).IsAngle := by
  cases number with
  | nan => exact iff_of_true rfl (.inl rfl)
  | infinite negative =>
    refine iff_of_false (by cases negative <;> exact Bool.noConfusion) ?_
    rintro (undefined | ⟨count, stands, -⟩)
    · cases undefined
    · cases negative <;> cases stands
  | finite negative units aligned =>
    have stands : (Number.real (.finite negative units aligned)).position =
      .units (Binary64.signedUnits negative units) := rfl
    rw [exceedsHalfTurn_of_position stands, decide_eq_false_iff_not, not_lt]
    constructor
    · exact fun within => .inr ⟨_, stands, within⟩
    · rintro (undefined | ⟨_, found, within⟩)
      · cases undefined
      · cases stands.symm.trans found
        exact within

/-- The number passes the validity check beside an undefined one. -/
def Binary64.PassesAlone (number : Binary64) : Prop :=
  (number = .nan ∨ (Value.number number).IsAngle) ∧ ¬ (Value.number number).IsMinusHalfTurn

/-- The pair passes the validity check for want of comparisons: at least one end is undefined. -/
def Binary64.PassUndefined (lo hi : Binary64) : Prop :=
  (lo = .nan ∨ hi = .nan) ∧ lo.PassesAlone ∧ hi.PassesAlone

namespace Value

theorem nan_not_isAngle : ¬ (number (.real .nan)).IsAngle := by
  rintro ⟨count, stands, -⟩
  cases stands

theorem nan_not_isHalfTurn : ¬ (number (.real .nan)).IsHalfTurn := fun stands => by cases stands

theorem nan_not_isMinusHalfTurn : ¬ (number (.real .nan)).IsMinusHalfTurn := fun stands => by
  cases stands

end Value

namespace Arc

variable {lo hi : Binary64}

theorem isValid_real : ∃ answer, (Arc.mk lo hi).isValid = .ok answer ∧ (answer = true ↔
    (lo = .nan ∨ (Value.number lo).IsAngle) ∧ (hi = .nan ∨ (Value.number hi).IsAngle) ∧
      ((Value.number lo).IsMinusHalfTurn → (Value.number hi).IsHalfTurn) ∧
      ((Value.number hi).IsMinusHalfTurn → (Value.number lo).IsHalfTurn)) := by
  refine ⟨_, isValid_number lo hi, ?_⟩
  rw [← Number.exceedsHalfTurn_real_eq_false_iff, ← Number.exceedsHalfTurn_real_eq_false_iff,
    ← Value.isMinusHalfTurn_iff, ← Value.isMinusHalfTurn_iff, ← Value.isHalfTurn_iff,
    ← Value.isHalfTurn_iff]
  simp only [Value.same_number]
  split
  · rename_i exceeds
    rw [Bool.or_eq_true] at exceeds
    grind
  · rename_i inside
    rw [Bool.not_eq_true, Bool.or_eq_false_iff] at inside
    simp only [inside.1, inside.2, Bool.and_eq_true, Bool.not_eq_true', Bool.and_eq_false_iff,
      Bool.not_eq_false', true_and]
    grind

theorem valid_iff_checked : (Arc.mk lo hi).Valid ↔ checked lo hi = .ok ⟨lo, hi⟩ :=
  ⟨fun valid => valid.checked_ends ⟨lo, hi, rfl⟩, checked_valid⟩

theorem valid_iff_built :
    (Arc.mk lo hi).Valid ↔ ∃ givenLo givenHi, checked givenLo givenHi = .ok ⟨lo, hi⟩ := by
  constructor
  · intro valid
    exact ⟨lo, hi, valid_iff_checked.mp valid⟩
  · rintro ⟨givenLo, givenHi, built⟩
    exact checked_valid built

theorem not_valid_of_undefined (undefined : lo = .nan ∨ hi = .nan) : ¬ (Arc.mk lo hi).Valid := by
  intro valid
  rcases undefined with rfl | rfl
  · exact Value.nan_not_isAngle valid.lo_isAngle
  · exact Value.nan_not_isAngle valid.hi_isAngle

theorem isValid_iff_valid_or_passUndefined {answer : Bool}
    (answered : (Arc.mk lo hi).isValid = .ok answer) :
    answer = true ↔ (Arc.mk lo hi).Valid ∨ lo.PassUndefined hi := by
  obtain ⟨_, found, passes⟩ := @isValid_real lo hi
  cases answered.symm.trans found
  rw [passes]
  by_cases undefined : lo = .nan ∨ hi = .nan
  · have notHalfTurn := Value.nan_not_isHalfTurn
    have notMinusHalfTurn := Value.nan_not_isMinusHalfTurn
    rw [or_iff_right (not_valid_of_undefined undefined)]
    rcases undefined with rfl | rfl
    · constructor
      · rintro ⟨-, hiPasses, -, loOfHi⟩
        exact ⟨.inl rfl, ⟨.inl rfl, notMinusHalfTurn⟩, hiPasses, mt loOfHi notHalfTurn⟩
      · rintro ⟨-, -, hiPasses, hiAbove⟩
        exact ⟨.inl rfl, hiPasses, fun minus => absurd minus notMinusHalfTurn,
          fun minus => absurd minus hiAbove⟩
    · constructor
      · rintro ⟨loPasses, -, hiOfLo, -⟩
        exact ⟨.inr rfl, ⟨loPasses, mt hiOfLo notHalfTurn⟩, .inl rfl, notMinusHalfTurn⟩
      · rintro ⟨-, ⟨loPasses, loAbove⟩, -⟩
        exact ⟨loPasses, .inl rfl, fun minus => absurd minus loAbove,
          fun minus => absurd minus notMinusHalfTurn⟩
  · rw [not_or] at undefined
    rw [or_iff_right undefined.1, or_iff_right undefined.2,
      or_iff_left fun passes => not_or.mpr undefined passes.1]
    exact ⟨fun ⟨loAngle, hiAngle, hiOfLo, loOfHi⟩ => ⟨loAngle, hiAngle, hiOfLo, loOfHi⟩,
      fun valid => ⟨valid.lo_isAngle, valid.hi_isAngle, valid.hi_of_lo, valid.lo_of_hi⟩⟩

theorem rejects_of_passUndefined (passes : lo.PassUndefined hi) :
    ∃ fault, checked lo hi = .error fault := by
  cases built : checked lo hi with
  | error fault => exact ⟨fault, rfl⟩
  | ok arc =>
    obtain ⟨⟨-, loAngle⟩, ⟨-, hiAngle⟩⟩ := exists_checked_iff.mp ⟨arc, built⟩
    rcases passes.1 with rfl | rfl
    · exact absurd loAngle Value.nan_not_isAngle
    · exact absurd hiAngle Value.nan_not_isAngle

/-- The validity check answers for every two floating-point numbers. It accepts just the pairs that
the checked constructor stores unchanged, which are those of the arcs that it can build at all, and
pairs with an undefined end, which the constructor refuses. -/
theorem isValidPair_iff_checked (lo hi : Binary64) :
    ∃ answer, isValidPair lo hi = .ok answer ∧ (Arc.mk lo hi).isValid = .ok answer ∧
      (answer = true ↔ checked lo hi = .ok ⟨lo, hi⟩ ∨ lo.PassUndefined hi) ∧
      (answer = true ↔
        (∃ givenLo givenHi, checked givenLo givenHi = .ok ⟨lo, hi⟩) ∨ lo.PassUndefined hi) ∧
      ((∃ fault, checked lo hi = .error fault) ∨ ¬ lo.PassUndefined hi) := by
  obtain ⟨answer, answered, -⟩ := @isValid_real lo hi
  have passes := isValid_iff_valid_or_passUndefined answered
  refine ⟨answer, answered, answered, ?_, ?_, ?_⟩
  · rw [passes, valid_iff_checked]
  · rw [passes, valid_iff_built]
  · by_cases undefined : lo.PassUndefined hi
    · exact .inl (rejects_of_passUndefined undefined)
    · exact .inr undefined

/-- Nothing compares with an undefined end, so the check accepts what the constructor refuses. -/
theorem isValidPair_of_nan :
    isValidPair (.number (.real .nan)) (.number (Binary64.zero false)) = .ok true ∧
      ¬ ∃ arc, checked (.number (.real .nan)) (.number (Binary64.zero false)) = .ok arc := by
  refine ⟨by decide +kernel, ?_⟩
  rw [exists_checked_iff]
  exact fun ends => Value.nan_not_isAngle ends.1.2

end Arc

end CircularArc
