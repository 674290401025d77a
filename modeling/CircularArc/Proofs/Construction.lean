import CircularArc.Proofs.Angles
import CircularArc.Proofs.Shape

/-!
# Built arcs are valid

Checked ends are angles, a canonical pair of angles makes a valid arc, and canonical points stay
clear of minus half a turn. So only ends that are taken on trust can make an invalid arc.
-/

set_option autoImplicit false

namespace CircularArc

theorem exists_of_bind_eq_ok {α β : Type} {first : Except Fault α} {next : α → Except Fault β}
    {result : β} (succeeds : first >>= next = .ok result) :
    ∃ value, first = .ok value ∧ next value = .ok result := by
  cases first with
  | error fault => cases succeeds
  | ok value => exact ⟨value, rfl, succeeds⟩

theorem Value.isAngle_of_point {value : Value} {point : Number} (named : value.point = .ok point) :
    value.IsAngle ∧ value.kind ≠ .truth := by
  cases value with
  | null | text | list => cases named
  | number content =>
    cases content with
    | truth => cases named
    | integer | real =>
      obtain ⟨angle, accepted, -⟩ := exists_of_bind_eq_ok named
      exact ⟨(angle_eq_ok_iff.mp accepted).2, nofun⟩

theorem checkedEnd_eq_ok {value : Value} {nearest : Binary64}
    (accepted : checkedEnd value = .ok nearest) :
    (value.kind = .integer ∨ value.kind = .real) ∧
      (∃ content : Number, value = .number content ∧ content.toBinary64 = .ok nearest) ∧
      (Value.number nearest).IsAngle := by
  unfold checkedEnd at accepted
  split at accepted
  · cases accepted
  · rename_i content notTruth
    have kinds : (Value.number content).kind = .integer ∨ (Value.number content).kind = .real := by
      cases content with
      | truth value => exact absurd rfl (notTruth value)
      | integer => exact .inl rfl
      | real => exact .inr rfl
    cases converts : content.toBinary64 with
    | error fault => simp [converts] at accepted
    | ok converted =>
      simp only [converts] at accepted
      split at accepted
      · cases accepted
      · rename_i finite
        obtain ⟨count, stands⟩ :=
          Binary64.exists_position_of_isFinite (by simpa using finite)
        have convertedAt : (Number.real converted).position = .units count := stands
        rw [Number.lt_of_position Number.real_halfTurn_position convertedAt,
          Number.lt_of_position convertedAt Number.real_minusHalfTurn_position] at accepted
        split at accepted
        · cases accepted
        · rename_i below
          split at accepted
          · cases accepted
          · rename_i above
            cases accepted
            rw [decide_eq_true_eq] at below above
            exact ⟨kinds, ⟨content, rfl, converts⟩, count, convertedAt, by omega⟩
  · cases accepted

theorem checkedEnd_isAngle {value : Value} {nearest : Binary64}
    (accepted : checkedEnd value = .ok nearest) : (Value.number nearest).IsAngle :=
  (checkedEnd_eq_ok accepted).2.2

namespace Arc

private theorem canonicalEnd_spec {angle opposite : Number}
    (isAngle : (Value.number angle).IsAngle) (oppositeAngle : (Value.number opposite).IsAngle) :
    (Value.number
        (if angle.same minusHalfTurn && !opposite.same halfTurn then halfTurn else angle)).IsAngle ∧
      (Value.number
          (if angle.same minusHalfTurn && !opposite.same halfTurn then halfTurn
            else angle)).exactValue =
        if (Value.number angle).exactValue = -halfCircle ∧
            (Value.number opposite).exactValue ≠ halfCircle then halfCircle
        else (Value.number angle).exactValue := by
  have test : (angle.same minusHalfTurn && !opposite.same halfTurn) =
      decide ((Value.number angle).exactValue = -halfCircle ∧
        (Value.number opposite).exactValue ≠ halfCircle) := by
    rw [Number.same_eq_decide isAngle.isPlaced Value.minusHalfTurn_isPlaced,
      Number.same_eq_decide oppositeAngle.isPlaced Value.halfTurn_isPlaced,
      Value.exactValue_minusHalfTurn, Value.exactValue_halfTurn, Bool.decide_and, decide_not]
  rw [test]
  by_cases replaced : (Value.number angle).exactValue = -halfCircle ∧
      (Value.number opposite).exactValue ≠ halfCircle
  · rw [if_pos (decide_eq_true replaced), if_pos replaced]
    exact ⟨Value.halfTurn_isAngle, Value.exactValue_halfTurn⟩
  · rw [if_neg (by simpa using replaced), if_neg replaced]
    exact ⟨isAngle, rfl⟩

theorem canonical_ends {lo hi : Number} (loAngle : (Value.number lo).IsAngle)
    (hiAngle : (Value.number hi).IsAngle) :
    (canonical lo hi).lo.exactValue =
        (if (Value.number lo).exactValue = -halfCircle ∧ (Value.number hi).exactValue ≠ halfCircle then
          halfCircle else (Value.number lo).exactValue) ∧
      (canonical lo hi).hi.exactValue =
        (if (Value.number hi).exactValue = -halfCircle ∧ (Value.number lo).exactValue ≠ halfCircle then
          halfCircle else (Value.number hi).exactValue) :=
  ⟨(canonicalEnd_spec loAngle hiAngle).2, (canonicalEnd_spec hiAngle loAngle).2⟩

theorem canonical_valid {lo hi : Number} (loAngle : (Value.number lo).IsAngle)
    (hiAngle : (Value.number hi).IsAngle) : (canonical lo hi).Valid := by
  have positive := halfCircle_pos
  obtain ⟨loEnd, hiEnd⟩ := canonical_ends loAngle hiAngle
  refine valid_iff.mpr ⟨(canonicalEnd_spec loAngle hiAngle).1,
    (canonicalEnd_spec hiAngle loAngle).1, ?_⟩
  rw [loEnd, hiEnd]
  grind

theorem Valid.isValid_eq_true {arc : Arc} (valid : arc.Valid) : arc.isValid = .ok true := by
  obtain ⟨-, -, hiOfLo, loOfHi⟩ := valid.exactEnds
  obtain ⟨loCount, loAt, loWithin⟩ := valid.lo_isAngle
  obtain ⟨hiCount, hiAt, hiWithin⟩ := valid.hi_isAngle
  obtain ⟨lo, hi, rfl, loPlaced, hiPlaced⟩ := valid.exists_numbers
  have loInside : lo.exceedsHalfTurn = false := by
    rw [Number.exceedsHalfTurn_of_position loAt, decide_eq_false_iff_not]
    omega
  have hiInside : hi.exceedsHalfTurn = false := by
    rw [Number.exceedsHalfTurn_of_position hiAt, decide_eq_false_iff_not]
    omega
  simp only [isValid_number, loInside, hiInside, Bool.or_self, Bool.false_eq_true, ↓reduceIte,
    Number.same_eq_decide loPlaced Value.minusHalfTurn_isPlaced,
    Number.same_eq_decide loPlaced Value.halfTurn_isPlaced,
    Number.same_eq_decide hiPlaced Value.minusHalfTurn_isPlaced,
    Number.same_eq_decide hiPlaced Value.halfTurn_isPlaced,
    Value.exactValue_minusHalfTurn, Value.exactValue_halfTurn]
  grind

theorem Valid.validated_eq {arc : Arc} (valid : arc.Valid) : arc.validated = .ok arc := by
  rw [validated, valid.isValid_eq_true]
  rfl

theorem checked_of_checkedEnd {lo hi : Value} {lower upper : Binary64}
    (loIs : checkedEnd lo = .ok lower) (hiIs : checkedEnd hi = .ok upper) :
    checked lo hi = .ok (canonical lower upper) := by
  simp only [checked, loIs, hiIs]
  exact (canonical_valid (checkedEnd_isAngle loIs) (checkedEnd_isAngle hiIs)).validated_eq

/-- The constructor builds the canonical pair of two accepted ends, or lists what is wrong with
them. -/
theorem checked_cases (lo hi : Value) :
    (∃ lower upper, checkedEnd lo = .ok lower ∧ checkedEnd hi = .ok upper ∧
      checked lo hi = .ok (canonical lower upper)) ∨
      checked lo hi = .error (.rejectedEnds
        (endDefects .lo (checkedEnd lo) ++ endDefects .hi (checkedEnd hi))) := by
  cases loIs : checkedEnd lo with
  | error => exact .inr (by simp only [checked, loIs])
  | ok lower =>
    cases hiIs : checkedEnd hi with
    | error => exact .inr (by simp only [checked, loIs, hiIs])
    | ok upper => exact .inl ⟨lower, upper, rfl, rfl, checked_of_checkedEnd loIs hiIs⟩

theorem checked_valid {lo hi : Value} {arc : Arc} (built : checked lo hi = .ok arc) :
    arc.Valid := by
  rcases checked_cases lo hi with ⟨lower, upper, loIs, hiIs, made⟩ | rejected
  · cases built.symm.trans made
    exact canonical_valid (checkedEnd_isAngle loIs) (checkedEnd_isAngle hiIs)
  · cases built.symm.trans rejected

end Arc

theorem Value.canonical_of_angle {value : Value} {name : String} {angle : Number}
    (accepted : value.angle name = .ok angle) :
    (Value.number angle.canonical).IsAngle ∧
      -halfCircle < (Value.number angle.canonical).exactValue := by
  obtain ⟨rfl, isAngle⟩ := Value.angle_eq_ok_iff.mp accepted
  obtain ⟨canonicalAngle, canonicalAt⟩ := Number.canonical_spec isAngle
  rw [canonicalAt]
  exact ⟨canonicalAngle, isAngle.circlePoint_mem.1⟩

namespace Arc

theorem point_valid {value : Value} {arc : Arc} (built : point value = .ok arc) : arc.Valid := by
  obtain ⟨angle, accepted, built⟩ := exists_of_bind_eq_ok built
  cases built
  obtain ⟨isAngle, above⟩ := Value.canonical_of_angle accepted
  exact valid_of_above isAngle isAngle above above

theorem shortest_valid {first second : Value} {arc : Arc}
    (built : shortest first second = .ok arc) : arc.Valid := by
  obtain ⟨firstAngle, firstAccepted, built⟩ := exists_of_bind_eq_ok built
  obtain ⟨secondAngle, secondAccepted, built⟩ := exists_of_bind_eq_ok built
  obtain ⟨distance, -, built⟩ := exists_of_bind_eq_ok built
  obtain ⟨firstIsAngle, firstAbove⟩ := Value.canonical_of_angle firstAccepted
  obtain ⟨secondIsAngle, secondAbove⟩ := Value.canonical_of_angle secondAccepted
  split at built
  · cases built
    exact valid_of_above firstIsAngle secondIsAngle firstAbove secondAbove
  · cases built
    exact valid_of_above secondIsAngle firstIsAngle secondAbove firstAbove

end Arc

end CircularArc
