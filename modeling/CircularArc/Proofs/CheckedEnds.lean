import CircularArc.Proofs.MovedEnds

/-!
# What the checked constructor accepts

A value can be an end exactly when it is an integer or a floating-point number at most half a turn
from zero. Both ends are kept then, but for minus half a turn, which becomes half a turn unless the
other end is half a turn. So the pair is always meaningful, and the last look at it refuses nothing.
-/

set_option autoImplicit false

namespace CircularArc

theorem Binary64.eq_of_position_ofInt {ones count : Int}
    (nearestAt : (ofInt ones).position = .units count) (within : count.natAbs < exactLimit) :
    ones * unitsPerOne = count := by
  by_cases small : (ones * unitsPerOne).natAbs ≤ exactLimit
  · cases (position_ofInt (natAbs_le_of_ones small)).symm.trans nearestAt
    rfl
  · have limitExact : roundedUnits exactLimit = exactLimit :=
      roundedUnits_of_representable representable_exactLimit
    unfold ofInt at nearestAt
    rcases le_or_gt 0 (ones * unitsPerOne : Int) with nonneg | negative
    · have order := position_ofUnits_mono false
        (show (exactLimit : Int) ≤ ones * unitsPerOne by omega)
      rw [nearestAt, position_ofUnits _ (nearestMagnitude_lt_of_le_exactLimit (le_refl _)),
        limitExact, Position.le_units, decide_eq_true_eq] at order
      omega
    · have order := position_ofUnits_mono false
        (show (ones * unitsPerOne : Int) ≤ -exactLimit by omega)
      rw [nearestAt, position_ofUnits _ (nearestMagnitude_lt_of_le_exactLimit (by omega)),
        roundedUnits_neg, limitExact, Position.le_units, decide_eq_true_eq] at order
      omega

theorem Number.position_of_toBinary64 {number : Number} {nearest : Binary64} {count : Int}
    (converts : number.toBinary64 = .ok nearest) (nearestAt : nearest.position = .units count)
    (within : count.natAbs < exactLimit) : number.position = .units count := by
  cases number with
  | truth content =>
    cases converts
    rw [← Binary64.eq_of_position_ofInt nearestAt within]
    rfl
  | integer content =>
    simp only [toBinary64] at converts
    split at converts
    · cases converts
      rw [← Binary64.eq_of_position_ofInt nearestAt within]
      rfl
    · cases converts
  | real content =>
    cases converts
    exact nearestAt

namespace Value

/-- The value can be an end of a checked arc: an integer or a floating-point number, at most half a
turn from zero. -/
def IsEnd (value : Value) : Prop := (value.kind = .integer ∨ value.kind = .real) ∧ value.IsAngle

/-- An end is stored as given, up to the kind of number, or written as half a turn where minus half a
turn was given. -/
def IsStoredAs (given stored : Value) : Prop :=
  stored.same given = true ∨ given.IsMinusHalfTurn ∧ stored = .number halfTurn

theorem isEnd_iff {value : Value} : value.IsEnd ↔ value.IsAngle ∧ value.kind ≠ .truth := by
  constructor
  · rintro ⟨kinds, isAngle⟩
    exact ⟨isAngle, by rcases kinds with integer | real <;> simp [*]⟩
  · rintro ⟨isAngle, notTruth⟩
    obtain ⟨content, rfl⟩ := isAngle.eq_number
    refine ⟨?_, isAngle⟩
    cases content with
    | truth => exact absurd rfl notTruth
    | integer => exact .inl rfl
    | real => exact .inr rfl

end Value

theorem Value.IsEnd.checkedEnd {value : Value} (isEnd : value.IsEnd) :
    ∃ nearest, checkedEnd value = .ok nearest ∧ nearest.position = value.position := by
  obtain ⟨kinds, isAngle⟩ := isEnd
  obtain ⟨content, rfl⟩ := isAngle.eq_number
  obtain ⟨count, stands, within⟩ := isAngle
  have limit := halfTurnUnits_le_exactLimit
  obtain ⟨nearest, converts, nearestAt⟩ := Number.toBinary64_of_position stands (by omega)
  have accepted := checkedEnd_of_position nearestAt within
  refine ⟨nearest, ?_, nearestAt.trans stands.symm⟩
  cases content with
  | truth => simp [kind, Number.kind] at kinds
  | integer | real =>
    simp only [CircularArc.checkedEnd, converts]
    exact accepted

theorem checkedEnd_isEnd {value : Value} {nearest : Binary64}
    (accepted : checkedEnd value = .ok nearest) :
    value.IsEnd ∧ nearest.position = value.position := by
  obtain ⟨kinds, ⟨content, rfl, converts⟩, count, nearestAt, within⟩ := checkedEnd_eq_ok accepted
  have limit := halfTurnUnits_le_exactLimit
  have positive := halfTurnUnits_pos
  have stands := Number.position_of_toBinary64 converts nearestAt (by omega)
  exact ⟨⟨kinds, count, stands, within⟩, nearestAt.trans stands.symm⟩

theorem checkedEnd_ne_meaninglessPair {value lower upper : Value} :
    checkedEnd value ≠ .error (.meaninglessPair lower upper) := by
  unfold checkedEnd
  grind

namespace Arc

theorem exists_checked_iff {lo hi : Value} :
    (∃ arc, checked lo hi = .ok arc) ↔ lo.IsEnd ∧ hi.IsEnd := by
  constructor
  · rintro ⟨arc, built⟩
    rcases checked_cases lo hi with ⟨lower, upper, loIs, hiIs, -⟩ | rejected
    · exact ⟨(checkedEnd_isEnd loIs).1, (checkedEnd_isEnd hiIs).1⟩
    · cases built.symm.trans rejected
  · rintro ⟨loEnd, hiEnd⟩
    obtain ⟨lower, loIs, -⟩ := loEnd.checkedEnd
    obtain ⟨upper, hiIs, -⟩ := hiEnd.checkedEnd
    exact ⟨_, checked_of_checkedEnd loIs hiIs⟩

private theorem isStoredAs_canonicalEnd {given : Value} {nearest opposite : Binary64}
    (isAngle : given.IsAngle) (nearestAt : nearest.position = given.position) :
    given.IsStoredAs (.number (if (Number.real nearest).same minusHalfTurn &&
      !(Number.real opposite).same halfTurn then Number.real halfTurn else .real nearest)) := by
  split
  · rename_i replaced
    rw [Bool.and_eq_true] at replaced
    have atMinus := ((Number.real nearest).same_iff minusHalfTurn).mp replaced.1
    exact .inr ⟨nearestAt.symm.trans atMinus.1, rfl⟩
  · obtain ⟨content, rfl⟩ := isAngle.eq_number
    obtain ⟨count, stands, -⟩ := isAngle
    refine .inl ?_
    have nearestStands : (Number.real nearest).position = .units count := nearestAt.trans stands
    rw [Value.same_number, Number.same_of_position nearestStands stands]
    exact decide_eq_true rfl

theorem checked_stores {lo hi : Value} {arc : Arc} (built : checked lo hi = .ok arc) :
    arc.IsReal ∧ lo.IsStoredAs arc.lo ∧ hi.IsStoredAs arc.hi := by
  obtain ⟨loEnd, hiEnd⟩ := exists_checked_iff.mp ⟨arc, built⟩
  obtain ⟨lower, loIs, loAt⟩ := loEnd.checkedEnd
  obtain ⟨upper, hiIs, hiAt⟩ := hiEnd.checkedEnd
  cases (checked_of_checkedEnd loIs hiIs).symm.trans built
  refine ⟨?_, isStoredAs_canonicalEnd loEnd.2 loAt, isStoredAs_canonicalEnd hiEnd.2 hiAt⟩
  unfold canonical
  split <;> split <;> exact ⟨_, _, rfl⟩

theorem Valid.canonical_eq {lo hi : Number} (valid : (Arc.mk (.number lo) (.number hi)).Valid) :
    canonical lo hi = ⟨.number lo, .number hi⟩ := by
  have hiOfLo := valid.hi_of_lo
  have loOfHi := valid.lo_of_hi
  rw [← Value.isMinusHalfTurn_iff, ← Value.isHalfTurn_iff, Value.same_number, Value.same_number]
    at hiOfLo loOfHi
  have loKept : (lo.same minusHalfTurn && !hi.same halfTurn) = false := by grind
  have hiKept : (hi.same minusHalfTurn && !lo.same halfTurn) = false := by grind
  simp only [canonical, loKept, hiKept, Bool.false_eq_true, ↓reduceIte]

theorem Valid.checked_ends {arc : Arc} (valid : arc.Valid) (real : arc.IsReal) :
    checked arc.lo arc.hi = .ok arc := by
  obtain ⟨lower, upper, rfl⟩ := real
  obtain ⟨loCount, loAt, loWithin⟩ := valid.lo_isAngle
  obtain ⟨hiCount, hiAt, hiWithin⟩ := valid.hi_isAngle
  rw [checked_of_checkedEnd (checkedEnd_of_position loAt loWithin)
    (checkedEnd_of_position hiAt hiWithin), valid.canonical_eq]

theorem empty_isReal : empty.IsReal := ⟨halfTurn, minusHalfTurn, rfl⟩

theorem full_isReal : full.IsReal := ⟨minusHalfTurn, halfTurn, rfl⟩

private theorem meaninglessPair_notMem_endDefects (side : End) (value : Value) {place : Option End}
    {lower upper : Value} :
    (place, EndDefect.meaninglessPair lower upper) ∉ endDefects side (checkedEnd value) := by
  cases isEnd : checkedEnd value with
  | ok nearest => exact List.not_mem_nil
  | error defect =>
    rw [endDefects, List.mem_singleton]
    rintro ⟨rfl, rfl⟩
    exact checkedEnd_ne_meaninglessPair isEnd

/-- What the constructor reports is a defect of one end, never one of the pair. -/
theorem rejected_ends {lo hi : Value} {fault : Fault} (rejected : checked lo hi = .error fault) :
    ∃ defects, fault = .rejectedEnds defects ∧
      ∀ place lower upper, (place, EndDefect.meaninglessPair lower upper) ∉ defects := by
  rcases checked_cases lo hi with ⟨lower, upper, -, -, built⟩ | listed
  · cases built.symm.trans rejected
  · cases listed.symm.trans rejected
    refine ⟨_, rfl, fun place lower upper => ?_⟩
    rw [List.mem_append]
    exact fun member => member.elim (meaninglessPair_notMem_endDefects .lo lo)
      (meaninglessPair_notMem_endDefects .hi hi)

/-- Of two integers or floating-point numbers, each at most half a turn from zero, the checked
constructor builds a valid arc that keeps them, but for minus half a turn. It rejects all other pairs,
always for the sake of one end and never at its last look at the pair. -/
theorem checked_accepts_and_keeps_ends (lo hi : Value) :
    ((∃ arc, checked lo hi = .ok arc) ↔ lo.IsEnd ∧ hi.IsEnd) ∧
      (∀ arc, checked lo hi = .ok arc →
        arc.IsReal ∧ arc.Valid ∧ arc.isValid = .ok true ∧
          lo.IsStoredAs arc.lo ∧ hi.IsStoredAs arc.hi) ∧
      checked halfTurn minusHalfTurn = .ok empty ∧
      checked minusHalfTurn halfTurn = .ok full ∧
      (∀ fault, checked lo hi = .error fault → ∃ defects, fault = .rejectedEnds defects ∧
        ∀ place lower upper, (place, EndDefect.meaninglessPair lower upper) ∉ defects) ∧
      ∀ arc : Arc, arc.Valid → arc.IsReal → checked arc.lo arc.hi = .ok arc := by
  refine ⟨exists_checked_iff, fun arc built => ?_, empty_valid.checked_ends empty_isReal,
    full_valid.checked_ends full_isReal, fun _ => rejected_ends,
    fun _ valid real => valid.checked_ends real⟩
  obtain ⟨real, loStored, hiStored⟩ := checked_stores built
  have valid := checked_valid built
  exact ⟨real, valid, valid.isValid_eq_true, loStored, hiStored⟩

theorem checked_accepts_and_keeps_ends_of_seam :
    (∃ arc, checked minusHalfTurn (.number (.integer 0)) = .ok arc ∧ arc.IsReal ∧ arc.Valid ∧
      arc.isValid = .ok true ∧ Value.IsStoredAs minusHalfTurn arc.lo ∧
      Value.IsStoredAs (.number (.integer 0)) arc.hi) ∧
      (∃ defects, checked (.number (.truth true)) .null = .error (.rejectedEnds defects) ∧
        ∀ place lower upper, (place, EndDefect.meaninglessPair lower upper) ∉ defects) ∧
      checked full.lo full.hi = .ok full := by
  have seamEnds : Value.IsEnd minusHalfTurn ∧ Value.IsEnd (.number (.integer 0)) :=
    ⟨⟨.inr rfl, Value.minusHalfTurn_isAngle⟩, .inl rfl, 0, Number.integer_zero_position, by omega⟩
  obtain ⟨accepts, builds, -⟩ := checked_accepts_and_keeps_ends minusHalfTurn (.number (.integer 0))
  obtain ⟨arc, built⟩ := accepts.mpr seamEnds
  obtain ⟨-, -, -, -, rejects, rebuilds⟩ := checked_accepts_and_keeps_ends (.number (.truth true)) .null
  obtain ⟨defects, rejected, onEnds⟩ := rejects _ rfl
  exact ⟨⟨arc, built, builds arc built⟩, ⟨defects, congrArg Except.error rejected, onEnds⟩,
    rebuilds full full_valid full_isReal⟩

end Arc

end CircularArc
