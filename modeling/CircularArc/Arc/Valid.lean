import CircularArc.Arc

/-!
# Valid arcs

What it means for a pair of ends to be meaningful, stated on positions: both ends are at most half a
turn from zero, and minus half a turn occurs only beside half a turn. The ends of a valid arc are
numbers, since nothing else has a position. `Arc.IsReal` says that the ends are floating-point
numbers, as those of every checked arc are.
-/

set_option autoImplicit false

namespace CircularArc

namespace Value

def IsAngle (value : Value) : Prop :=
  ∃ count : Int, value.position = .units count ∧ count.natAbs ≤ halfTurnUnits

def IsHalfTurn (value : Value) : Prop := value.position = .units halfTurnUnits

def IsMinusHalfTurn (value : Value) : Prop := value.position = .units (-(halfTurnUnits : Int))

instance : DecidablePred IsAngle := fun value =>
  match stands : value.position with
  | .units count =>
    decidable_of_iff (count.natAbs ≤ halfTurnUnits) (by
      constructor
      · intro within
        exact ⟨count, stands, within⟩
      · rintro ⟨other, standsToo, within⟩
        rw [stands] at standsToo
        cases standsToo
        exact within)
  | .undefined | .belowAll | .aboveAll => .isFalse (by
    rintro ⟨count, standsToo, _⟩
    rw [stands] at standsToo
    cases standsToo)

instance : DecidablePred IsHalfTurn := fun value =>
  inferInstanceAs (Decidable (value.position = .units halfTurnUnits))

instance : DecidablePred IsMinusHalfTurn := fun value =>
  inferInstanceAs (Decidable (value.position = .units (-(halfTurnUnits : Int))))

end Value

namespace Arc

/-- Both ends are angles, and minus half a turn is an end only of the full and of the empty arc. -/
structure Valid (arc : Arc) : Prop where
  lo_isAngle : arc.lo.IsAngle
  hi_isAngle : arc.hi.IsAngle
  hi_of_lo : arc.lo.IsMinusHalfTurn → arc.hi.IsHalfTurn
  lo_of_hi : arc.hi.IsMinusHalfTurn → arc.lo.IsHalfTurn

instance : DecidablePred Valid := fun arc =>
  decidable_of_iff (arc.lo.IsAngle ∧ arc.hi.IsAngle ∧
      (arc.lo.IsMinusHalfTurn → arc.hi.IsHalfTurn) ∧
      (arc.hi.IsMinusHalfTurn → arc.lo.IsHalfTurn))
    ⟨fun ⟨loAngle, hiAngle, hiOfLo, loOfHi⟩ => ⟨loAngle, hiAngle, hiOfLo, loOfHi⟩,
      fun valid => ⟨valid.lo_isAngle, valid.hi_isAngle, valid.hi_of_lo, valid.lo_of_hi⟩⟩

def IsReal (arc : Arc) : Prop :=
  ∃ lower upper : Binary64, arc = ⟨.number lower, .number upper⟩

end Arc

theorem halfTurn_position : halfTurn.position = .units halfTurnUnits := rfl

theorem minusHalfTurn_position : minusHalfTurn.position = .units (-(halfTurnUnits : Int)) := rfl

theorem Number.real_halfTurn_position : (real halfTurn).position = .units halfTurnUnits := rfl

theorem Number.real_minusHalfTurn_position :
    (real minusHalfTurn).position = .units (-(halfTurnUnits : Int)) := rfl

theorem halfTurnUnits_pos : 0 < halfTurnUnits := by
  unfold halfTurnUnits
  generalize 1023 = exponent
  exact Nat.mul_pos (by decide) (Nat.two_pow_pos exponent)

namespace Value

theorem IsAngle.eq_number {value : Value} (isAngle : value.IsAngle) :
    ∃ content : Number, value = .number content := by
  cases value with
  | number content => exact ⟨content, rfl⟩
  | null | text | list =>
    obtain ⟨count, stands, _⟩ := isAngle
    cases stands

private theorem same_units_iff (value : Value) {target : Number} {count : Int}
    (targetAt : target.position = .units count) :
    value.same (.number target) = true ↔ value.position = .units count := by
  cases value with
  | number content =>
    rw [same_number, Number.same_iff, targetAt, position_number]
    exact ⟨fun same => same.1, fun stands => ⟨stands, by rw [stands]; nofun⟩⟩
  | null | text | list => simp [same, agrees, position]

theorem isHalfTurn_iff (value : Value) : value.same halfTurn = true ↔ value.IsHalfTurn :=
  value.same_units_iff halfTurn_position

theorem isMinusHalfTurn_iff (value : Value) :
    value.same minusHalfTurn = true ↔ value.IsMinusHalfTurn :=
  value.same_units_iff minusHalfTurn_position

end Value

namespace Arc

theorem empty_valid : empty.Valid where
  lo_isAngle := ⟨halfTurnUnits, rfl, by omega⟩
  hi_isAngle := ⟨-(halfTurnUnits : Int), rfl, by omega⟩
  hi_of_lo := fun minus => by
    have position : Position.units halfTurnUnits = .units (-(halfTurnUnits : Int)) := minus
    have positive := halfTurnUnits_pos
    simp only [Position.units.injEq] at position
    omega
  lo_of_hi := fun _ => rfl

theorem full_valid : full.Valid where
  lo_isAngle := ⟨-(halfTurnUnits : Int), rfl, by omega⟩
  hi_isAngle := ⟨halfTurnUnits, rfl, by omega⟩
  hi_of_lo := fun _ => rfl
  lo_of_hi := fun minus => by
    have position : Position.units halfTurnUnits = .units (-(halfTurnUnits : Int)) := minus
    have positive := halfTurnUnits_pos
    simp only [Position.units.injEq] at position
    omega

end Arc

end CircularArc
