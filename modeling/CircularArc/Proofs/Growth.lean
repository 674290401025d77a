import CircularArc.Arc.Extension
import CircularArc.Proofs.Construction
import CircularArc.Proofs.Containment

/-!
# Grown and shrunk arcs are valid

A point is added by moving an end to it, and no live end is minus half a turn. The ends that a
margin moves are checked once more before they make an arc.
-/

set_option autoImplicit false

namespace CircularArc

namespace Update

variable {α β : Type} (arc : Arc)

theorem get_bind_applyTo (next : Arc → Update β) :
    (get >>= next : Update β).applyTo arc = (next arc).applyTo arc := rfl

theorem lift_bind_applyTo (outcome : Except Fault α) (next : α → Update β) :
    (liftM outcome >>= next : Update β).applyTo arc =
      match outcome with
      | .ok result => (next result).applyTo arc
      | .error fault => (.error fault, arc) := by
  cases outcome with
  | ok result => rfl
  | error fault => rfl

/-- What an update gives that assigns no end before the last call that can fail. -/
def commit (arc : Arc) : Except Fault Arc → Except Fault Unit × Arc
  | .ok result => (.ok (), result)
  | .error fault => (.error fault, arc)

end Update

namespace Arc

variable {arc result : Arc}

/-- The arc that an insertion leaves when it succeeds. -/
def insert (arc : Arc) (point : Value) : Except Fault Arc := do
  if ← arc.holds point then
    return arc
  else if arc.isEmpty then
    return ⟨point, point⟩
  else
    return if ← arc.isNearerLo point then ⟨point, arc.hi⟩ else ⟨arc.lo, point⟩

theorem insert_applyTo (arc : Arc) (point : Value) :
    (Update.insert point).applyTo arc = Update.commit arc (arc.insert point) := by
  rw [Update.insert, Arc.insert, Update.get_bind_applyTo, Update.lift_bind_applyTo]
  cases arc.holds point with
  | error fault => rfl
  | ok holds =>
    cases holds with
    | true => rfl
    | false =>
      cases arc.isEmpty with
      | true => rfl
      | false =>
        simp only [Bool.false_eq_true, ↓reduceIte, ok_bind, Update.lift_bind_applyTo]
        cases arc.isNearerLo point with
        | error fault => rfl
        | ok nearer =>
          cases nearer with
          | true => rfl
          | false => rfl

theorem addPoint_applyTo_insert (arc : Arc) (value : Value) :
    (Update.addPoint value).applyTo arc =
      Update.commit arc (value.angle "p" >>= fun angle => arc.insert angle.canonical) := by
  rw [Update.addPoint, Update.lift_bind_applyTo]
  cases value.angle "p" with
  | error fault => rfl
  | ok angle => exact insert_applyTo arc angle.canonical

theorem addPoint_eq (arc : Arc) (value : Value) :
    arc.addPoint value = value.angle "p" >>= fun angle => arc.insert angle.canonical := by
  unfold Arc.addPoint
  rw [addPoint_applyTo_insert]
  cases value.angle "p" >>= fun angle => arc.insert angle.canonical with
  | error fault => rfl
  | ok grown => rfl

/-- A call that fails leaves the arc, and one that succeeds leaves the grown arc. -/
theorem addPoint_applyTo (arc : Arc) (value : Value) :
    (Update.addPoint value).applyTo arc = Update.commit arc (arc.addPoint value) := by
  rw [addPoint_applyTo_insert, addPoint_eq]

/-- Adding a point keeps the arc, makes the arc of that point, or moves one end to it. -/
inductive InsertCase (arc : Arc) (point : Value) : Arc → Prop where
  | held (holds : arc.Spans point.exactValue) : InsertCase arc point arc
  | fresh (vanishes : arc.points = ∅) : InsertCase arc point ⟨point, point⟩
  | moveLo (nonempty : arc.points ≠ ∅) (free : ¬ arc.Spans point.exactValue)
      (nearer : arc.isNearerLo point = .ok true) : InsertCase arc point ⟨point, arc.hi⟩
  | moveHi (nonempty : arc.points ≠ ∅) (free : ¬ arc.Spans point.exactValue)
      (notNearer : arc.isNearerLo point = .ok false) : InsertCase arc point ⟨arc.lo, point⟩

theorem Valid.insert_cases (valid : arc.Valid) {point : Value} (isAngle : point.IsAngle)
    (inserted : arc.insert point = .ok result) : InsertCase arc point result := by
  obtain ⟨holds, holdsIs, holdsMeans⟩ := valid.holds_decides isAngle
  unfold insert at inserted
  rw [holdsIs, ok_bind] at inserted
  by_cases held : holds = true
  · rw [if_pos held] at inserted
    cases inserted
    exact .held (holdsMeans.mp held)
  rw [if_neg held] at inserted
  by_cases vanishing : arc.isEmpty = true
  · rw [if_pos vanishing] at inserted
    cases inserted
    exact .fresh (valid.isEmpty_iff_points.mp vanishing)
  rw [if_neg vanishing] at inserted
  have nonempty := mt valid.isEmpty_iff_points.mpr vanishing
  have free := mt holdsMeans.mpr held
  obtain ⟨nearer, nearerIs, inserted⟩ := exists_of_bind_eq_ok inserted
  cases nearer with
  | true =>
    cases inserted
    exact .moveLo nonempty free nearerIs
  | false =>
    cases inserted
    exact .moveHi nonempty free nearerIs

theorem InsertCase.valid {point : Value} (outcome : InsertCase arc point result)
    (valid : arc.Valid) (isAngle : point.IsAngle) (above : -halfCircle < point.exactValue) :
    result.Valid := by
  have ends := valid.exactEnds
  have below := isAngle.le_halfCircle
  have positive := halfCircle_pos
  have emptyIff := valid.points_eq_empty_iff
  cases outcome with
  | held => exact valid
  | fresh => exact valid_of_above isAngle isAngle above above
  | moveLo nonempty free =>
    refine valid_iff.mpr ⟨isAngle, valid.hi_isAngle, ?_⟩
    grind
  | moveHi nonempty free =>
    refine valid_iff.mpr ⟨valid.lo_isAngle, isAngle, ?_⟩
    unfold Spans at free
    grind

theorem Valid.addPoint (valid : arc.Valid) {value : Value}
    (added : arc.addPoint value = .ok result) : result.Valid := by
  rw [addPoint_eq] at added
  obtain ⟨angle, accepted, inserted⟩ := exists_of_bind_eq_ok added
  obtain ⟨isAngle, above⟩ := Value.canonical_of_angle accepted
  exact (valid.insert_cases isAngle inserted).valid valid isAngle above

theorem moveEnds_valid {margin : Number} (moved : arc.moveEnds margin = .ok result) :
    result.Valid := by
  have positive := halfCircle_pos
  obtain ⟨loMoved, -, moved⟩ := exists_of_bind_eq_ok moved
  obtain ⟨lower, -, moved⟩ := exists_of_bind_eq_ok moved
  obtain ⟨hiMoved, -, moved⟩ := exists_of_bind_eq_ok moved
  obtain ⟨upper, -, moved⟩ := exists_of_bind_eq_ok moved
  obtain ⟨accepted, acceptedIs, moved⟩ := exists_of_bind_eq_ok moved
  obtain ⟨atMinus, atMinusIs, moved⟩ := exists_of_bind_eq_ok moved
  have valid := checked_valid acceptedIs
  cases atMinus with
  | false =>
    cases moved
    exact valid
  | true =>
    cases moved
    obtain ⟨⟨loFrom, -⟩, -, hiOfLo, -⟩ := valid.exactEnds
    obtain ⟨lo, hi, rfl, loPlaced, -⟩ := valid.exists_numbers
    rw [Value.le_number, Except.ok.injEq,
      Number.le_eq_decide loPlaced Value.minusHalfTurn_isPlaced, decide_eq_true_eq,
      Value.exactValue_minusHalfTurn] at atMinusIs
    have hiAt := hiOfLo (le_antisymm atMinusIs loFrom)
    refine valid_of_above Value.halfTurn_isAngle valid.hi_isAngle ?_ ?_
    · rw [Value.exactValue_halfTurn]
      linarith
    · rw [hiAt]
      linarith

theorem moveEnds_of_expansion {margin : Number} {moved : Arc}
    (moves : arc.expansion margin = .ok (.moved moved)) : arc.moveEnds margin = .ok moved := by
  unfold Arc.expansion at moves
  split at moves
  · split at moves
    · cases moves
    · obtain ⟨length, -, moves⟩ := exists_of_bind_eq_ok moves
      obtain ⟨widened, -, moves⟩ := exists_of_bind_eq_ok moves
      obtain ⟨grown, -, moves⟩ := exists_of_bind_eq_ok moves
      split at moves
      · cases moves
      · obtain ⟨moved, movedIs, moves⟩ := exists_of_bind_eq_ok moves
        cases moves
        exact movedIs
  · split at moves
    · cases moves
    · obtain ⟨length, -, moves⟩ := exists_of_bind_eq_ok moves
      obtain ⟨narrowed, -, moves⟩ := exists_of_bind_eq_ok moves
      obtain ⟨shrunk, -, moves⟩ := exists_of_bind_eq_ok moves
      split at moves
      · cases moves
      · obtain ⟨moved, movedIs, moves⟩ := exists_of_bind_eq_ok moves
        cases moves
        exact movedIs

theorem Valid.expansion (valid : arc.Valid) {margin : Number} {expansion : Expansion}
    (found : arc.expansion margin = .ok expansion) : (expansion.toArc arc).Valid := by
  cases expansion with
  | unchanged => exact valid
  | saturated => exact full_valid
  | collapsed => exact empty_valid
  | moved => exact moveEnds_valid (moveEnds_of_expansion found)

theorem Valid.expanded (valid : arc.Valid) {margin : Number}
    (found : arc.expanded margin = .ok result) : result.Valid := by
  obtain ⟨expansion, expansionIs, found⟩ := exists_of_bind_eq_ok found
  cases found
  exact valid.expansion expansionIs

end Arc

end CircularArc
