import CircularArc.Proofs.Centers
import CircularArc.Proofs.CheckedEnds

/-!
# Runs that end alike

Two runs of an operation on numerically equal arguments fail together or give numerically equal
results. Numbers of different kinds and the two zeros are equal here; a test that looks at positions
only cannot tell them apart.
-/

set_option autoImplicit false

namespace CircularArc

/-- Two runs end alike: both fail, or both give results, which are related. -/
inductive Alike {α : Type} (Related : α → α → Prop) : Except Fault α → Except Fault α → Prop where
  | failed (fault twin : Fault) : Alike Related (.error fault) (.error twin)
  | given {result twin : α} (related : Related result twin) : Alike Related (.ok result) (.ok twin)

namespace Alike

variable {α β : Type} {Related : α → α → Prop} {Follows : β → β → Prop}
  {first second : Except Fault α}

theorem of_eq (same : first = second) : Alike Eq first second := by
  subst same
  cases first with
  | error fault => exact .failed fault fault
  | ok result => exact .given rfl

theorem mono {Weaker : α → α → Prop} (alike : Alike Related first second)
    (weaker : ∀ {result twin}, Related result twin → Weaker result twin) :
    Alike Weaker first second := by
  cases alike with
  | failed fault twin => exact .failed fault twin
  | given related => exact .given (weaker related)

/-- Runs that end alike go on alike. -/
theorem bind {next twinNext : α → Except Fault β} (alike : Alike Related first second)
    (goesOn : ∀ {result twin}, Related result twin → Alike Follows (next result) (twinNext twin)) :
    Alike Follows (first >>= next) (second >>= twinNext) := by
  cases alike with
  | failed fault twin => exact .failed fault twin
  | given related => exact goesOn related

theorem bind_eq {next twinNext : α → Except Fault β} (same : first = second)
    (goesOn : ∀ result, Alike Follows (next result) (twinNext result)) :
    Alike Follows (first >>= next) (second >>= twinNext) :=
  (of_eq same).bind fun agree => agree ▸ goesOn _

theorem ite {condition : Prop} [Decidable condition] {third fourth : Except Fault α}
    (yes : condition → Alike Related first second) (no : ¬ condition → Alike Related third fourth) :
    Alike Related (if condition then first else third) (if condition then second else fourth) := by
  split
  · exact yes ‹_›
  · exact no ‹_›

end Alike

def Number.SamePlace (number twin : Number) : Prop :=
  ∃ count, number.position = .units count ∧ twin.position = .units count

/-- Two names of one angle, neither of them a truth value. -/
structure Value.SameAngle (value twin : Value) : Prop where
  isAngle : value.IsAngle
  position_eq : twin.position = value.position
  notTruth : value.kind ≠ .truth
  twin_notTruth : twin.kind ≠ .truth

/-- Two arcs between the same angles. -/
structure Arc.SameEnds (arc twin : Arc) : Prop where
  lo : arc.lo.SameAngle twin.lo
  hi : arc.hi.SameAngle twin.hi

namespace Number.SamePlace

variable {number twin : Number}

theorem same (place : number.SamePlace twin) : number.same twin = true := by
  obtain ⟨count, numberAt, twinAt⟩ := place
  rw [Number.same_of_position numberAt twinAt]
  exact decide_eq_true rfl

end Number.SamePlace

namespace Value.SameAngle

variable {value twin : Value}

theorem exists_numbers (angles : value.SameAngle twin) :
    ∃ (number twinNumber : Number) (count : Int), value = .number number ∧
      twin = .number twinNumber ∧ number.position = .units count ∧
      twinNumber.position = .units count ∧ count.natAbs ≤ halfTurnUnits := by
  obtain ⟨number, rfl⟩ := angles.isAngle.eq_number
  obtain ⟨count, stands, within⟩ := angles.isAngle
  have twinAt : twin.position = .units count := angles.position_eq.trans stands
  obtain ⟨twinNumber, rfl⟩ := IsAngle.eq_number ⟨count, twinAt, within⟩
  exact ⟨number, twinNumber, count, rfl, rfl, stands, twinAt, within⟩

theorem twin_isAngle (angles : value.SameAngle twin) : twin.IsAngle := by
  obtain ⟨count, stands, within⟩ := angles.isAngle
  exact ⟨count, angles.position_eq.trans stands, within⟩

theorem exceedsHalfTurn (angles : value.SameAngle twin) :
    value.exceedsHalfTurn = twin.exceedsHalfTurn := by
  obtain ⟨number, twinNumber, count, rfl, rfl, numberAt, twinAt, -⟩ := angles.exists_numbers
  rw [exceedsHalfTurn_number, exceedsHalfTurn_number,
    Number.exceedsHalfTurn_of_position numberAt, Number.exceedsHalfTurn_of_position twinAt]

theorem same (angles : value.SameAngle twin) : value.same twin = true := by
  obtain ⟨number, twinNumber, count, rfl, rfl, numberAt, twinAt, -⟩ := angles.exists_numbers
  exact Number.SamePlace.same ⟨count, numberAt, twinAt⟩

end Value.SameAngle

namespace Arc.SameEnds

variable {arc twin other otherTwin : Arc}

theorem exists_numbers (ends : arc.SameEnds twin) :
    ∃ lo hi twinLo twinHi : Number, arc = ⟨.number lo, .number hi⟩ ∧
      twin = ⟨.number twinLo, .number twinHi⟩ ∧ twinLo.position = lo.position ∧
      twinHi.position = hi.position := by
  obtain ⟨lo, twinLo, loCount, loIs, twinLoIs, loAt, twinLoAt, -⟩ := ends.lo.exists_numbers
  obtain ⟨hi, twinHi, hiCount, hiIs, twinHiIs, hiAt, twinHiAt, -⟩ := ends.hi.exists_numbers
  refine ⟨lo, hi, twinLo, twinHi, ?_, ?_, twinLoAt.trans loAt.symm, twinHiAt.trans hiAt.symm⟩
  · rw [← loIs, ← hiIs]
  · rw [← twinLoIs, ← twinHiIs]

theorem exists_endsAt (ends : arc.SameEnds twin) :
    ∃ lo hi : Int, arc.EndsAt lo hi ∧ twin.EndsAt lo hi ∧ lo.natAbs ≤ halfTurnUnits ∧
      hi.natAbs ≤ halfTurnUnits := by
  obtain ⟨lo, loAt, loWithin⟩ := ends.lo.isAngle
  obtain ⟨hi, hiAt, hiWithin⟩ := ends.hi.isAngle
  exact ⟨lo, hi, ⟨loAt, hiAt⟩, ⟨ends.lo.position_eq.trans loAt, ends.hi.position_eq.trans hiAt⟩,
    loWithin, hiWithin⟩

/-!
## Tests
-/

theorem isValid (ends : arc.SameEnds twin) : arc.isValid = twin.isValid := by
  have loExceeds : arc.lo.exceedsHalfTurn = twin.lo.exceedsHalfTurn := ends.lo.exceedsHalfTurn
  have hiExceeds : arc.hi.exceedsHalfTurn = twin.hi.exceedsHalfTurn := ends.hi.exceedsHalfTurn
  obtain ⟨lo, hi, twinLo, twinHi, rfl, rfl, loAt, hiAt⟩ := ends.exists_numbers
  simp only [Value.exceedsHalfTurn_number, Except.ok.injEq] at loExceeds hiExceeds
  simp only [isValid_number, loExceeds, hiExceeds, Number.same, loAt, hiAt]

theorem isFull (ends : arc.SameEnds twin) : arc.isFull = twin.isFull := by
  obtain ⟨lo, hi, twinLo, twinHi, rfl, rfl, loAt, hiAt⟩ := ends.exists_numbers
  simp only [Arc.isFull, Value.same_number, Number.same, loAt, hiAt]

theorem isEmpty (ends : arc.SameEnds twin) : arc.isEmpty = twin.isEmpty := by
  obtain ⟨lo, hi, twinLo, twinHi, rfl, rfl, loAt, hiAt⟩ := ends.exists_numbers
  simp only [Arc.isEmpty, Value.same_number, Number.same, loAt, hiAt]

theorem isInverted (ends : arc.SameEnds twin) : arc.isInverted = twin.isInverted := by
  obtain ⟨lo, hi, twinLo, twinHi, rfl, rfl, loAt, hiAt⟩ := ends.exists_numbers
  simp only [isInverted_number, Number.lt, loAt, hiAt]

theorem sameEnds (ends : arc.SameEnds twin) : arc.lo.same arc.hi = twin.lo.same twin.hi := by
  obtain ⟨lo, hi, twinLo, twinHi, rfl, rfl, loAt, hiAt⟩ := ends.exists_numbers
  simp only [Value.same_number, Number.same, loAt, hiAt]

theorem same (ends : arc.SameEnds twin) (otherEnds : other.SameEnds otherTwin) :
    arc.same other = twin.same otherTwin := by
  obtain ⟨lo, hi, twinLo, twinHi, rfl, rfl, loAt, hiAt⟩ := ends.exists_numbers
  obtain ⟨otherLo, otherHi, otherTwinLo, otherTwinHi, rfl, rfl, otherLoAt, otherHiAt⟩ :=
    otherEnds.exists_numbers
  simp only [Arc.same, Value.agrees_number, Number.agrees, loAt, hiAt, otherLoAt, otherHiAt]

theorem holds_number (ends : arc.SameEnds twin) {point twinPoint : Number}
    (place : twinPoint.position = point.position) : arc.holds point = twin.holds twinPoint := by
  have empty := ends.isEmpty
  obtain ⟨lo, hi, twinLo, twinHi, rfl, rfl, loAt, hiAt⟩ := ends.exists_numbers
  simp only [Arc.holds_number, empty, Number.le, Number.lt, loAt, hiAt, place]

theorem interiorHolds_number (ends : arc.SameEnds twin) {point twinPoint : Number}
    (place : twinPoint.position = point.position) :
    arc.interiorHolds point = twin.interiorHolds twinPoint := by
  have full := ends.isFull
  obtain ⟨lo, hi, twinLo, twinHi, rfl, rfl, loAt, hiAt⟩ := ends.exists_numbers
  simp only [Arc.interiorHolds_number, full, Number.lt, loAt, hiAt, place]

theorem holds (ends : arc.SameEnds twin) {point twinPoint : Value}
    (angles : point.SameAngle twinPoint) : arc.holds point = twin.holds twinPoint := by
  obtain ⟨number, twinNumber, count, rfl, rfl, numberAt, twinAt, -⟩ := angles.exists_numbers
  exact ends.holds_number (twinAt.trans numberAt.symm)

theorem contains (ends : arc.SameEnds twin) (otherEnds : other.SameEnds otherTwin) :
    arc.contains other = twin.contains otherTwin := by
  have full := ends.isFull
  have empty := ends.isEmpty
  have otherEmpty := otherEnds.isEmpty
  obtain ⟨lo, hi, twinLo, twinHi, rfl, rfl, loAt, hiAt⟩ := ends.exists_numbers
  obtain ⟨otherLo, otherHi, otherTwinLo, otherTwinHi, rfl, rfl, otherLoAt, otherHiAt⟩ :=
    otherEnds.exists_numbers
  simp only [contains_number, full, empty, otherEmpty, Number.le, Number.lt, loAt, hiAt, otherLoAt,
    otherHiAt]

theorem interiorContains (ends : arc.SameEnds twin) (otherEnds : other.SameEnds otherTwin) :
    arc.interiorContains other = twin.interiorContains otherTwin := by
  have full := ends.isFull
  have otherEmpty := otherEnds.isEmpty
  obtain ⟨lo, hi, twinLo, twinHi, rfl, rfl, loAt, hiAt⟩ := ends.exists_numbers
  obtain ⟨otherLo, otherHi, otherTwinLo, otherTwinHi, rfl, rfl, otherLoAt, otherHiAt⟩ :=
    otherEnds.exists_numbers
  simp only [interiorContains_number, full, otherEmpty, Number.lt, loAt, hiAt, otherLoAt, otherHiAt]

theorem intersects (ends : arc.SameEnds twin) (otherEnds : other.SameEnds otherTwin) :
    arc.intersects other = twin.intersects otherTwin := by
  have empty := ends.isEmpty
  have otherEmpty := otherEnds.isEmpty
  obtain ⟨lo, hi, twinLo, twinHi, rfl, rfl, loAt, hiAt⟩ := ends.exists_numbers
  obtain ⟨otherLo, otherHi, otherTwinLo, otherTwinHi, rfl, rfl, otherLoAt, otherHiAt⟩ :=
    otherEnds.exists_numbers
  rw [intersects_number, intersects_number, empty, otherEmpty]
  unfold Number.le Number.lt
  rw [loAt, hiAt, otherLoAt, otherHiAt]

theorem interiorIntersects (ends : arc.SameEnds twin) (otherEnds : other.SameEnds otherTwin) :
    arc.interiorIntersects other = twin.interiorIntersects otherTwin := by
  have full := ends.isFull
  have empty := ends.isEmpty
  have otherEmpty := otherEnds.isEmpty
  obtain ⟨lo, hi, twinLo, twinHi, rfl, rfl, loAt, hiAt⟩ := ends.exists_numbers
  obtain ⟨otherLo, otherHi, otherTwinLo, otherTwinHi, rfl, rfl, otherLoAt, otherHiAt⟩ :=
    otherEnds.exists_numbers
  rw [interiorIntersects_number, interiorIntersects_number, full, empty, otherEmpty]
  unfold Number.same Number.lt
  rw [loAt, hiAt, otherLoAt, otherHiAt]

end Arc.SameEnds

/-!
## Points
-/

theorem Number.canonical_position {angle twin : Number} (place : twin.position = angle.position) :
    twin.canonical.position = angle.canonical.position := by
  have same : twin.same minusHalfTurn = angle.same minusHalfTurn := by
    simp only [Number.same, place]
  unfold canonical
  rw [same]
  split
  · rfl
  · exact place

namespace Value.SameAngle

variable {value twin : Value}

theorem canonical {angle twinAngle : Number}
    (angles : (Value.number angle).SameAngle (.number twinAngle)) :
    (Value.number angle.canonical).SameAngle (.number twinAngle.canonical) where
  isAngle := (Number.canonical_spec angles.isAngle).1
  position_eq := Number.canonical_position angles.position_eq
  notTruth := by
    unfold Number.canonical
    split
    · nofun
    · exact angles.notTruth
  twin_notTruth := by
    unfold Number.canonical
    split
    · nofun
    · exact angles.twin_notTruth

theorem angle (angles : value.SameAngle twin) (name : String) :
    ∃ angle twinAngle : Number, value.angle name = .ok angle ∧ twin.angle name = .ok twinAngle ∧
      (Value.number angle).SameAngle (.number twinAngle) := by
  obtain ⟨number, rfl⟩ := angles.isAngle.eq_number
  obtain ⟨twinNumber, rfl⟩ := angles.twin_isAngle.eq_number
  exact ⟨number, twinNumber, angle_eq_ok_iff.mpr ⟨rfl, angles.isAngle⟩,
    angle_eq_ok_iff.mpr ⟨rfl, angles.twin_isAngle⟩, angles⟩

theorem point (angles : value.SameAngle twin) :
    ∃ point twinPoint : Number, value.point = .ok point ∧ twin.point = .ok twinPoint ∧
      twinPoint.position = point.position := by
  obtain ⟨point, pointIs, ⟨count, pointAt, -⟩, exact⟩ := angles.isAngle.point angles.notTruth
  obtain ⟨twinPoint, twinPointIs, ⟨twinCount, twinPointAt, -⟩, twinExact⟩ :=
    angles.twin_isAngle.point angles.twin_notTruth
  have stands : twin.exactValue = value.exactValue := by
    rw [exactValue, exactValue, angles.position_eq]
  have named : twin.circlePoint = value.circlePoint := by
    rw [circlePoint, circlePoint, stands]
  rw [← exact, ← twinExact, exactValue_of_position pointAt, exactValue_of_position twinPointAt,
    unitsValue_inj] at named
  rw [named] at twinPointAt
  exact ⟨point, twinPoint, pointIs, twinPointIs, twinPointAt.trans pointAt.symm⟩

end Value.SameAngle

namespace Arc.SameEnds

variable {arc twin : Arc} {point twinPoint : Value}

theorem containsPoint (ends : arc.SameEnds twin) (angles : point.SameAngle twinPoint) :
    arc.containsPoint point = twin.containsPoint twinPoint := by
  obtain ⟨place, twinPlace, named, twinNamed, same⟩ := angles.point
  rw [Arc.containsPoint, Arc.containsPoint, named, twinNamed, ok_bind, ok_bind]
  exact ends.holds_number same

theorem interiorContainsPoint (ends : arc.SameEnds twin) (angles : point.SameAngle twinPoint) :
    arc.interiorContainsPoint point = twin.interiorContainsPoint twinPoint := by
  obtain ⟨place, twinPlace, named, twinNamed, same⟩ := angles.point
  rw [Arc.interiorContainsPoint, Arc.interiorContainsPoint, named, twinNamed, ok_bind, ok_bind]
  exact ends.interiorHolds_number same

end Arc.SameEnds

end CircularArc
