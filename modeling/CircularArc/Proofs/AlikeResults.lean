import CircularArc.Arc.Algebra
import CircularArc.Arc.Comparison
import CircularArc.Arc.Extension
import CircularArc.Proofs.AlikeRuns

/-!
# Numbers and arcs that come out alike

On arcs between the same angles, lengths, centers and distances come out at one place, and the arcs
that an operation puts together from its arguments have the same ends.
-/

set_option autoImplicit false

namespace CircularArc

theorem Alike.of_place {first second : Except Fault Number} {count : Int}
    (firstIs : ∃ result, first = .ok result ∧ result.position = .units count)
    (secondIs : ∃ result, second = .ok result ∧ result.position = .units count) :
    Alike Number.SamePlace first second := by
  obtain ⟨result, rfl, resultAt⟩ := firstIs
  obtain ⟨twin, rfl, twinAt⟩ := secondIs
  exact .given ⟨count, resultAt, twinAt⟩

theorem Number.SamePlace.lt_eq {left right twinLeft twinRight : Number}
    (lefts : left.SamePlace twinLeft) (rights : right.SamePlace twinRight) :
    left.lt right = twinLeft.lt twinRight := by
  obtain ⟨leftCount, leftAt, twinLeftAt⟩ := lefts
  obtain ⟨rightCount, rightAt, twinRightAt⟩ := rights
  rw [Number.lt_of_position leftAt rightAt, Number.lt_of_position twinLeftAt twinRightAt]

theorem Number.SamePlace.larger {first second twinFirst twinSecond : Number}
    (firsts : first.SamePlace twinFirst) (seconds : second.SamePlace twinSecond) :
    (first.larger second).SamePlace (twinFirst.larger twinSecond) := by
  rw [Number.larger, Number.larger, firsts.lt_eq seconds]
  split
  · exact seconds
  · exact firsts

namespace Value.SameAngle

variable {source target twinSource twinTarget : Value}

theorem refl {value : Value} (isAngle : value.IsAngle) (notTruth : value.kind ≠ .truth) :
    value.SameAngle value := ⟨isAngle, rfl, notTruth, notTruth⟩

theorem halfTurn : SameAngle (.number halfTurn) (.number halfTurn) := refl halfTurn_isAngle nofun

theorem minusHalfTurn : SameAngle (.number minusHalfTurn) (.number minusHalfTurn) :=
  refl minusHalfTurn_isAngle nofun

theorem forwardDistance (sources : source.SameAngle twinSource)
    (targets : target.SameAngle twinTarget) :
    Alike Number.SamePlace (source.forwardDistance target)
      (twinSource.forwardDistance twinTarget) := by
  obtain ⟨number, twin, count, rfl, rfl, numberAt, twinAt, within⟩ := sources.exists_numbers
  obtain ⟨targetNumber, targetTwin, targetCount, rfl, rfl, targetAt, targetTwinAt, targetWithin⟩ :=
    targets.exists_numbers
  exact .of_place (Number.forwardDistance_of_position numberAt targetAt within targetWithin)
    (Number.forwardDistance_of_position twinAt targetTwinAt within targetWithin)

end Value.SameAngle

namespace Arc

theorem SameEnds.full : full.SameEnds full := ⟨.minusHalfTurn, .halfTurn⟩

theorem SameEnds.empty : empty.SameEnds empty := ⟨.halfTurn, .minusHalfTurn⟩

namespace SameEnds

variable {arc twin other otherTwin : Arc} {point twinPoint : Value}

theorem same_eq_true (ends : arc.SameEnds twin) : arc.same twin = true := by
  obtain ⟨lo, hi, twinLo, twinHi, rfl, rfl, loAt, hiAt⟩ := ends.exists_numbers
  simp only [Arc.same, Value.agrees_number, Number.agrees, loAt, hiAt, decide_true, Bool.and_self]

/-!
## Measures
-/

theorem length_within (ends : arc.SameEnds twin) :
    Alike (fun length twinLength : Number => ∃ count, length.position = .units count ∧
      twinLength.position = .units count ∧ count.natAbs ≤ 2 * halfTurnUnits)
      arc.length twin.length := by
  obtain ⟨lo, hi, endsAt, twinAt, loWithin, hiWithin⟩ := ends.exists_endsAt
  obtain ⟨length, lengthIs, lengthAt⟩ := endsAt.length loWithin hiWithin
  obtain ⟨twinLength, twinIs, twinLengthAt⟩ := twinAt.length loWithin hiWithin
  rw [lengthIs, twinIs]
  exact .given ⟨_, lengthAt, twinLengthAt, natAbs_lengthUnits_le loWithin hiWithin⟩

theorem length (ends : arc.SameEnds twin) : Alike Number.SamePlace arc.length twin.length :=
  ends.length_within.mono fun ⟨count, lengthAt, twinAt, _⟩ => ⟨count, lengthAt, twinAt⟩

theorem center (ends : arc.SameEnds twin) : Alike Number.SamePlace arc.center twin.center := by
  obtain ⟨lo, hi, endsAt, twinAt, loWithin, hiWithin⟩ := ends.exists_endsAt
  obtain ⟨center, centerIs, centerAt⟩ := endsAt.center loWithin hiWithin
  obtain ⟨twinCenter, twinIs, twinCenterAt⟩ := twinAt.center loWithin hiWithin
  exact .of_place ⟨_, centerIs, centerAt⟩ ⟨_, twinIs, twinCenterAt⟩

theorem complementCenter (ends : arc.SameEnds twin) :
    ∃ center twinCenter : Binary64, arc.complementCenter = .ok (.real center) ∧
      twin.complementCenter = .ok (.real twinCenter) ∧
      (Value.number center).SameAngle (.number twinCenter) := by
  obtain ⟨lo, hi, endsAt, twinAt, loWithin, hiWithin⟩ := ends.exists_endsAt
  obtain ⟨center, centerIs, centerAt⟩ := endsAt.complementCenter loWithin hiWithin
  obtain ⟨twinCenter, twinIs, twinCenterAt⟩ := twinAt.complementCenter loWithin hiWithin
  have within := natAbs_complementCenterUnits_le loWithin hiWithin
  exact ⟨center, twinCenter, centerIs, twinIs, ⟨_, centerAt, within⟩,
    twinCenterAt.trans centerAt.symm, nofun, nofun⟩

/-!
## Arcs put together
-/

theorem complement (ends : arc.SameEnds twin) : arc.complement.SameEnds twin.complement := by
  rw [Arc.complement, Arc.complement, ends.sameEnds]
  split
  · exact .full
  · exact ⟨ends.hi, ends.lo⟩

theorem union (ends : arc.SameEnds twin) (otherEnds : other.SameEnds otherTwin) :
    Alike SameEnds (arc.union other) (twin.union otherTwin) := by
  have outside : (pure arc.isEmpty <||> other.holds arc.lo) =
      (pure twin.isEmpty <||> otherTwin.holds twin.lo) := by
    rw [ends.isEmpty, otherEnds.holds ends.lo]
  unfold Arc.union
  rw [otherEnds.isEmpty]
  refine .ite (fun _ => .given ends) fun _ => ?_
  refine .bind_eq (ends.holds otherEnds.lo) fun _ => .ite (fun _ => ?_) fun _ => ?_
  · refine .bind_eq (ends.holds otherEnds.hi) fun _ => .ite (fun _ => ?_) fun _ => ?_
    · refine .bind_eq (ends.contains otherEnds) fun held => ?_
      cases held with
      | false => exact .given .full
      | true => exact .given ends
    · exact .given ⟨ends.lo, otherEnds.hi⟩
  · refine .bind_eq (ends.holds otherEnds.hi) fun _ => .ite (fun _ => ?_) fun _ => ?_
    · exact .given ⟨otherEnds.lo, ends.hi⟩
    · refine .bind_eq outside fun _ => .ite (fun _ => .given otherEnds) fun _ => ?_
      refine (otherEnds.hi.forwardDistance ends.lo).bind fun before => ?_
      refine (ends.hi.forwardDistance otherEnds.lo).bind fun after => ?_
      rw [before.lt_eq after]
      split
      · exact .given ⟨otherEnds.lo, ends.hi⟩
      · exact .given ⟨ends.lo, otherEnds.hi⟩

theorem intersection (ends : arc.SameEnds twin) (otherEnds : other.SameEnds otherTwin) :
    Alike SameEnds (arc.intersection other) (twin.intersection otherTwin) := by
  have overlap : Alike (fun found twinFound => found.toArc.SameEnds twinFound.toArc)
      (arc.overlap other) (twin.overlap otherTwin) := by
    unfold Arc.overlap
    rw [otherEnds.isEmpty]
    refine .ite (fun _ => .given .empty) fun _ => ?_
    refine .bind_eq (ends.holds otherEnds.lo) fun _ => .ite (fun _ => ?_) fun _ => ?_
    · refine .bind_eq (ends.holds otherEnds.hi) fun _ => .ite (fun _ => ?_) fun _ => ?_
      · refine otherEnds.length.bind fun otherLength => ends.length.bind fun length => ?_
        rw [otherLength.lt_eq length]
        split
        · exact .given otherEnds
        · exact .given ends
      · exact .given ⟨otherEnds.lo, ends.hi⟩
    · refine .bind_eq (ends.holds otherEnds.hi) fun _ => .ite (fun _ => ?_) fun _ => ?_
      · exact .given ⟨ends.lo, otherEnds.hi⟩
      · exact .bind_eq (otherEnds.holds ends.lo) fun _ =>
          .ite (fun _ => .given ends) fun _ => .given .empty
  exact overlap.bind fun ends => .given ends

/-!
## Points added and projected
-/

theorem isNearerLo (ends : arc.SameEnds twin) (angles : point.SameAngle twinPoint) :
    Alike Eq (arc.isNearerLo point) (twin.isNearerLo twinPoint) := by
  refine (angles.forwardDistance ends.lo).bind fun toLo => ?_
  refine (ends.hi.forwardDistance angles).bind fun fromHi => ?_
  exact .given (toLo.lt_eq fromHi)

theorem addPoint (ends : arc.SameEnds twin) (angles : point.SameAngle twinPoint) :
    Alike SameEnds (arc.addPoint point) (twin.addPoint twinPoint) := by
  obtain ⟨angle, twinAngle, accepted, twinAccepted, same⟩ := angles.angle "p"
  have places := same.canonical
  rw [addPoint_eq, addPoint_eq, accepted, twinAccepted, ok_bind, ok_bind, Arc.insert, Arc.insert,
    ends.isEmpty]
  refine .bind_eq (ends.holds places) fun _ => .ite (fun _ => .given ends) fun _ => ?_
  refine .ite (fun _ => .given ⟨places, places⟩) fun _ => ?_
  refine (ends.isNearerLo places).bind fun {nearer _} agree => ?_
  subst agree
  cases nearer with
  | false => exact .given ⟨ends.lo, places⟩
  | true => exact .given ⟨places, ends.hi⟩

theorem project (ends : arc.SameEnds twin) (angles : point.SameAngle twinPoint) :
    Alike Value.SameAngle (arc.project point) (twin.project twinPoint) := by
  obtain ⟨angle, twinAngle, accepted, twinAccepted, same⟩ := angles.angle "p"
  have places := same.canonical
  rw [Arc.project, Arc.project, accepted, twinAccepted, ok_bind, ok_bind, ends.isEmpty]
  refine .ite (fun _ => .failed _ _) fun _ => ?_
  refine .bind_eq (ends.holds places) fun _ => .ite (fun _ => .given places) fun _ => ?_
  refine (ends.isNearerLo places).bind fun {nearer _} agree => ?_
  subst agree
  cases nearer with
  | false => exact .given ends.hi
  | true => exact .given ends.lo

end SameEnds

/-!
## Checked ends and directed distances
-/

private theorem canonicalEnd_sameAngle {angle twinAngle opposite twinOpposite : Number}
    (angles : (Value.number angle).SameAngle (.number twinAngle))
    (opposites : twinOpposite.position = opposite.position) :
    (Value.number (if angle.same minusHalfTurn && !opposite.same halfTurn then halfTurn
      else angle)).SameAngle
      (.number (if twinAngle.same minusHalfTurn && !twinOpposite.same halfTurn then halfTurn
        else twinAngle)) := by
  have places : twinAngle.position = angle.position := angles.position_eq
  unfold Number.same
  rw [places, opposites]
  split
  · exact .halfTurn
  · exact angles

theorem canonical_sameEnds {lower upper twinLower twinUpper : Number}
    (lowers : (Value.number lower).SameAngle (.number twinLower))
    (uppers : (Value.number upper).SameAngle (.number twinUpper)) :
    (canonical lower upper).SameEnds (canonical twinLower twinUpper) :=
  ⟨canonicalEnd_sameAngle lowers uppers.position_eq, canonicalEnd_sameAngle uppers lowers.position_eq⟩

section Checked

variable {lower upper twinLower twinUpper : Value}

theorem checked_of_sameAngle (lowers : lower.SameAngle twinLower)
    (uppers : upper.SameAngle twinUpper) :
    Alike SameEnds (checked lower upper) (checked twinLower twinUpper) := by
  have accepted {value twin : Value} (angles : value.SameAngle twin) :
      ∃ nearest twinNearest : Binary64, checkedEnd value = .ok nearest ∧
        checkedEnd twin = .ok twinNearest ∧
        (Value.number nearest).SameAngle (.number twinNearest) := by
    obtain ⟨nearest, isEnd, nearestAt⟩ :=
      (Value.isEnd_iff.mpr ⟨angles.isAngle, angles.notTruth⟩).checkedEnd
    obtain ⟨twinNearest, twinIsEnd, twinNearestAt⟩ :=
      (Value.isEnd_iff.mpr ⟨angles.twin_isAngle, angles.twin_notTruth⟩).checkedEnd
    exact ⟨nearest, twinNearest, isEnd, twinIsEnd, checkedEnd_isAngle isEnd,
      twinNearestAt.trans (angles.position_eq.trans nearestAt.symm), nofun, nofun⟩
  obtain ⟨lo, twinLo, loIs, twinLoIs, los⟩ := accepted lowers
  obtain ⟨hi, twinHi, hiIs, twinHiIs, his⟩ := accepted uppers
  rw [checked_of_checkedEnd loIs hiIs, checked_of_checkedEnd twinLoIs twinHiIs]
  exact .given (canonical_sameEnds los his)

end Checked

namespace SameEnds

variable {arc twin other otherTwin gap twinGap : Arc}

theorem endDistance (gaps : gap.SameEnds twinGap)
    {point twinPoint source twinSource target twinTarget : Value}
    (points : point.SameAngle twinPoint) (sources : source.SameAngle twinSource)
    (targets : target.SameAngle twinTarget) :
    Alike Number.SamePlace (gap.endDistance point source target)
      (twinGap.endDistance twinPoint twinSource twinTarget) := by
  refine .bind_eq (gaps.containsPoint points) fun _ => .ite (fun _ => ?_) fun _ => ?_
  · exact sources.forwardDistance targets
  · exact .given ⟨0, rfl, rfl⟩

theorem directedDistance (ends : arc.SameEnds twin) (otherEnds : other.SameEnds otherTwin) :
    Alike Number.SamePlace (arc.directedDistance other) (twin.directedDistance otherTwin) := by
  obtain ⟨middle, twinMiddle, middleIs, twinMiddleIs, middles⟩ := otherEnds.complementCenter
  unfold Arc.directedDistance
  rw [otherEnds.isEmpty, middleIs, twinMiddleIs, ok_bind, ok_bind]
  refine .bind_eq (otherEnds.contains ends) fun _ => .ite (fun _ => ?_) fun _ => ?_
  · exact .given ⟨0, rfl, rfl⟩
  refine .ite (fun _ => .given ⟨halfTurnUnits, rfl, rfl⟩) fun _ => ?_
  refine .bind_eq (ends.holds middles) fun _ => .ite (fun _ => ?_) fun _ => ?_
  · exact otherEnds.hi.forwardDistance middles
  refine (checked_of_sameAngle otherEnds.hi middles).bind fun gapsAfter => ?_
  refine (gapsAfter.endDistance ends.hi otherEnds.hi ends.hi).bind fun uppers => ?_
  refine (checked_of_sameAngle middles otherEnds.lo).bind fun gapsBefore => ?_
  refine (gapsBefore.endDistance ends.lo ends.lo otherEnds.lo).bind fun lowers => ?_
  exact .given (uppers.larger lowers)

end SameEnds

end Arc

end CircularArc
