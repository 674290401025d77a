import CircularArc.Proofs.AlikeResults
import CircularArc.Proofs.PositionArithmetic

/-!
# Results depend on numeric values only

A margin or a tolerance that is an integer of at most 53 bits acts like the floating-point number of
its value. Sums with it are rounded later than sums of floating-point numbers are, when the sum is
converted, but once only, and then they stand at the same place.
-/

set_option autoImplicit false

namespace CircularArc

/-- Two margins or tolerances of one value, and neither of them an integer of more than 53 bits. -/
structure Number.SameMargin (margin twin : Number) : Prop where
  position_eq : twin.position = margin.position
  short : margin.IsShort
  twin_short : twin.IsShort

/-- Two terms of one value, both of which convert exactly. -/
structure Number.SameTerm (term twin : Number) : Prop where
  position_eq : twin.position = term.position
  exact : term.IsExact
  twin_exact : twin.IsExact

/-- Two sums that convert to one place. -/
def Number.SameSum (sum twin : Number) : Prop := ∃ place, sum.Converts place ∧ twin.Converts place

def Binary64.Agree (number twin : Binary64) : Prop := twin.position = number.position

theorem Binary64.Agree.abs {number twin : Binary64} (agree : number.Agree twin) :
    number.abs.Agree twin.abs := by
  rcases eq_or_zero_of_position agree with rfl | ⟨twinZero, zero⟩
  · rfl
  · exact (position_abs twinZero).trans (position_abs zero).symm

/-!
## Sums and their conversion
-/

namespace Number

variable {left right twinLeft twinRight margin twinMargin : Number}

theorem SameMargin.term (margins : margin.SameMargin twinMargin) : margin.SameTerm twinMargin :=
  ⟨margins.position_eq, margins.short.isExact, margins.twin_short.isExact⟩

theorem SameMargin.twice (margins : margin.SameMargin twinMargin) :
    margin.twice.SameTerm twinMargin.twice := by
  obtain ⟨exact, doubled⟩ := margins.short.twice
  obtain ⟨twinExact, twinDoubled⟩ := margins.twin_short.twice
  exact ⟨by rw [doubled, twinDoubled, margins.position_eq], exact, twinExact⟩

theorem sameTerm_of_sameAngle (angles : (Value.number left).SameAngle (.number twinLeft)) :
    left.SameTerm twinLeft := by
  have limit := halfTurnUnits_le_exactLimit
  obtain ⟨count, stands, within⟩ := angles.isAngle
  exact ⟨angles.position_eq, isExact_of_position stands (by omega),
    isExact_of_position (angles.position_eq.trans stands) (by omega)⟩

theorem SameTerm.combine {exact : Int → Int → Int} {rounded : Binary64 → Binary64 → Binary64}
    {place : Position → Position → Position} (places : Places exact rounded place)
    (lefts : left.SameTerm twinLeft) (rights : right.SameTerm twinRight) :
    Alike SameSum (combine exact rounded left right)
      (combine exact rounded twinLeft twinRight) := by
  obtain ⟨result, resultIs, converts⟩ := places.combine_converts lefts.exact rights.exact
  obtain ⟨twin, twinIs, twinConverts⟩ := places.combine_converts lefts.twin_exact rights.twin_exact
  rw [lefts.position_eq, rights.position_eq] at twinConverts
  rw [resultIs, twinIs]
  exact .given ⟨_, converts, twinConverts⟩

theorem SameTerm.add (lefts : left.SameTerm twinLeft) (rights : right.SameTerm twinRight) :
    Alike SameSum (left.add right) (twinLeft.add twinRight) :=
  lefts.combine add_places rights

theorem SameTerm.sub (lefts : left.SameTerm twinLeft) (rights : right.SameTerm twinRight) :
    Alike SameSum (left.sub right) (twinLeft.sub twinRight) :=
  lefts.combine sub_places rights

private theorem wrap_of_converts {nearest : Binary64} (converts : left.toBinary64 = .ok nearest) :
    left.wrap = (real nearest).wrap := by
  rw [wrap, wrap, converts, toBinary64_real]

theorem SameSum.wrap (sums : left.SameSum twinLeft) :
    Alike Binary64.Agree left.wrap twinLeft.wrap := by
  obtain ⟨place, ⟨nearest, converts, nearestAt⟩, twinNearest, twinConverts, twinAt⟩ := sums
  rw [wrap_of_converts converts, wrap_of_converts twinConverts]
  rcases Binary64.eq_or_zero_of_position (nearestAt.trans twinAt.symm) with rfl | ⟨zero, twinZero⟩
  · exact (Alike.of_eq rfl).mono fun agree => agree ▸ rfl
  · have within : (0 : Int).natAbs ≤ 2 * halfTurnUnits := Nat.zero_le _
    obtain ⟨wrapped, wraps, wrappedAt⟩ :=
      wrap_of_position (show (real nearest).position = .units 0 from zero) within
    obtain ⟨twinWrapped, twinWraps, twinWrappedAt⟩ :=
      wrap_of_position (show (real twinNearest).position = .units 0 from twinZero) within
    rw [wraps, twinWraps]
    exact .given (twinWrappedAt.trans wrappedAt.symm)

theorem SameSum.combine_real {exact : Int → Int → Int}
    {rounded : Binary64 → Binary64 → Binary64} {place : Position → Position → Position}
    (places : Places exact rounded place) (sums : left.SameSum twinLeft) (operand : Binary64) :
    Alike (fun result twin => twin.position = result.position)
      (combine exact rounded left (.real operand))
      (combine exact rounded twinLeft (.real operand)) := by
  obtain ⟨_, ⟨nearest, converts, rfl⟩, twinNearest, twinConverts, twinAt⟩ := sums
  rw [Number.combine_real converts, Number.combine_real twinConverts]
  refine .given ?_
  rw [position, position, places.rounded, places.rounded, twinAt]

end Number

/-!
## Margins
-/

namespace Arc

theorem checked_of_agree {lower upper twinLower twinUpper : Binary64}
    (lowers : lower.Agree twinLower) (uppers : upper.Agree twinUpper) :
    Alike SameEnds (checked (.number lower) (.number upper))
      (checked (.number twinLower) (.number twinUpper)) := by
  have isAngle_iff {number twin : Binary64} (agree : number.Agree twin) :
      (Value.number twin).IsAngle ↔ (Value.number number).IsAngle := by
    have same : (Value.number twin).position = (Value.number number).position := agree
    rw [Value.IsAngle, Value.IsAngle, same]
  have refused {lower upper : Binary64}
      (outside : ¬ ((Value.number lower).IsAngle ∧ (Value.number upper).IsAngle)) :
      ∃ fault, checked (.number lower) (.number upper) = .error fault := by
    cases built : checked (.number lower) (.number upper) with
    | error fault => exact ⟨fault, rfl⟩
    | ok arc =>
      obtain ⟨loEnd, hiEnd⟩ := exists_checked_iff.mp ⟨arc, built⟩
      exact absurd ⟨loEnd.2, hiEnd.2⟩ outside
  by_cases angles : (Value.number lower).IsAngle ∧ (Value.number upper).IsAngle
  · exact checked_of_sameAngle ⟨angles.1, lowers, nofun, nofun⟩ ⟨angles.2, uppers, nofun, nofun⟩
  · obtain ⟨fault, fails⟩ := refused angles
    obtain ⟨twinFault, twinFails⟩ := refused (mt (fun twins =>
      ⟨(isAngle_iff lowers).mp twins.1, (isAngle_iff uppers).mp twins.2⟩) angles)
    rw [fails, twinFails]
    exact .failed fault twinFault

namespace SameEnds

variable {arc twin other otherTwin : Arc} {margin twinMargin : Number}

theorem moveEnds (ends : arc.SameEnds twin) (margins : margin.SameMargin twinMargin) :
    Alike SameEnds (arc.moveEnds margin) (twin.moveEnds twinMargin) := by
  obtain ⟨lo, hi, twinLo, twinHi, rfl, rfl, -⟩ := ends.exists_numbers
  have los := Number.sameTerm_of_sameAngle ends.lo
  have his := Number.sameTerm_of_sameAngle ends.hi
  refine (los.sub margins.term).bind fun sums => sums.wrap.bind fun lowers => ?_
  refine (his.add margins.term).bind fun sums => sums.wrap.bind fun uppers => ?_
  refine (checked_of_agree lowers uppers).bind fun {moved twinMoved} moves => ?_
  have lowest : moved.lo.le minusHalfTurn = twinMoved.lo.le minusHalfTurn := by
    obtain ⟨lower, upper, twinLower, twinUpper, rfl, rfl, lowerAt, -⟩ := moves.exists_numbers
    rw [Value.le_number, Value.le_number, Number.le, Number.le, lowerAt]
  refine .bind_eq lowest fun atLowest => ?_
  cases atLowest with
  | false => exact .given moves
  | true => exact .given ⟨.halfTurn, moves.hi⟩

theorem length_term (ends : arc.SameEnds twin) :
    Alike Number.SameTerm arc.length twin.length := by
  refine ends.length_within.mono fun ⟨count, lengthAt, twinAt, within⟩ => ?_
  have limit := halfTurnUnits_le_exactLimit
  exact ⟨twinAt.trans lengthAt.symm, Number.isExact_of_position lengthAt (by omega),
    Number.isExact_of_position twinAt (by omega)⟩

theorem expansion (ends : arc.SameEnds twin) (margins : margin.SameMargin twinMargin) :
    Alike (fun change twinChange => (change.toArc arc).SameEnds (twinChange.toArc twin))
      (arc.expansion margin) (twin.expansion twinMargin) := by
  have nonneg : (Number.integer 0).le margin = (Number.integer 0).le twinMargin := by
    rw [Number.le, Number.le, margins.position_eq]
  unfold Arc.expansion
  rw [nonneg, ends.isEmpty, ends.isFull]
  refine .ite (fun _ => .ite (fun _ => .given ends) fun _ => ?_)
    fun _ => .ite (fun _ => .given ends) fun _ => ?_
  · refine ends.length_term.bind fun lengths => ?_
    refine (lengths.add margins.twice).bind fun sums => ?_
    refine (sums.combine_real Number.add_places endAllowance).bind fun {grown twinGrown} place => ?_
    have fills : Number.le fullTurn grown = Number.le fullTurn twinGrown := by
      rw [Number.le, Number.le, place]
    rw [fills]
    exact .ite (fun _ => .given .full) fun _ =>
      (ends.moveEnds margins).bind fun moves => .given moves
  · refine ends.length_term.bind fun lengths => ?_
    refine (lengths.add margins.twice).bind fun sums => ?_
    refine (sums.combine_real Number.sub_places endAllowance).bind fun {shrunk twinShrunk} place => ?_
    have vanishes : shrunk.le (.integer 0) = twinShrunk.le (.integer 0) := by
      rw [Number.le, Number.le, place]
    rw [vanishes]
    exact .ite (fun _ => .given .empty) fun _ =>
      (ends.moveEnds margins).bind fun moves => .given moves

theorem expanded (ends : arc.SameEnds twin) (margins : margin.SameMargin twinMargin) :
    Alike SameEnds (arc.expanded margin) (twin.expanded twinMargin) :=
  (ends.expansion margins).bind .given

end SameEnds

/-!
## Tolerances
-/

variable {arc twin other otherTwin : Arc} {tolerance twinTolerance : Number}

theorem SameEnds.isNearlyEmpty (ends : arc.SameEnds twin)
    (tolerances : tolerance.SameMargin twinTolerance) :
    Alike Eq (arc.isNearlyEmpty (.number tolerance)) (twin.isNearlyEmpty (.number twinTolerance)) := by
  refine ends.length_term.bind fun {length twinLength} lengths => .of_eq ?_
  rw [Value.twice_number, Value.twice_number, ok_bind, ok_bind, Value.le_number, Value.le_number,
    Number.le, Number.le, lengths.position_eq, tolerances.twice.position_eq]

theorem SameEnds.isNearlyFull (ends : arc.SameEnds twin)
    (tolerances : tolerance.SameMargin twinTolerance) :
    Alike Eq (arc.isNearlyFull (.number tolerance)) (twin.isNearlyFull (.number twinTolerance)) := by
  refine ends.length_term.bind fun {length twinLength} lengths => ?_
  obtain ⟨bound, boundIs, boundAt⟩ := tolerances.term.exact.real_sub halfTurn
  obtain ⟨twinBound, twinIs, twinAt⟩ := tolerances.term.twin_exact.real_sub halfTurn
  have places : (Number.real twinBound.twice).position = (Number.real bound.twice).position := by
    have same : twinBound.position = bound.position := by
      rw [boundAt, twinAt, tolerances.position_eq]
    rw [Number.position, Number.position, Binary64.position_twice_eq_plus,
      Binary64.position_twice_eq_plus, same]
  rw [Value.sub_number, Value.sub_number, boundIs, twinIs, ok_bind, ok_bind, pure_eq_ok, pure_eq_ok,
    Number.twice, Number.twice, Number.le, Number.le, lengths.position_eq, places]
  exact .given rfl

theorem nearlySameAngle_alike {source target twinSource twinTarget : Value}
    (sources : source.SameAngle twinSource) (targets : target.SameAngle twinTarget)
    (tolerances : tolerance.SameMargin twinTolerance) :
    Alike Eq (nearlySameAngle source target (.number tolerance))
      (nearlySameAngle twinSource twinTarget (.number twinTolerance)) := by
  obtain ⟨sourceNumber, twinSourceNumber, -, rfl, rfl, -⟩ := sources.exists_numbers
  obtain ⟨targetNumber, twinTargetNumber, -, rfl, rfl, -⟩ := targets.exists_numbers
  have sourceTerms := Number.sameTerm_of_sameAngle sources
  have targetTerms := Number.sameTerm_of_sameAngle targets
  refine (targetTerms.sub sourceTerms).bind fun sums => sums.wrap.bind fun {offset twinOffset} offsets => ?_
  have places : (Number.real twinOffset.abs).position = (Number.real offset.abs).position :=
    offsets.abs
  rw [Value.le_number, Value.le_number, Number.le, Number.le, places, tolerances.position_eq]
  exact .given rfl

theorem SameEnds.nearlySameLength (ends : arc.SameEnds twin)
    (otherEnds : other.SameEnds otherTwin) (tolerances : tolerance.SameMargin twinTolerance) :
    Alike Eq (arc.nearlySameLength other (.number tolerance))
      (twin.nearlySameLength otherTwin (.number twinTolerance)) := by
  have limit := halfTurnUnits_le_exactLimit
  refine ends.length_within.bind fun ⟨count, lengthAt, twinLengthAt, within⟩ => ?_
  refine otherEnds.length_within.bind fun ⟨otherCount, otherAt, otherTwinAt, otherWithin⟩ => ?_
  obtain ⟨difference, differs, differenceAt⟩ :=
    Number.sub_of_position lengthAt otherAt (by omega) (by omega) (by omega)
  obtain ⟨twinDifference, twinDiffers, twinDifferenceAt⟩ :=
    Number.sub_of_position twinLengthAt otherTwinAt (by omega) (by omega) (by omega)
  rw [differs, twinDiffers, ok_bind, ok_bind, Value.twice_number, Value.twice_number, ok_bind,
    ok_bind, Value.le_number, Value.le_number, Number.le, Number.le,
    Number.position_abs differenceAt, Number.position_abs twinDifferenceAt,
    tolerances.twice.position_eq]
  exact .given rfl

theorem SameEnds.approxEquals (ends : arc.SameEnds twin) (otherEnds : other.SameEnds otherTwin)
    (tolerances : tolerance.SameMargin twinTolerance) :
    Alike Eq (arc.approxEquals other (.number tolerance))
      (twin.approxEquals otherTwin (.number twinTolerance)) := by
  unfold Arc.approxEquals
  rw [ends.isEmpty, otherEnds.isEmpty, ends.isFull, otherEnds.isFull]
  refine .ite (fun _ => otherEnds.isNearlyEmpty tolerances) fun _ => ?_
  refine .ite (fun _ => ends.isNearlyEmpty tolerances) fun _ => ?_
  refine .ite (fun _ => otherEnds.isNearlyFull tolerances) fun _ => ?_
  refine .ite (fun _ => ends.isNearlyFull tolerances) fun _ => ?_
  refine (nearlySameAngle_alike ends.lo otherEnds.lo tolerances).bind fun agree => agree ▸ ?_
  refine .ite (fun _ => .given rfl) fun _ => ?_
  refine (nearlySameAngle_alike ends.hi otherEnds.hi tolerances).bind fun agree => agree ▸ ?_
  exact .ite (fun _ => .given rfl) fun _ => ends.nearlySameLength otherEnds tolerances

/-!
## All operations
-/

theorem Valid.sameEnds (valid : arc.Valid) (equal : arc.same twin = true)
    (notTruth : arc.lo.kind ≠ .truth ∧ arc.hi.kind ≠ .truth)
    (twinNotTruth : twin.lo.kind ≠ .truth ∧ twin.hi.kind ≠ .truth) : arc.SameEnds twin := by
  have agrees {value other : Value} (isAngle : value.IsAngle) (agree : value.agrees other = true) :
      other.position = value.position := by
    obtain ⟨number, rfl⟩ := isAngle.eq_number
    cases other with
    | number otherNumber =>
      rw [Value.agrees_number, Number.agrees_iff] at agree
      exact agree.symm
    | null | text | list => simp [Value.agrees] at agree
  rw [Arc.same, Bool.and_eq_true] at equal
  exact ⟨⟨valid.lo_isAngle, agrees valid.lo_isAngle equal.1, notTruth.1, twinNotTruth.1⟩,
    ⟨valid.hi_isAngle, agrees valid.hi_isAngle equal.2, notTruth.2, twinNotTruth.2⟩⟩

/-- Every operation fails in both runs or gives the same answer, an equal number or an equal arc in
both. -/
structure SameResults (arc twin other otherTwin : Arc) (point twinPoint : Value)
    (margin twinMargin tolerance twinTolerance : Number) : Prop where
  isValid : arc.isValid = twin.isValid
  isFull : arc.isFull = twin.isFull
  isEmpty : arc.isEmpty = twin.isEmpty
  isInverted : arc.isInverted = twin.isInverted
  same : arc.same other = twin.same otherTwin
  holds : arc.holds point = twin.holds twinPoint
  containsPoint : arc.containsPoint point = twin.containsPoint twinPoint
  interiorContainsPoint : arc.interiorContainsPoint point = twin.interiorContainsPoint twinPoint
  contains : arc.contains other = twin.contains otherTwin
  interiorContains : arc.interiorContains other = twin.interiorContains otherTwin
  intersects : arc.intersects other = twin.intersects otherTwin
  interiorIntersects : arc.interiorIntersects other = twin.interiorIntersects otherTwin
  approxEquals : Alike Eq (arc.approxEquals other (.number tolerance))
    (twin.approxEquals otherTwin (.number twinTolerance))
  length : Alike (fun number twin => number.same twin = true) arc.length twin.length
  center : Alike (fun number twin => number.same twin = true) arc.center twin.center
  complementCenter : Alike (fun number twin => number.same twin = true)
    arc.complementCenter twin.complementCenter
  directedDistance : Alike (fun number twin => number.same twin = true)
    (arc.directedDistance other) (twin.directedDistance otherTwin)
  project : Alike (fun value twin => value.same twin = true)
    (arc.project point) (twin.project twinPoint)
  complement : arc.complement.same twin.complement = true
  union : Alike (fun cover twin => cover.same twin = true)
    (arc.union other) (twin.union otherTwin)
  intersection : Alike (fun cover twin => cover.same twin = true)
    (arc.intersection other) (twin.intersection otherTwin)
  addPoint : Alike (fun grown twin => grown.same twin = true)
    (arc.addPoint point) (twin.addPoint twinPoint)
  expanded : Alike (fun changed twin => changed.same twin = true)
    (arc.expanded margin) (twin.expanded twinMargin)

/-- Equal ends, points, margins and tolerances lead to equal results, be they integers or
floating-point numbers. -/
theorem SameEnds.sameResults (ends : arc.SameEnds twin) (otherEnds : other.SameEnds otherTwin)
    {point twinPoint : Value} (points : point.SameAngle twinPoint)
    {margin twinMargin : Number} (margins : margin.SameMargin twinMargin)
    (tolerances : tolerance.SameMargin twinTolerance) :
    SameResults arc twin other otherTwin point twinPoint margin twinMargin tolerance
      twinTolerance where
  isValid := ends.isValid
  isFull := ends.isFull
  isEmpty := ends.isEmpty
  isInverted := ends.isInverted
  same := ends.same otherEnds
  holds := ends.holds points
  containsPoint := ends.containsPoint points
  interiorContainsPoint := ends.interiorContainsPoint points
  contains := ends.contains otherEnds
  interiorContains := ends.interiorContains otherEnds
  intersects := ends.intersects otherEnds
  interiorIntersects := ends.interiorIntersects otherEnds
  approxEquals := ends.approxEquals otherEnds tolerances
  length := ends.length.mono Number.SamePlace.same
  center := ends.center.mono Number.SamePlace.same
  complementCenter := by
    obtain ⟨center, twinCenter, centerIs, twinIs, angles⟩ := ends.complementCenter
    rw [centerIs, twinIs]
    exact .given angles.same
  directedDistance := (ends.directedDistance otherEnds).mono Number.SamePlace.same
  project := (ends.project points).mono Value.SameAngle.same
  complement := ends.complement.same_eq_true
  union := (ends.union otherEnds).mono SameEnds.same_eq_true
  intersection := (ends.intersection otherEnds).mono SameEnds.same_eq_true
  addPoint := (ends.addPoint points).mono SameEnds.same_eq_true
  expanded := (ends.expanded margins).mono SameEnds.same_eq_true

/-- From the integer zero, or from minus zero, to half a turn, with an integer margin, or the
floating-point number of its value. -/
theorem sameResults_of_zeros :
    (Arc.mk (.number (.integer 0)) (.number halfTurn)).SameEnds
        ⟨.number (.real (.zero true)), .number halfTurn⟩ ∧
      full.SameEnds full ∧
      (Value.number (.integer 0)).SameAngle (.number (.real (.zero true))) ∧
      (Number.integer 1).SameMargin (.real (.ofInt 1)) ∧
      (Number.integer 0).SameMargin (.real (.zero false)) ∧
      SameResults ⟨.number (.integer 0), .number halfTurn⟩
        ⟨.number (.real (.zero true)), .number halfTurn⟩ full full (.number (.integer 0))
        (.number (.real (.zero true))) (.integer 1) (.real (.ofInt 1)) (.integer 0)
        (.real (.zero false)) := by
  have zeroAt := Number.integer_zero_position
  have zeros : (Value.number (.integer 0)).SameAngle (.number (.real (.zero true))) :=
    ⟨⟨0, zeroAt, Nat.zero_le _⟩, zeroAt.symm, nofun, nofun⟩
  have valid : (Arc.mk (.number (.integer 0)) (.number halfTurn)).Valid := by decide +kernel
  have ends := @Valid.sameEnds _ ⟨.number (.real (.zero true)), .number halfTurn⟩ valid
    (by decide +kernel) ⟨nofun, nofun⟩ ⟨nofun, nofun⟩
  have margins : (Number.integer 1).SameMargin (.real (.ofInt 1)) :=
    ⟨Binary64.position_ofInt (by decide), fun _ isOnes => by cases isOnes; decide, nofun⟩
  have tolerances : (Number.integer 0).SameMargin (.real (.zero false)) :=
    ⟨zeroAt.symm, fun _ isOnes => by cases isOnes; decide, nofun⟩
  exact ⟨ends, .full, zeros, margins, tolerances,
    ends.sameResults .full zeros margins tolerances⟩

end Arc

end CircularArc
