import CircularArc.Angle
import CircularArc.Value.Text

/-!
# Arcs

A closed arc runs counterclockwise from its lower end to its upper end. Its shape follows from the
ends alone: where the lower end exceeds the upper one the arc passes the point at half a turn, and
the two pairs made of both directions of half a turn stand for the full circle and for no point at
all. Ends are kept as they are given, be they numbers or not; `Arc.isValid` tells which pairs are
meaningful. What has to compare or combine ends that are not numbers fails.
-/

set_option autoImplicit false

namespace CircularArc

/-- A closed arc of the circle, counterclockwise from `lo` to `hi`. -/
structure Arc where
  lo : Value
  hi : Value
deriving DecidableEq

namespace Arc

def empty : Arc := ⟨.number halfTurn, .number minusHalfTurn⟩

def full : Arc := ⟨.number minusHalfTurn, .number halfTurn⟩

/-- Ends that make a meaningful arc: at most half a turn each, minus half a turn only in the full
and in the empty arc. Undefined ends pass, since no comparison refuses them. -/
def isValidPair (lo hi : Value) : Except Fault Bool := do
  if ← lo.exceedsHalfTurn <||> hi.exceedsHalfTurn then
    return false
  else
    return !(lo.same minusHalfTurn && !hi.same halfTurn)
      && !(hi.same minusHalfTurn && !lo.same halfTurn)

def isValid (arc : Arc) : Except Fault Bool := isValidPair arc.lo arc.hi

def isFull (arc : Arc) : Bool := arc.lo.same minusHalfTurn && arc.hi.same halfTurn

def isEmpty (arc : Arc) : Bool := arc.lo.same halfTurn && arc.hi.same minusHalfTurn

/-- The lower end exceeds the upper one: the arc is empty or passes half a turn. -/
def isInverted (arc : Arc) : Except Fault Bool := arc.lo.gt arc.hi

/-- Arcs with ends that agree, numbers by position. Every arc is the same as itself, even if an end
is undefined. -/
def same (left right : Arc) : Bool := left.lo.agrees right.lo && left.hi.agrees right.hi

theorem same_refl (arc : Arc) : arc.same arc = true := by
  simp [same, Value.agrees_refl]

def text (arc : Arc) : String := "[" ++ arc.lo.toText ++ ", " ++ arc.hi.toText ++ "]"

/-- The end with index 0 or 1, counted from the back for -1 and -2. -/
def endAt (arc : Arc) (index : Value) : Except Fault Value :=
  match index with
  | .number content =>
    match content.asInteger? with
    | none => .error (.notAnIndex content.kind)
    | some position =>
      if position < -9223372036854775808 || 9223372036854775807 < position then
        .error .indexTooLarge
      else if position = 0 || position = -2 then .ok arc.lo
      else if position = 1 || position = -1 then .ok arc.hi
      else .error .indexOutOfRange
  | other => .error (.notAnIndex other.kind)

/-- The length of the arc: the difference of its ends, plus a full turn when that is negative. The
empty arc, whose ends then cancel, has length -1. -/
def length (arc : Arc) : Except Fault Number := do
  let difference ← arc.hi.sub arc.lo
  if Number.le (.integer 0) difference then
    return difference
  else
    let completed ← difference.add fullTurn
    if Number.lt (.integer 0) completed then
      return completed
    else
      return .real (Binary64.ofInt (-1))

/-- The middle of the arc: half the sum of its ends, or the opposite point when the arc is
inverted. -/
def center (arc : Arc) : Except Fault Number := do
  let middle ← arc.lo.halfSum arc.hi
  if ← arc.isInverted then middle.antipode else return middle

/-- The arc between the same ends on the other side. A single point leaves the full circle. -/
def complement (arc : Arc) : Arc :=
  if arc.lo.same arc.hi then full else ⟨arc.hi, arc.lo⟩

def complementCenter (arc : Arc) : Except Fault Number :=
  if arc.lo.same arc.hi then arc.hi.antipode else arc.complement.center

end Arc

end CircularArc
