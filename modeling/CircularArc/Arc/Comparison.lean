import CircularArc.Arc.Construction
import CircularArc.Arc.Containment

/-!
# Distance and approximate equality of arcs

`Arc.directedDistance` is the largest distance from a point of the first arc to the second arc.
`Arc.approxEquals` compares ends and lengths within a tolerance; the ends of the empty arc and of
the full circle could be anywhere, so there only lengths count.
-/

set_option autoImplicit false

namespace CircularArc

def Number.larger (first second : Number) : Number := if first.lt second then second else first

namespace Arc

/-- The distance between two upper or two lower ends, if the end of the first arc lies in the gap. -/
def endDistance (gap : Arc) (point source target : Value) : Except Fault Number := do
  if ← gap.containsPoint point then source.forwardDistance target
  else return .real (Binary64.zero false)

/-- The largest distance from a point of the first arc to the nearest point of the second. It is
attained at the middle of the second arc's complement, if the first arc contains that point, else
between two upper or two lower ends. -/
def directedDistance (arc other : Arc) : Except Fault Number := do
  if ← other.contains arc then
    return .real (Binary64.zero false)
  else if other.isEmpty then
    return halfTurn
  else
    let middle ← other.complementCenter
    if ← arc.holds middle then
      other.hi.forwardDistance middle
    else
      let gapAfter ← checked other.hi middle
      let upper ← gapAfter.endDistance arc.hi other.hi arc.hi
      let gapBefore ← checked middle other.lo
      let lower ← gapBefore.endDistance arc.lo arc.lo other.lo
      return upper.larger lower

def isNearlyEmpty (arc : Arc) (tolerance : Value) : Except Fault Bool := do
  let length ← arc.length
  let bound ← tolerance.twice
  Value.le length bound

def isNearlyFull (arc : Arc) (tolerance : Value) : Except Fault Bool := do
  let length ← arc.length
  let bound ← Value.sub halfTurn tolerance
  return bound.twice.le length

def nearlySameAngle (source target tolerance : Value) : Except Fault Bool := do
  let offset ← (← target.sub source).wrap
  Value.le offset.abs tolerance

def nearlySameLength (arc other : Arc) (tolerance : Value) : Except Fault Bool := do
  let arcLength ← arc.length
  let otherLength ← other.length
  let difference ← arcLength.sub otherLength
  let bound ← tolerance.twice
  Value.le difference.abs bound

/-- Equal ends do not suffice, since the arc on the other side has them too. -/
def approxEquals (arc other : Arc) (tolerance : Value) : Except Fault Bool := do
  if arc.isEmpty then other.isNearlyEmpty tolerance
  else if other.isEmpty then arc.isNearlyEmpty tolerance
  else if arc.isFull then other.isNearlyFull tolerance
  else if other.isFull then arc.isNearlyFull tolerance
  else if !(← nearlySameAngle arc.lo other.lo tolerance) then return false
  else if !(← nearlySameAngle arc.hi other.hi tolerance) then return false
  else arc.nearlySameLength other tolerance

end Arc

end CircularArc
