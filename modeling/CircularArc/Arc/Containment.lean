import CircularArc.Arc

/-!
# Containment and intersection

Tests between an arc and a point or another arc, with the ends of the first arc or, for the interior
tests, without them. The full circle has every point in its interior. All tests compare ends only;
none of them rounds, and they fail only where ends that have no order are compared.
-/

set_option autoImplicit false

namespace CircularArc

/-- The point that a value names, in canonical form and as a floating-point number. Truth values are
refused. -/
def Value.point : Value → Except Fault Number
  | .number (.truth _) => .error (.notAPoint .truth)
  | .number content => do
    let angle ← Value.angle (.number content) "p"
    let nearest ← angle.toBinary64
    return Number.canonical nearest
  | other => .error (.notAPoint other.kind)

namespace Arc

def holds (arc : Arc) (point : Value) : Except Fault Bool := do
  if ← arc.isInverted then
    (point.ge arc.lo <||> point.le arc.hi) <&&> pure !arc.isEmpty
  else
    arc.lo.le point <&&> point.le arc.hi

def interiorHolds (arc : Arc) (point : Value) : Except Fault Bool := do
  if ← arc.isInverted then
    point.gt arc.lo <||> point.lt arc.hi
  else
    (arc.lo.lt point <&&> point.lt arc.hi) <||> pure arc.isFull

def containsPoint (arc : Arc) (value : Value) : Except Fault Bool := do
  arc.holds (← value.point)

def interiorContainsPoint (arc : Arc) (value : Value) : Except Fault Bool := do
  arc.interiorHolds (← value.point)

def contains (arc other : Arc) : Except Fault Bool := do
  if ← arc.isInverted then
    if ← other.isInverted then
      other.lo.ge arc.lo <&&> other.hi.le arc.hi
    else
      (other.lo.ge arc.lo <||> other.hi.le arc.hi) <&&> pure !arc.isEmpty
  else if ← other.isInverted then
    return arc.isFull || other.isEmpty
  else
    other.lo.ge arc.lo <&&> other.hi.le arc.hi

def interiorContains (arc other : Arc) : Except Fault Bool := do
  if ← arc.isInverted then
    if ← other.isInverted then
      (other.lo.gt arc.lo <&&> other.hi.lt arc.hi) <||> pure other.isEmpty
    else
      other.lo.gt arc.lo <||> other.hi.lt arc.hi
  else if ← other.isInverted then
    return arc.isFull || other.isEmpty
  else
    (other.lo.gt arc.lo <&&> other.hi.lt arc.hi) <||> pure arc.isFull

/-- Whether two arcs have a point in common. Two inverted arcs share the point at half a turn. -/
def intersects (arc other : Arc) : Except Fault Bool := do
  if arc.isEmpty || other.isEmpty then
    return false
  else if ← arc.isInverted then
    other.isInverted <||> other.lo.le arc.hi <||> other.hi.ge arc.lo
  else if ← other.isInverted then
    other.lo.le arc.hi <||> other.hi.ge arc.lo
  else
    other.lo.le arc.hi <&&> other.hi.ge arc.lo

def interiorIntersects (arc other : Arc) : Except Fault Bool := do
  if arc.isEmpty || other.isEmpty || arc.lo.same arc.hi then
    return false
  else if ← arc.isInverted then
    other.isInverted <||> other.lo.lt arc.hi <||> other.hi.gt arc.lo
  else if ← other.isInverted then
    other.lo.lt arc.hi <||> other.hi.gt arc.lo
  else
    (other.lo.lt arc.hi <&&> other.hi.gt arc.lo) <||> pure arc.isFull

end Arc

end CircularArc
