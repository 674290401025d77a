import CircularArc.Arc.Containment

/-!
# Union and intersection

Both operations give the smallest arc that covers the result: a union bridges the smaller of the two
gaps between disjoint arcs, and an intersection in two pieces is covered by the shorter of the two
arcs. `Overlap` is what an intersection finds before it is turned into an arc.
-/

set_option autoImplicit false

namespace CircularArc

namespace Arc

/-- The smallest arc that contains both. Of two equally large gaps between disjoint arcs, the one
after the first arc is bridged. -/
def union (arc other : Arc) : Except Fault Arc := do
  if other.isEmpty then
    return arc
  else if ← arc.holds other.lo then
    if ← arc.holds other.hi then
      return if ← arc.contains other then arc else full
    else
      return ⟨arc.lo, other.hi⟩
  else if ← arc.holds other.hi then
    return ⟨other.lo, arc.hi⟩
  else if ← pure arc.isEmpty <||> other.holds arc.lo then
    return other
  else
    let gapBefore ← other.hi.forwardDistance arc.lo
    let gapAfter ← arc.hi.forwardDistance other.lo
    return if gapBefore.lt gapAfter then ⟨other.lo, arc.hi⟩ else ⟨arc.lo, other.hi⟩

end Arc

inductive Overlap where
  | emptyOperand
  | disjoint
  | cover (arc : Arc)
deriving DecidableEq

def Overlap.toArc : Overlap → Arc
  | .emptyOperand => .empty
  | .disjoint => .empty
  | .cover arc => arc

namespace Arc

/-- What two arcs have in common. Where the first contains both ends of the second, the shorter arc
covers the common points, and the first of two equally long ones. -/
def overlap (arc other : Arc) : Except Fault Overlap := do
  if other.isEmpty then
    return .emptyOperand
  else if ← arc.holds other.lo then
    if ← arc.holds other.hi then
      let otherLength ← other.length
      let arcLength ← arc.length
      return .cover (if otherLength.lt arcLength then other else arc)
    else
      return .cover ⟨other.lo, arc.hi⟩
  else if ← arc.holds other.hi then
    return .cover ⟨arc.lo, other.hi⟩
  else if ← other.holds arc.lo then
    return .cover arc
  else
    return .disjoint

def intersection (arc other : Arc) : Except Fault Arc := do
  return (← arc.overlap other).toArc

end Arc

end CircularArc
