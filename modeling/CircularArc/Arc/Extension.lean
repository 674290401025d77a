import CircularArc.Arc.Construction
import CircularArc.Arc.Containment

/-!
# Growing and shrinking arcs

An arc grows by a single point, on the side where less is added, or by a margin at both ends. A
margin that makes the arc reach around the circle gives the full circle, and a negative margin that
leaves nothing gives the empty arc; both are decided from the length, before any end is moved.
-/

set_option autoImplicit false

namespace CircularArc

namespace Arc

/-- Whether a point outside the arc is nearer to the lower end, going forward from the point, than
to the upper end, going forward from the arc. -/
def isNearerLo (arc : Arc) (point : Value) : Except Fault Bool := do
  let toLo ← point.forwardDistance arc.lo
  let fromHi ← arc.hi.forwardDistance point
  return toLo.lt fromHi

end Arc

/-- A computation that assigns ends of an arc in place. What was assigned stays when it fails. -/
abbrev Update (α : Type) := ExceptT Fault (StateM Arc) α

namespace Update

def applyTo {α : Type} (update : Update α) (arc : Arc) : Except Fault α × Arc :=
  StateT.run (ExceptT.run update) arc

def setLo (value : Value) : Update Unit :=
  modify fun arc => { arc with lo := value }

def setHi (value : Value) : Update Unit :=
  modify fun arc => { arc with hi := value }

/-- Extend the arc to the smallest one that contains a canonical point as well. -/
def insert (point : Value) : Update Unit := do
  let arc ← get
  if ← arc.holds point then
    return ()
  else if arc.isEmpty then
    setLo point
    setHi point
  else if ← arc.isNearerLo point then
    setLo point
  else
    setHi point

def addPoint (value : Value) : Update Unit := do
  let angle ← value.angle "p"
  insert angle.canonical

end Update

namespace Arc

def addPoint (arc : Arc) (value : Value) : Except Fault Arc :=
  match (Update.addPoint value).applyTo arc with
  | (.ok _, grown) => .ok grown
  | (.error fault, _) => .error fault

def project (arc : Arc) (value : Value) : Except Fault Value := do
  if arc.isEmpty then
    .error .emptyProjection
  else
    let angle ← value.angle "p"
    let point := Value.number angle.canonical
    if ← arc.holds point then
      return point
    else
      return if ← arc.isNearerLo point then arc.lo else arc.hi

end Arc

inductive Expansion where
  | unchanged
  | saturated
  | collapsed
  | moved (arc : Arc)
deriving DecidableEq

def Expansion.toArc (arc : Arc) : Expansion → Arc
  | .unchanged => arc
  | .saturated => .full
  | .collapsed => .empty
  | .moved result => result

namespace Arc

/-- The arc with both ends moved outwards by a margin, each brought back within half a turn. A lower
end at minus half a turn is the point at half a turn. -/
def moveEnds (arc : Arc) (margin : Number) : Except Fault Arc := do
  let lower ← (← arc.lo.sub margin).wrap
  let upper ← (← arc.hi.add margin).wrap
  let moved ← checked (.number lower) (.number upper)
  return if ← moved.lo.le minusHalfTurn then ⟨.number halfTurn, moved.hi⟩ else moved

/-- What a margin does to an arc. The length after the change is compared with a full turn or with
nothing, with an allowance for the rounding of both ends. -/
def expansion (arc : Arc) (margin : Number) : Except Fault Expansion := do
  if Number.le (.integer 0) margin then
    if arc.isEmpty then
      return .unchanged
    else
      let grown ← (← (← arc.length).add margin.twice).add endAllowance
      if Number.le fullTurn grown then return .saturated
      else return .moved (← arc.moveEnds margin)
  else if arc.isFull then
    return .unchanged
  else
    let shrunk ← (← (← arc.length).add margin.twice).sub endAllowance
    if shrunk.le (.integer 0) then return .collapsed
    else return .moved (← arc.moveEnds margin)

def expanded (arc : Arc) (margin : Number) : Except Fault Arc := do
  return (← arc.expansion margin).toArc arc

end Arc

def Value.margin : Value → Except Fault Number
  | .number content => .ok content
  | other => .error (.notComparable .ge other.kind .integer)

end CircularArc
