import CircularArc.Arc
import Mathlib.Algebra.Order.Field.Rat
import Mathlib.Order.Bounds.Defs
import Mathlib.Order.Interval.Set.Defs

/-!
# The points of an arc

The circle is the range of rational angles above minus half a turn, up to half a turn. `Arc.points`
and `Arc.interiorPoints` are the exact point sets that an arc and its interior stand for,
`Arc.exactLength` is the exact length, and `IsDirectedDistance` the exact directed distance of two
point sets. Nothing here rounds.
-/

set_option autoImplicit false

namespace CircularArc

def unitsValue (count : Int) : ℚ := count / 2 ^ 1074

/-- The exact value of a finite number; zero for any other value. -/
def Value.exactValue (value : Value) : ℚ :=
  match value.position with
  | .units count => unitsValue count
  | _ => 0

def halfCircle : ℚ := unitsValue halfTurnUnits

def circle : Set ℚ := Set.Ioc (-halfCircle) halfCircle

/-- The counterclockwise distance from one point to another. -/
def forwardGap (source target : ℚ) : ℚ :=
  if source ≤ target then target - source else target - source + 2 * halfCircle

def circularDistance (left right : ℚ) : ℚ := min (forwardGap left right) (forwardGap right left)

def IsDistanceTo (points : Set ℚ) (point distance : ℚ) : Prop :=
  IsLeast {candidate | ∃ other ∈ points, candidate = circularDistance point other} distance

/-- The largest distance from a point of the first set to the second set: nothing if the first set
is empty, and half a turn if only the second is. -/
def IsDirectedDistance (first second : Set ℚ) (distance : ℚ) : Prop :=
  (first = ∅ ∧ distance = 0) ∨
    (first ≠ ∅ ∧ second = ∅ ∧ distance = halfCircle) ∨
    (first ≠ ∅ ∧ second ≠ ∅ ∧
      IsLUB {candidate | ∃ point ∈ first, IsDistanceTo second point candidate} distance)

namespace Arc

def points (arc : Arc) : Set ℚ :=
  {point | point ∈ circle ∧
    if arc.lo.exactValue ≤ arc.hi.exactValue then
      arc.lo.exactValue ≤ point ∧ point ≤ arc.hi.exactValue
    else
      ¬ (arc.lo.exactValue = halfCircle ∧ arc.hi.exactValue = -halfCircle) ∧
        (arc.lo.exactValue ≤ point ∨ point ≤ arc.hi.exactValue)}

/-- The interior points of an arc on the circle. The full circle has no boundary. -/
def interiorPoints (arc : Arc) : Set ℚ :=
  {point | point ∈ circle ∧
    if arc.lo.exactValue ≤ arc.hi.exactValue then
      (arc.lo.exactValue = -halfCircle ∧ arc.hi.exactValue = halfCircle) ∨
        (arc.lo.exactValue < point ∧ point < arc.hi.exactValue)
    else
      arc.lo.exactValue < point ∨ point < arc.hi.exactValue}

def exactLength (arc : Arc) : ℚ := forwardGap arc.lo.exactValue arc.hi.exactValue

end Arc

end CircularArc
