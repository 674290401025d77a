import CircularArc.Arc

/-!
# Building arcs

`Arc.checked` takes values of any kind, refuses those that are no ends, turns the others into
floating-point ends in canonical form and looks at the pair once more. `Arc.point` and
`Arc.shortest` build arcs from points and keep the numbers they are given.
-/

set_option autoImplicit false

namespace CircularArc

/-- The floating-point end that a value is, or the first defect it has. Truth values are refused. -/
def checkedEnd : Value → Except EndDefect Binary64
  | .number (.truth _) => .error (.notReal .truth)
  | .number content =>
    match content.toBinary64 with
    | .error _ => .error .integerTooLarge
    | .ok nearest =>
      if !nearest.isFinite then .error .notFinite
      else if Number.lt halfTurn nearest then .error .aboveHalfTurn
      else if Number.lt nearest minusHalfTurn then .error .belowHalfTurn
      else .ok nearest
  | other => .error (.notReal other.kind)

def endDefects (side : End) : Except EndDefect Binary64 → List (Option End × EndDefect)
  | .ok _ => []
  | .error defect => [(some side, defect)]

namespace Arc

/-- The arc between two ends, minus half a turn written as half a turn except where the pair stands
for the full or the empty arc. -/
def canonical (lo hi : Number) : Arc where
  lo := .number (if lo.same minusHalfTurn && !hi.same halfTurn then halfTurn else lo)
  hi := .number (if hi.same minusHalfTurn && !lo.same halfTurn then halfTurn else hi)

def validated (arc : Arc) : Except Fault Arc := do
  if ← arc.isValid then return arc
  else .error (.rejectedEnds [(none, .meaninglessPair arc.lo arc.hi)])

/-- The arc between two checked ends, or the defects of both. -/
def checked (lo hi : Value) : Except Fault Arc :=
  match checkedEnd lo, checkedEnd hi with
  | .ok lower, .ok upper => (canonical lower upper).validated
  | lower, upper => .error (.rejectedEnds (endDefects .lo lower ++ endDefects .hi upper))

def point (value : Value) : Except Fault Arc := do
  let angle ← value.angle "p"
  return ⟨.number angle.canonical, .number angle.canonical⟩

/-- The shorter of the two arcs between two points; of two equally long ones, the one that starts at
the first point. -/
def shortest (first second : Value) : Except Fault Arc := do
  let firstAngle ← first.angle "p1"
  let secondAngle ← second.angle "p2"
  let distance ← firstAngle.canonical.forwardDistance secondAngle.canonical
  if distance.le halfTurn then
    return ⟨.number firstAngle.canonical, .number secondAngle.canonical⟩
  else
    return ⟨.number secondAngle.canonical, .number firstAngle.canonical⟩

end Arc

end CircularArc
