import CircularArc.Value.Arithmetic

/-!
# Angles

A point of the circle is an angle of at most half a turn in either direction. Half a turn is the
floating-point number nearest to π, and the two directions of half a turn name one point, written
with the positive angle. Distances are measured counterclockwise.
-/

set_option autoImplicit false

namespace CircularArc

@[irreducible] def halfTurnUnits : Nat := 7074237752028440 * Nat.pow 2 1023

/-- The floating-point number nearest to π. -/
def halfTurn : Binary64 := .finite false halfTurnUnits (by decide +kernel)

def minusHalfTurn : Binary64 := halfTurn.neg

def fullTurnUnits : Nat := 2 * halfTurnUnits

def fullTurn : Binary64 := .finite false fullTurnUnits (by decide +kernel)

/-- The gap between one and the next larger floating-point number. -/
def epsilon : Binary64 := .finite false (Nat.pow 2 1022) (by decide +kernel)

/-- Twice `epsilon`: the allowance for the rounding of an arc's two ends. -/
def endAllowance : Binary64 := .finite false (Nat.pow 2 1023) (by decide +kernel)

/-- The tolerance of approximate comparison where none is given: the number nearest to 1e-15. -/
def defaultTolerance : Binary64 :=
  .finite false (5070602400912918 * Nat.pow 2 972) (by decide +kernel)

def Number.exceedsHalfTurn (angle : Number) : Bool := Number.lt halfTurn angle.abs

def Value.isFinite : Value → Except Fault Bool
  | .number content => return (← content.toBinary64).isFinite
  | other => .error (.notANumber other.kind)

def Value.isAngle (value : Value) : Except Fault Bool := do
  match value with
  | .number content => return (← value.isFinite) && content.abs.le halfTurn
  | other => .error (.notANumber other.kind)

/-- The angle that a value is, or why it is none; `name` is what the message calls it. -/
def Value.angle (value : Value) (name : String) : Except Fault Number := do
  match value with
  | .number content =>
    if !(← value.isFinite) then
      .error (.notFinite name content)
    else if content.exceedsHalfTurn then
      .error (.outOfRange name content)
    else
      return content
  | other => .error (.notANumber other.kind)

namespace Number

def canonical (angle : Number) : Number :=
  if angle.same minusHalfTurn then halfTurn else angle

def antipode (angle : Number) : Except Fault Number :=
  if angle.le (.integer 0) then angle.add halfTurn else angle.sub halfTurn

/-- The counterclockwise distance from one angle to another. Across half a turn each angle is
first moved by half a turn, so that a small distance keeps all its digits. -/
def forwardDistance (source target : Number) : Except Fault Number := do
  let difference ← target.sub source
  if Number.le (.integer 0) difference then
    return difference
  else
    let beyond ← target.add halfTurn
    let before ← source.sub halfTurn
    beyond.sub before

/-- The representative of an angle nearest to zero modulo a full turn; of two equally near ones the
one an even number of turns away. It is exact, and a zero keeps the sign of the angle. -/
def wrap (angle : Number) : Except Fault Binary64 := do
  match ← angle.toBinary64 with
  | .nan => return .nan
  | .infinite _ => .error .infiniteAngle
  | .finite negative units _ =>
    let turns := nearestQuotient units fullTurnUnits
    let rest : Int := units - turns * fullTurnUnits
    return Binary64.ofUnits negative (if negative then -rest else rest)

end Number

namespace Value

def wrap : Value → Except Fault Binary64
  | .number content => content.wrap
  | other => .error (.notANumber other.kind)

def canonical : Value → Value
  | .number content => .number content.canonical
  | other => other

def exceedsHalfTurn : Value → Except Fault Bool
  | .number content => .ok content.exceedsHalfTurn
  | other => .error (.noMagnitude other.kind)

def antipode : Value → Except Fault Number
  | .number content => content.antipode
  | other => .error (.notComparable .le other.kind .integer)

def forwardDistance : Value → Value → Except Fault Number
  | .number source, .number target => source.forwardDistance target
  | source, target => .error (.notCombinable .sub target.kind source.kind)

@[simp] theorem exceedsHalfTurn_number (content : Number) :
    (number content).exceedsHalfTurn = .ok content.exceedsHalfTurn := rfl

@[simp] theorem antipode_number (content : Number) :
    (number content).antipode = content.antipode := rfl

@[simp] theorem forwardDistance_number (source target : Number) :
    (number source).forwardDistance (.number target) = source.forwardDistance target := rfl

end Value

end CircularArc
