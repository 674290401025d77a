import CircularArc.Binary64

/-!
# Numbers and their order

A coordinate is an exact integer, a floating-point number, or a truth value standing for 0 or 1.
Numbers of all three kinds are compared by their exact `Position` on the extended line, so an
integer of any size is compared with a floating-point number without rounding either. Nothing is
comparable with the undefined position, not even itself.
-/

set_option autoImplicit false

namespace CircularArc

/-- A place on the extended line, counted in units of `2 ^ -1074`, or no place at all. -/
inductive Position where
  | undefined
  | belowAll
  | units (count : Int)
  | aboveAll
deriving DecidableEq

namespace Position

def le : Position → Position → Bool
  | .undefined, _ => false
  | _, .undefined => false
  | .belowAll, _ => true
  | _, .aboveAll => true
  | .units left, .units right => left ≤ right
  | _, _ => false

def lt (left right : Position) : Bool := left.le right && !right.le left

def same (left right : Position) : Bool := left.le right && right.le left

@[simp] theorem le_units (left right : Int) : (units left).le (units right) = decide (left ≤ right) :=
  rfl

theorem units_le_units {left right : Int} (order : left ≤ right) :
    (units left).le (units right) = true := decide_eq_true order

@[simp] theorem lt_units (left right : Int) :
    (units left).lt (units right) = decide (left < right) := by
  by_cases order : left < right
  · simp [lt, order, Int.le_of_lt order]
  · simp [lt, order]
    omega

@[simp] theorem same_units (left right : Int) :
    (units left).same (units right) = decide (left = right) := by
  rw [Bool.eq_iff_iff]
  simp [same]
  omega

theorem same_iff (left right : Position) :
    left.same right = true ↔ left = right ∧ left ≠ .undefined := by
  cases left <;> cases right <;> simp [same, le]
  omega

theorem le_total {left right : Position} (leftDefined : left ≠ .undefined)
    (rightDefined : right ≠ .undefined) : left.le right = true ∨ right.le left = true := by
  cases left <;> cases right <;> simp_all [le]
  omega

theorem le_trans {left middle right : Position} (first : left.le middle = true)
    (second : middle.le right = true) : left.le right = true := by
  cases left <;> cases middle <;> cases right <;> simp_all [le]
  omega

end Position

/-- Where a floating-point number stands. Both zeros stand at the same place. -/
def Binary64.position : Binary64 → Position
  | .nan => .undefined
  | .infinite negative => if negative then .belowAll else .aboveAll
  | .finite negative units _ => .units (signedUnits negative units)

def roundedUnits (total : Int) : Int :=
  Binary64.signedUnits (total < 0) (nearestMagnitude total.natAbs)

theorem Binary64.position_ofUnits (zeroNegative : Bool) {total : Int}
    (bounded : nearestMagnitude total.natAbs < magnitudeLimit) :
    (ofUnits zeroNegative total).position = .units (roundedUnits total) := by
  unfold ofUnits roundedUnits
  by_cases isZero : total = 0
  · subst isZero
    simp [zero, position, signedUnits, nearestMagnitude, nearestQuotient, spacing]
  · simp only [isZero, ↓reduceIte, bounded, ↓reduceDIte, position]

/-- A coordinate as it is given and kept: a truth value, an exact integer or a floating-point
number. -/
inductive Number where
  | truth (value : Bool)
  | integer (value : Int)
  | real (value : Binary64)
deriving DecidableEq

namespace Number

instance : Coe Binary64 Number := ⟨.real⟩

def asInteger? : Number → Option Int
  | .truth value => some (if value then 1 else 0)
  | .integer value => some value
  | .real _ => none

def position : Number → Position
  | .truth value => .units ((if value then 1 else 0) * Binary64.unitsPerOne)
  | .integer value => .units (value * Binary64.unitsPerOne)
  | .real value => value.position

def le (left right : Number) : Bool := left.position.le right.position

def lt (left right : Number) : Bool := left.position.lt right.position

def same (left right : Number) : Bool := left.position.same right.position

def agrees (left right : Number) : Bool := left.position = right.position

def abs : Number → Number
  | .truth value => .integer (if value then 1 else 0)
  | .integer value => .integer value.natAbs
  | .real value => .real value.abs

theorem position_real {number : Binary64} {place : Position} (stands : number.position = place) :
    (real number).position = place := stands

theorem le_of_position {left right : Number} {leftCount rightCount : Int}
    (leftAt : left.position = .units leftCount) (rightAt : right.position = .units rightCount) :
    left.le right = decide (leftCount ≤ rightCount) := by
  rw [le, leftAt, rightAt, Position.le_units]

theorem lt_of_position {left right : Number} {leftCount rightCount : Int}
    (leftAt : left.position = .units leftCount) (rightAt : right.position = .units rightCount) :
    left.lt right = decide (leftCount < rightCount) := by
  rw [lt, leftAt, rightAt, Position.lt_units]

theorem same_of_position {left right : Number} {leftCount rightCount : Int}
    (leftAt : left.position = .units leftCount) (rightAt : right.position = .units rightCount) :
    left.same right = decide (leftCount = rightCount) := by
  rw [same, leftAt, rightAt, Position.same_units]

theorem same_iff (left right : Number) :
    left.same right = true ↔ left.position = right.position ∧ left.position ≠ .undefined :=
  Position.same_iff left.position right.position

@[simp] theorem agrees_iff (left right : Number) :
    left.agrees right = true ↔ left.position = right.position := by
  simp [agrees]

end Number

end CircularArc
