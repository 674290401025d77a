import CircularArc.Fault

/-!
# Arithmetic on numbers

Sums and differences of integers are exact. As soon as one operand is a floating-point number the
other is converted to the nearest one, which fails for an integer beyond the range, and the result
is rounded.
-/

set_option autoImplicit false

namespace CircularArc

namespace Number

def toBinary64 : Number → Except Fault Binary64
  | .truth value => .ok (Binary64.ofInt (if value then 1 else 0))
  | .integer value =>
    let nearest := Binary64.ofInt value
    if nearest.isFinite then .ok nearest else .error .integerTooLarge
  | .real value => .ok value

/-- Combine two integers exactly, or two numbers of other kinds as floating-point numbers. -/
def combine (exact : Int → Int → Int) (rounded : Binary64 → Binary64 → Binary64)
    (left right : Number) : Except Fault Number :=
  match left.asInteger?, right.asInteger? with
  | some leftValue, some rightValue => .ok (.integer (exact leftValue rightValue))
  | _, _ => do
    let leftReal ← left.toBinary64
    let rightReal ← right.toBinary64
    return .real (rounded leftReal rightReal)

def add (left right : Number) : Except Fault Number := combine (· + ·) Binary64.add left right

def sub (left right : Number) : Except Fault Number := combine (· - ·) Binary64.sub left right

def twice : Number → Number
  | .truth value => .integer (if value then 2 else 0)
  | .integer value => .integer (2 * value)
  | .real value => .real value.twice

def half (number : Number) : Except Fault Number := do
  let nearest ← number.toBinary64
  return .real nearest.half

@[simp] theorem toBinary64_real (value : Binary64) : (real value).toBinary64 = .ok value := rfl

@[simp] theorem add_real (left right : Binary64) :
    (real left).add (.real right) = .ok (.real (left.add right)) := rfl

@[simp] theorem sub_real (left right : Binary64) :
    (real left).sub (.real right) = .ok (.real (left.sub right)) := rfl

end Number

end CircularArc
