import CircularArc.Fault

/-!
# Equality and order of values

Any two values can be tested for equality, but only some kinds have an order: numbers by position,
text by code points, and lists by their first items that differ. `Value.same` is false of the
undefined number and itself, `Value.agrees` is true of every value and itself. `andM` and `orM` join
tests that can fail.
-/

set_option autoImplicit false

namespace CircularArc

theorem andM_ok (left right : Bool) :
    (Except.ok left <&&> (Except.ok right : Except Fault Bool)) = .ok (left && right) := by
  cases left <;> rfl

theorem orM_ok (left right : Bool) :
    (Except.ok left <||> (Except.ok right : Except Fault Bool)) = .ok (left || right) := by
  cases left <;> rfl

theorem ok_bind {α β : Type} (result : α) (next : α → Except Fault β) :
    (Except.ok result >>= next) = next result := rfl

theorem pure_eq_ok {α : Type} (result : α) : (pure result : Except Fault α) = .ok result := rfl

namespace Value

mutual

/-- Whether two values agree: numbers by position, an undefined number with itself, other values by
kind and content. -/
def agrees : Value → Value → Bool
  | .null, .null => true
  | .number left, .number right => left.agrees right
  | .text left, .text right => left = right
  | .list left, .list right => agreeAll left right
  | _, _ => false

def agreeAll : List Value → List Value → Bool
  | [], [] => true
  | left :: lefts, right :: rights => left.agrees right && agreeAll lefts rights
  | _, _ => false

end

def same : Value → Value → Bool
  | .number left, .number right => left.same right
  | left, right => left.agrees right

@[simp] theorem agrees_number (left right : Number) :
    (number left).agrees (.number right) = left.agrees right := by
  simp only [agrees]

@[simp] theorem same_number (left right : Number) :
    (number left).same (.number right) = left.same right := rfl

mutual

theorem agrees_refl : (value : Value) → value.agrees value = true
  | .null | .number _ | .text _ => by simp [agrees]
  | .list items => by simp [agrees, agreeAll_refl items]

private theorem agreeAll_refl : (items : List Value) → agreeAll items items = true
  | [] => by simp [agreeAll]
  | item :: rest => by simp [agreeAll, agrees_refl item, agreeAll_refl rest]

end

end Value

def textOrder (left right : String) : Ordering :=
  if left < right then .lt else if left = right then .eq else .gt

def Number.relates (relation : Relation) (left right : Number) : Bool :=
  match relation with
  | .lt => left.lt right
  | .le => left.le right
  | .gt => right.lt left
  | .ge => right.le left

namespace Value

mutual

/-- Whether a relation holds between two values. Values of different kinds, and null values, have no
order. -/
def relates (relation : Relation) : Value → Value → Except Fault Bool
  | .number left, .number right => .ok (left.relates relation right)
  | .text left, .text right => .ok (relation.admits (textOrder left right))
  | .list left, .list right => relatesAll relation left right
  | left, right => .error (.notComparable relation left.kind right.kind)

/-- Whether a relation holds between two lists: between the first items that do not agree, or
between the lengths if there are none. -/
def relatesAll (relation : Relation) : List Value → List Value → Except Fault Bool
  | left :: lefts, right :: rights =>
    if left.agrees right then relatesAll relation lefts rights else left.relates relation right
  | [], [] => .ok (relation.admits .eq)
  | [], _ :: _ => .ok (relation.admits .lt)
  | _ :: _, [] => .ok (relation.admits .gt)

end

def lt (left right : Value) : Except Fault Bool := left.relates .lt right

def le (left right : Value) : Except Fault Bool := left.relates .le right

def gt (left right : Value) : Except Fault Bool := left.relates .gt right

def ge (left right : Value) : Except Fault Bool := left.relates .ge right

theorem relates_number (relation : Relation) (left right : Number) :
    (number left).relates relation (.number right) = .ok (left.relates relation right) := by
  simp only [relates]

@[simp] theorem lt_number (left right : Number) :
    (number left).lt (.number right) = .ok (left.lt right) := relates_number .lt left right

@[simp] theorem le_number (left right : Number) :
    (number left).le (.number right) = .ok (left.le right) := relates_number .le left right

@[simp] theorem gt_number (left right : Number) :
    (number left).gt (.number right) = .ok (right.lt left) := relates_number .gt left right

@[simp] theorem ge_number (left right : Number) :
    (number left).ge (.number right) = .ok (right.le left) := relates_number .ge left right

end Value

end CircularArc
