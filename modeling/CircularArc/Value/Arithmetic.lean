import CircularArc.Number.Arithmetic
import CircularArc.Value.Order

/-!
# Arithmetic on values

Numbers take part in all arithmetic. Other values are refused, each in the way of the operation,
except that text and lists can be doubled by repetition.
-/

set_option autoImplicit false

namespace CircularArc

namespace Value

def sub : Value → Value → Except Fault Number
  | .number left, .number right => left.sub right
  | left, right => .error (.notCombinable .sub left.kind right.kind)

def sumFault : Value → Value → Fault
  | .text _, right => .notJoinable .text right.kind
  | .list _, right => .notJoinable .list right.kind
  | left, right => .notCombinable .add left.kind right.kind

def add : Value → Number → Except Fault Number
  | .number left, right => left.add right
  | left, right => .error (left.sumFault right)

/-- Half the sum of two numbers. Two texts, or two lists, have a sum but no half. -/
def halfSum : Value → Value → Except Fault Number
  | .number left, .number right => do (← left.add right).half
  | .text _, .text _ => .error .fractionalRepetition
  | .list _, .list _ => .error .fractionalRepetition
  | left, right => .error (left.sumFault right)

def twice : Value → Except Fault Value
  | .null => .error (.notCombinable .mul .integer .null)
  | .number content => .ok (.number content.twice)
  | .text content => .ok (.text (content ++ content))
  | .list items => .ok (.list (items ++ items))

@[simp] theorem sub_number (left right : Number) :
    (number left).sub (.number right) = left.sub right := rfl

@[simp] theorem add_number (left right : Number) : (number left).add right = left.add right := rfl

@[simp] theorem halfSum_number (left right : Number) :
    (number left).halfSum (.number right) = left.add right >>= Number.half := rfl

@[simp] theorem twice_number (content : Number) :
    (number content).twice = .ok (.number content.twice) := rfl

end Value

end CircularArc
