import CircularArc.Number

/-!
# Values handed to an operation

Arguments arrive as values of any kind, and an arc keeps the ends that it is given unchecked.
Operations take from a value what they can use and name the kind of anything else.
-/

set_option autoImplicit false

namespace CircularArc

inductive Value where
  | null
  | number (content : Number)
  | text (content : String)
  | list (items : List Value)

inductive Kind where
  | null
  | truth
  | integer
  | real
  | text
  | list
deriving DecidableEq

def Kind.name : Kind → String
  | .null => "NoneType"
  | .truth => "bool"
  | .integer => "int"
  | .real => "float"
  | .text => "str"
  | .list => "list"

def Number.kind : Number → Kind
  | .truth _ => .truth
  | .integer _ => .integer
  | .real _ => .real

namespace Value

instance : Coe Number Value := ⟨.number⟩

def kind : Value → Kind
  | .null => .null
  | .number content => content.kind
  | .text _ => .text
  | .list _ => .list

def position : Value → Position
  | .number content => content.position
  | _ => .undefined

@[simp] theorem position_number (content : Number) :
    (number content).position = content.position := rfl

mutual

private def decideEq : (left right : Value) → Decidable (left = right)
  | .null, .null => .isTrue rfl
  | .number left, .number right =>
    decidable_of_iff (left = right) (by simp)
  | .text left, .text right => decidable_of_iff (left = right) (by simp)
  | .list left, .list right =>
    have := decideEqList left right
    decidable_of_iff (left = right) (by simp)
  | .null, .number _ | .null, .text _ | .null, .list _
  | .number _, .null | .number _, .text _ | .number _, .list _
  | .text _, .null | .text _, .number _ | .text _, .list _
  | .list _, .null | .list _, .number _ | .list _, .text _ => .isFalse nofun

private def decideEqList : (left right : List Value) → Decidable (left = right)
  | [], [] => .isTrue rfl
  | first :: rest, other :: others =>
    have := decideEq first other
    have := decideEqList rest others
    decidable_of_iff (first = other ∧ rest = others) (by simp)
  | [], _ :: _ | _ :: _, [] => .isFalse nofun

end

instance : DecidableEq Value := decideEq

end Value

end CircularArc
