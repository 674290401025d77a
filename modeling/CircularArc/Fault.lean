import CircularArc.Relation
import CircularArc.Value.Text

/-!
# Why an operation fails

Each way to fail is a constructor that carries what its message mentions. `Fault.message` holds all
wording.
-/

set_option autoImplicit false

namespace CircularArc

inductive End where
  | lo
  | hi
deriving DecidableEq

def End.name : End → String
  | .lo => "lo"
  | .hi => "hi"

/-- Why a value cannot be an end of a checked arc, or two values together cannot be its ends. -/
inductive EndDefect where
  | notReal (kind : Kind)
  | integerTooLarge
  | notFinite
  | aboveHalfTurn
  | belowHalfTurn
  | meaninglessPair (lo hi : Value)
deriving DecidableEq

def EndDefect.message : EndDefect → String
  | .notReal kind =>
    "Value error, endpoint must be a real number, got " ++ kind.name ++ " [value_error]"
  | .integerTooLarge => "Input should be a valid number [float_type]"
  | .notFinite => "Input should be a finite number [finite_number]"
  | .aboveHalfTurn => "Input should be less than or equal to 3.141592653589793 [less_than_equal]"
  | .belowHalfTurn =>
    "Input should be greater than or equal to -3.141592653589793 [greater_than_equal]"
  | .meaninglessPair lo hi =>
    "Value error, invalid S1Interval endpoints: [" ++ lo.toText ++ ", " ++ hi.toText
      ++ "] [value_error]"

inductive Operator where
  | add
  | sub
  | mul
deriving DecidableEq

def Operator.symbol : Operator → String
  | .add => "+"
  | .sub => "-"
  | .mul => "*"

inductive Fault where
  | notANumber (kind : Kind)
  | notFinite (name : String) (value : Number)
  | outOfRange (name : String) (value : Number)
  | integerTooLarge
  /-- An infinite angle has no representative within half a turn. -/
  | infiniteAngle
  | emptyProjection
  | notAPoint (kind : Kind)
  | notComparable (relation : Relation) (left right : Kind)
  | notCombinable (operator : Operator) (left right : Kind)
  | notJoinable (left right : Kind)
  | noMagnitude (kind : Kind)
  | fractionalRepetition
  /-- Ends that the checked constructor refuses, the lower end first. A defect of both ends together
  is on neither side. -/
  | rejectedEnds (defects : List (Option End × EndDefect))
  | notAnIndex (kind : Kind)
  | indexOutOfRange
  | indexTooLarge
  /-- Arcs change in place and have no hash. -/
  | unhashable
  | unsetRegister (name : String)
deriving DecidableEq

def Fault.message : Fault → String
  | .notANumber kind => "must be real number, not " ++ kind.name
  | .notFinite name value =>
    name ++ " must be a valid float (not NaN/Inf), got " ++ value.text
  | .outOfRange name value => name ++ " must be in [-pi, pi], got " ++ value.text
  | .integerTooLarge => "int too large to convert to float"
  | .infiniteAngle => "math domain error"
  | .emptyProjection => "cannot project onto an empty S1Interval"
  | .notAPoint kind => "expected a float angle or S1Interval, got " ++ kind.name
  | .notComparable relation left right =>
    "'" ++ relation.symbol ++ "' not supported between instances of '" ++ left.name ++ "' and '"
      ++ right.name ++ "'"
  | .notCombinable operator left right =>
    "unsupported operand type(s) for " ++ operator.symbol ++ ": '" ++ left.name ++ "' and '"
      ++ right.name ++ "'"
  | .notJoinable left right =>
    "can only concatenate " ++ left.name ++ " (not \"" ++ right.name ++ "\") to " ++ left.name
  | .noMagnitude kind => "bad operand type for abs(): '" ++ kind.name ++ "'"
  | .fractionalRepetition => "can't multiply sequence by non-int of type 'float'"
  | .rejectedEnds defects =>
    "; ".intercalate (defects.map fun (side?, defect) =>
      (side?.elim "" End.name) ++ ": " ++ defect.message)
  | .notAnIndex kind => "tuple indices must be integers or slices, not " ++ kind.name
  | .indexOutOfRange => "tuple index out of range"
  | .indexTooLarge => "cannot fit 'int' into an index-sized integer"
  | .unhashable => "unhashable type: 'S1Interval'"
  | .unsetRegister name => name

end CircularArc
