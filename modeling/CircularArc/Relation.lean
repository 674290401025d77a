/-!
# Order relations

The four comparisons that values are asked for, each with its symbol and the outcomes it admits.
-/

set_option autoImplicit false

namespace CircularArc

inductive Relation where
  | lt
  | le
  | gt
  | ge
deriving DecidableEq

namespace Relation

def symbol : Relation → String
  | .lt => "<"
  | .le => "<="
  | .gt => ">"
  | .ge => ">="

def admits : Relation → Ordering → Bool
  | .lt, order => order = .lt
  | .le, order => order ≠ .gt
  | .gt, order => order = .gt
  | .ge, order => order ≠ .lt

end Relation

end CircularArc
