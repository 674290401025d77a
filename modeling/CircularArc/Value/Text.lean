import CircularArc.Number.Text
import CircularArc.Text.Quoted
import CircularArc.Value

/-!
# The text of values

A text stands for itself, except inside a list, where it is quoted.
-/

set_option autoImplicit false

namespace CircularArc

namespace Value

mutual

def itemText : Value → String
  | .null => "None"
  | .number content => content.text
  | .text content => quoted content
  | .list items => "[" ++ ", ".intercalate (itemTexts items) ++ "]"

def itemTexts : List Value → List String
  | [] => []
  | item :: rest => item.itemText :: itemTexts rest

end

def toText : Value → String
  | .text content => content
  | other => other.itemText

end Value

end CircularArc
