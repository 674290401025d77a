import CircularArc.Decimal.Shortest
import CircularArc.Number

/-!
# The text of numbers

Integers are written in decimal. Floating-point numbers are written with the fewest digits that
identify them, positionally while the exponent of the leading digit is at least -4 and below 16.
-/

set_option autoImplicit false

namespace CircularArc

/-- Floating-point text is positional for leading exponents from -4 to 15; elsewhere the exponent
is signed and has at least two digits. -/
def realLayout : Decimal.Layout := ⟨-4, 16, 2⟩

def Binary64.text : Binary64 → String
  | .nan => "nan"
  | .infinite negative => if negative then "-inf" else "inf"
  | .finite negative units _ =>
    let magnitude := if units = 0 then "0.0" else realLayout.render (shortestDecimal units)
    if negative then "-" ++ magnitude else magnitude

def Number.text : Number → String
  | .truth value => if value then "True" else "False"
  | .integer value => toString value
  | .real value => value.text

end CircularArc
