import CircularArc.Binary64
import CircularArc.Decimal

/-!
# The shortest decimal that reads back

`shortestDecimal` gives, of the decimals that round to a floating-point magnitude, one with the
fewest digits; among those of equally many digits the nearest, and of two equally near ones the one
whose last digit is even. `ReadsBack` states which decimals round to a magnitude: those between the
two points halfway to its neighbours, these points included exactly when its significand is even.
-/

set_option autoImplicit false

namespace CircularArc

/-- The decimal rounds to the magnitude. The comparison is made in quarters of a unit, with the
powers of ten cleared; below a power of two the neighbour is nearer than above it. -/
def ReadsBack (units : Nat) (decimal : Decimal) : Prop :=
  let scaled := decimal.digits * Nat.pow 10 decimal.exponent.toNat * (4 * Binary64.unitsPerOne)
  let scale := Nat.pow 10 (-decimal.exponent).toNat
  let lower := (4 * units - 2 * spacing (units - 1)) * scale
  let upper := (4 * units + 2 * spacing units) * scale
  let ends := units / spacing units % 2 = 0
  (lower < scaled ∨ (ends ∧ lower = scaled)) ∧ (scaled < upper ∨ (ends ∧ scaled = upper))

instance (units : Nat) (decimal : Decimal) : Decidable (ReadsBack units decimal) := by
  unfold ReadsBack
  infer_instance

def leadingDecimalExponent (units : Nat) : Int :=
  (Decimal.digitCount (units * Nat.pow 10 324 / Binary64.unitsPerOne) : Int) - 325

def gridNeighbours (units : Nat) (exponent : Int) : List Decimal :=
  let dividend := units * Nat.pow 10 (-exponent).toNat
  let divisor := Nat.pow 10 exponent.toNat * Binary64.unitsPerOne
  [nearestQuotient dividend divisor, dividend / divisor, dividend / divisor + 1].map
    fun digits => ⟨digits, exponent⟩

/-- The shortest decimal that reads back as the magnitude. Seventeen digits always suffice. -/
def shortestDecimal (units : Nat) : Decimal :=
  let leading := leadingDecimalExponent units
  let grids := (List.range 17).map fun (position : Nat) => leading - position
  match grids.findSome? fun grid => (gridNeighbours units grid).find? (ReadsBack units ·) with
  | some decimal => decimal
  | none => ⟨units * Nat.pow 5 1074, -1074⟩

end CircularArc
