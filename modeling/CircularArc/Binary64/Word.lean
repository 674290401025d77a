import CircularArc.Binary64

/-!
# The 64-bit words of floating-point numbers

From the highest bit down a word holds a sign, eleven exponent bits and 52 fraction bits. `ofWord`
reads a word and `toWord` writes the word of a number; every word that is not a number is read as
the one value `nan`, which is written with only the highest fraction bit set.
-/

set_option autoImplicit false

namespace CircularArc

def fractionLimit : Nat := 4503599627370496

def specialExponent : Nat := 2047

def fieldMagnitude (exponent fraction : Nat) : Nat :=
  if exponent = 0 then fraction else (fractionLimit + fraction) * Nat.pow 2 (exponent - 1)

theorem representable_fieldMagnitude {exponent fraction : Nat}
    (exponentBound : exponent < specialExponent) (fractionBound : fraction < fractionLimit) :
    Representable (fieldMagnitude exponent fraction) := by
  unfold specialExponent at exponentBound
  unfold fractionLimit at fractionBound
  unfold fieldMagnitude fractionLimit
  split
  · have aligned := spacing_dvd_scaled
      (Nat.le_trans (Nat.le_of_lt fractionBound) (by decide : 4503599627370496 ≤ Nat.pow 2 53)) 0
    refine ⟨Nat.lt_of_lt_of_le fractionBound ?_, by simpa using aligned⟩
    unfold magnitudeLimit
    decide +kernel
  · have significandBound : 4503599627370496 + fraction < Nat.pow 2 53 := by
      have value : Nat.pow 2 53 = 9007199254740992 := by decide
      omega
    have product : (4503599627370496 + fraction) * Nat.pow 2 (exponent - 1) <
        Nat.pow 2 53 * Nat.pow 2 (exponent - 1) :=
      Nat.mul_lt_mul_of_pos_right significandBound (Nat.two_pow_pos (exponent - 1))
    obtain ⟨largest, order, limit⟩ :
        ∃ largest, exponent - 1 ≤ largest ∧ Nat.pow 2 53 * Nat.pow 2 largest = magnitudeLimit :=
      ⟨2045, by omega, by decide +kernel⟩
    refine ⟨?_, spacing_dvd_scaled (Nat.le_of_lt significandBound) _⟩
    rw [← limit]
    exact Nat.lt_of_lt_of_le product
      (Nat.mul_le_mul_left _ (Nat.pow_le_pow_right (by decide) order))

namespace Binary64

def ofWord (word : Nat) : Binary64 :=
  let fields := word / fractionLimit
  let negative := fields / 2048 % 2 == 1
  let exponent := fields % 2048
  let fraction := word % fractionLimit
  if bounded : exponent < specialExponent then
    .finite negative (fieldMagnitude exponent fraction)
      (representable_fieldMagnitude bounded (Nat.mod_lt _ (by decide)))
  else if fraction = 0 then
    .infinite negative
  else
    .nan

def magnitudeFields (units : Nat) : Nat :=
  if units < fractionLimit then units
  else (units.log2 - 52) * fractionLimit + units / spacing units

def signBit (negative : Bool) : Nat := if negative then 2048 * fractionLimit else 0

def toWord : Binary64 → Nat
  | .nan => specialExponent * fractionLimit + fractionLimit / 2
  | .infinite negative => signBit negative + specialExponent * fractionLimit
  | .finite negative units _ => signBit negative + magnitudeFields units

end Binary64

end CircularArc
