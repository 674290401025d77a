import CircularArc.Binary64.Magnitude

/-!
# Binary floating-point numbers

A finite number is a sign and a representable magnitude, so sums and comparisons of finite numbers
are sums and comparisons of integers. Every arithmetic operation here computes its exact result in
units and rounds it once, with `Binary64.ofUnits`, to the nearest number, a tie going to the even
one.
-/

set_option autoImplicit false

namespace CircularArc

/-- A binary floating-point number: not a number, an infinity, or a signed magnitude in units of
`2 ^ -1074`. Zero has both signs. -/
inductive Binary64 where
  | nan
  | infinite (negative : Bool)
  | finite (negative : Bool) (units : Nat) (representable : Representable units)
deriving DecidableEq

namespace Binary64

def zero (negative : Bool) : Binary64 := .finite negative 0 representable_zero

/-- The number nearest to an integer count of units, ties to even; beyond the largest finite number
an infinity. The exact total zero carries no sign of its own and takes `zeroNegative`. -/
def ofUnits (zeroNegative : Bool) (total : Int) : Binary64 :=
  if total = 0 then
    zero zeroNegative
  else if bounded : nearestMagnitude total.natAbs < magnitudeLimit then
    .finite (total < 0) (nearestMagnitude total.natAbs)
      ⟨bounded, spacing_dvd_nearestMagnitude total.natAbs⟩
  else
    .infinite (total < 0)

def signedUnits (negative : Bool) (units : Nat) : Int :=
  if negative then -(units : Int) else units

@[simp] theorem signedUnits_zero (negative : Bool) : signedUnits negative 0 = 0 := by
  cases negative <;> rfl

@[simp] theorem natAbs_signedUnits (negative : Bool) (units : Nat) :
    (signedUnits negative units).natAbs = units := by
  cases negative <;> simp [signedUnits]

@[simp] theorem signedUnits_not (negative : Bool) (units : Nat) :
    signedUnits (!negative) units = -signedUnits negative units := by
  cases negative <;> simp [signedUnits]

theorem ofUnits_signedUnits (negative : Bool) (units : Nat) (aligned : Representable units) :
    ofUnits negative (signedUnits negative units) = .finite negative units aligned := by
  unfold ofUnits
  by_cases isZero : units = 0
  · subst isZero
    simp [zero]
  · have nonzero : signedUnits negative units ≠ 0 := by
      intro vanishes
      apply isZero
      rw [← natAbs_signedUnits negative units, vanishes]
      rfl
    have sign : decide (signedUnits negative units < 0) = negative := by
      cases negative
      · simp [signedUnits]
      · simp [signedUnits]
        omega
    simp only [nonzero, ↓reduceIte, natAbs_signedUnits, sign,
      nearestMagnitude_of_representable aligned, aligned.1, ↓reduceDIte]

def isFinite : Binary64 → Bool
  | .finite .. => true
  | _ => false

def neg : Binary64 → Binary64
  | .nan => .nan
  | .infinite negative => .infinite !negative
  | .finite negative units aligned => .finite (!negative) units aligned

def abs : Binary64 → Binary64
  | .nan => .nan
  | .infinite _ => .infinite false
  | .finite _ units aligned => .finite false units aligned

/-- The rounded sum. A sum that is exactly zero is negative only when both terms are. -/
def add : Binary64 → Binary64 → Binary64
  | .nan, _ => .nan
  | _, .nan => .nan
  | .infinite left, .infinite right => if left = right then .infinite left else .nan
  | .infinite negative, .finite .. => .infinite negative
  | .finite .., .infinite negative => .infinite negative
  | .finite left leftUnits _, .finite right rightUnits _ =>
    ofUnits (left && right) (signedUnits left leftUnits + signedUnits right rightUnits)

def sub (minuend subtrahend : Binary64) : Binary64 := minuend.add subtrahend.neg

def twice : Binary64 → Binary64
  | .nan => .nan
  | .infinite negative => .infinite negative
  | .finite negative units _ => ofUnits negative (2 * signedUnits negative units)

/-- Half the number; only an odd count of units, the smallest magnitudes, makes this inexact. -/
def half : Binary64 → Binary64
  | .nan => .nan
  | .infinite negative => .infinite negative
  | .finite negative units _ => ofUnits negative (signedUnits negative (nearestQuotient units 2))

@[irreducible] def unitsPerOne : Nat := Nat.pow 2 1074

def ofInt (value : Int) : Binary64 := ofUnits false (value * unitsPerOne)

end Binary64

end CircularArc
