import CircularArc.Proofs.BoundedArithmetic

/-!
# Arithmetic by position

An integer that converts exactly counts as the floating-point number of its value. Two integers are
added exactly, however, and rounded only when their sum is converted.
-/

set_option autoImplicit false

namespace CircularArc

namespace Binary64

theorem position_ofUnits_of_representable (zeroNegative : Bool) {total : Int}
    (aligned : Representable total.natAbs) : (ofUnits zeroNegative total).position = .units total := by
  have bounded : nearestMagnitude total.natAbs < magnitudeLimit := by
    rw [nearestMagnitude_of_representable aligned]
    exact aligned.1
  rw [position_ofUnits zeroNegative bounded, roundedUnits_of_representable aligned]

theorem eq_or_zero_of_position {left right : Binary64} (same : left.position = right.position) :
    left = right ∨ left.position = .units 0 ∧ right.position = .units 0 := by
  cases left with
  | nan =>
    cases right with
    | nan => exact .inl rfl
    | infinite sign => cases sign <;> cases same
    | finite => cases same
  | infinite leftSign =>
    cases right with
    | nan => cases leftSign <;> cases same
    | infinite rightSign => cases leftSign <;> cases rightSign <;> first | exact .inl rfl | cases same
    | finite => cases leftSign <;> cases same
  | finite leftSign leftUnits leftAligned =>
    cases right with
    | nan => cases same
    | infinite rightSign => cases rightSign <;> cases same
    | finite rightSign rightUnits rightAligned =>
      simp only [position, Position.units.injEq] at same ⊢
      have sameUnits : leftUnits = rightUnits := by
        rw [← natAbs_signedUnits leftSign leftUnits, same, natAbs_signedUnits]
      subst sameUnits
      by_cases isZero : leftUnits = 0
      · subst isZero
        exact .inr ⟨signedUnits_zero leftSign, signedUnits_zero rightSign⟩
      · have sameSign : leftSign = rightSign := by
          cases leftSign <;> cases rightSign <;> simp [signedUnits] at same ⊢ <;> omega
        subst sameSign
        exact .inl rfl

end Binary64

/-!
## Numbers that convert
-/

def sumLimit : Nat := 4 * exactLimit

theorem representable_sumLimit : Representable sumLimit := by
  have twice := representable_double representable_exactLimit (by decide +kernel)
  have fourTimes := representable_double twice (by decide +kernel)
  rwa [← Nat.mul_assoc] at fourTimes

namespace Number

def Converts (number : Number) (place : Position) : Prop :=
  ∃ nearest, number.toBinary64 = .ok nearest ∧ nearest.position = place

/-- The number converts to one at its own place, and has at most 54 bits if it is an integer. -/
structure IsExact (number : Number) : Prop where
  converts : number.Converts number.position
  small : ∀ ones, number.asInteger? = some ones → ones.natAbs ≤ 2 ^ 54

theorem isExact_real (value : Binary64) : (real value).IsExact := ⟨⟨value, rfl, rfl⟩, nofun⟩

theorem isExact_of_position {number : Number} {count : Int}
    (stands : number.position = .units count) (within : count.natAbs ≤ exactLimit) :
    number.IsExact := by
  obtain ⟨nearest, converts, nearestAt⟩ := toBinary64_of_position stands within
  refine ⟨⟨nearest, converts, nearestAt.trans stands.symm⟩, fun ones isInteger => ?_⟩
  rw [asInteger?_eq_some isInteger] at stands
  cases stands
  have := natAbs_le_of_ones within
  omega

theorem integer_converts {ones : Int} (small : ones.natAbs ≤ 2 ^ 55) :
    (integer ones).Converts (Binary64.ofUnits false (ones * Binary64.unitsPerOne)).position := by
  have within : (ones * Binary64.unitsPerOne).natAbs ≤ sumLimit := by
    rw [Int.natAbs_mul, Int.natAbs_natCast, sumLimit, exactLimit, ← Nat.mul_assoc]
    exact Nat.mul_le_mul_right _ small
  have bounded : nearestMagnitude (ones * Binary64.unitsPerOne).natAbs < magnitudeLimit := by
    refine lt_of_le_of_lt (nearestMagnitude_mono within) ?_
    rw [nearestMagnitude_of_representable representable_sumLimit]
    exact representable_sumLimit.1
  have finite := Binary64.isFinite_of_position (Binary64.position_ofUnits false bounded)
  refine ⟨Binary64.ofInt ones, ?_, rfl⟩
  rw [toBinary64, Binary64.ofInt]
  exact if_pos finite

section Combine

variable {exact : Int → Int → Int} {rounded : Binary64 → Binary64 → Binary64}
  {place : Position → Position → Position}

/-- The places of two operands determine where the results of both operations convert to. -/
structure Places (exact : Int → Int → Int) (rounded : Binary64 → Binary64 → Binary64)
    (place : Position → Position → Position) : Prop where
  rounded : ∀ left right, (rounded left right).position = place left.position right.position
  integer : ∀ {left right : Int}, left.natAbs ≤ 2 ^ 54 → right.natAbs ≤ 2 ^ 54 →
    (integer (exact left right)).Converts
      (place (.units (left * Binary64.unitsPerOne)) (.units (right * Binary64.unitsPerOne)))

theorem add_places : Places (· + ·) Binary64.add Position.plus where
  rounded := Binary64.position_add_eq_plus
  integer {left right} leftSmall rightSmall := by
    have converts := @integer_converts (left + right) (by omega)
    rwa [add_mul] at converts

theorem sub_places : Places (· - ·) Binary64.sub fun minuend subtrahend =>
    minuend.plus subtrahend.opposite where
  rounded := Binary64.position_sub_eq_plus
  integer {left right} leftSmall rightSmall := by
    have converts := @integer_converts (left - right) (by omega)
    rwa [sub_eq_add_neg, add_mul, neg_mul] at converts

theorem Places.combine_converts (places : Places exact rounded place) {left right : Number}
    (leftExact : left.IsExact) (rightExact : right.IsExact) :
    ∃ result, combine exact rounded left right = .ok result ∧
      result.Converts (place left.position right.position) := by
  obtain ⟨⟨leftReal, leftConverts, leftAt⟩, leftSmall⟩ := leftExact
  obtain ⟨⟨rightReal, rightConverts, rightAt⟩, rightSmall⟩ := rightExact
  unfold combine
  split
  · rename_i leftValue rightValue leftIs rightIs
    rw [asInteger?_eq_some leftIs, asInteger?_eq_some rightIs]
    exact ⟨_, rfl, places.integer (leftSmall leftValue leftIs) (rightSmall rightValue rightIs)⟩
  · rw [leftConverts, rightConverts]
    refine ⟨_, rfl, _, rfl, ?_⟩
    rw [places.rounded, leftAt, rightAt]

end Combine

theorem IsExact.real_sub {number : Number} (exact : number.IsExact) (minuend : Binary64) :
    ∃ difference : Binary64, (real minuend).sub number = .ok (.real difference) ∧
      difference.position = minuend.position.plus number.position.opposite := by
  obtain ⟨nearest, converts, nearestAt⟩ := exact.converts
  refine ⟨minuend.sub nearest, real_combine converts minuend, ?_⟩
  rw [Binary64.position_sub_eq_plus, nearestAt]

def IsShort (number : Number) : Prop := ∀ ones, number.asInteger? = some ones → ones.natAbs ≤ 2 ^ 53

theorem isShort_real (value : Binary64) : (real value).IsShort := nofun

theorem isShort_of_position {number : Number} {count : Int} (stands : number.position = .units count)
    (within : count.natAbs ≤ exactLimit) : number.IsShort := by
  intro ones isOnes
  rw [asInteger?_eq_some isOnes] at stands
  cases stands
  exact natAbs_le_of_ones within

theorem IsShort.isExact {number : Number} (short : number.IsShort) : number.IsExact := by
  cases number with
  | truth value | integer value =>
    refine @isExact_of_position _ (_ * Binary64.unitsPerOne) rfl ?_
    rw [Int.natAbs_mul, Int.natAbs_natCast, exactLimit]
    exact Nat.mul_le_mul_right _ (short _ rfl)
  | real value => exact isExact_real value

private theorem twice_integer {ones : Int} (small : ones.natAbs ≤ 2 ^ 53) :
    (integer (2 * ones)).IsExact ∧
      (integer (2 * ones)).position = (integer ones).position.plus (integer ones).position := by
  have aligned : Representable (2 * ones * Binary64.unitsPerOne).natAbs := by
    rw [mul_assoc, Int.natAbs_mul, Int.natAbs_mul, Int.natAbs_natCast]
    refine representable_double (representable_ones small) ?_
    refine lt_of_le_of_lt (Nat.mul_le_mul_left 2 (Nat.mul_le_mul_right _ small)) ?_
    exact lt_of_le_of_lt (show 2 * exactLimit ≤ sumLimit by unfold sumLimit; omega)
      representable_sumLimit.1
  have doubledAt := Binary64.position_ofUnits_of_representable false aligned
  refine ⟨⟨?_, fun other isOther => ?_⟩, ?_⟩
  · have converts := @integer_converts (2 * ones) (by omega)
    rwa [doubledAt] at converts
  · cases isOther
    omega
  · rw [position, position, Position.plus, ← two_mul, ← mul_assoc, doubledAt]

theorem IsShort.twice {number : Number} (short : number.IsShort) :
    number.twice.IsExact ∧
      number.twice.position = number.position.plus number.position := by
  cases number with
  | truth value => cases value <;> exact @twice_integer _ (short _ rfl)
  | integer value => exact twice_integer (short value rfl)
  | real value => exact ⟨isExact_real _, Binary64.position_twice_eq_plus value⟩

end Number

end CircularArc
