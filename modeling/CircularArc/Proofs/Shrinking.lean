import CircularArc.Proofs.EndOrder
import CircularArc.Proofs.Saturation

/-!
# Shrunk arcs

A negative margin takes its double off an arc's length. An arc that keeps something is never emptied
of more than rounding allows, and its moved ends stay in order, unless it is long, runs across half a
turn and keeps less than the rounding of one end.
-/

set_option autoImplicit false

namespace CircularArc

variable {lo hi count taken : Int}

theorem completedUnits_le_of_taken (loWithin : lo.natAbs ≤ halfTurnUnits)
    (hiWithin : hi.natAbs ≤ halfTurnUnits) (exact : roundedUnits taken = taken)
    (whole : hi - lo + 2 * halfTurnUnits ≤ taken) (order : hi < lo)
    (within : taken ≤ 2 * halfTurnUnits) :
    completedUnits lo hi ≤ taken + 2 * epsilonUnits := by
  have size := halfTurnUnits_eq_mul
  have one := unitsPerOne_eq_mul
  have positive := epsilonUnits_pos
  rcases lt_or_ge (hi - lo).natAbs (4 * Binary64.unitsPerOne) with near | far
  · have aligned := two_epsilon_isGrain.dvd_rounded taken (by omega)
    rw [exact] at aligned
    have leftExact := two_epsilon_isGrain.rounded_of_dvd
      (Int.dvd_sub aligned (Dvd.dvd.mul_left two_dvd_halfTurn 2)) (by omega)
    have first := roundedUnits_mono (show hi - lo ≤ taken - 2 * halfTurnUnits by omega)
    have second := roundedUnits_mono (show roundedUnits (hi - lo) + 2 * halfTurnUnits ≤ taken
      by omega)
    unfold completedUnits
    omega
  · have measured := completedUnits_of_far loWithin hiWithin order (by omega)
    omega

theorem InvertedCounts.lengthUnits_le_of_lt {otherLo otherHi : Int}
    (counts : InvertedCounts lo hi) (loInside : lo ≤ otherLo) (otherOrder : otherHi < otherLo)
    (hiInside : otherHi ≤ hi) : lengthUnits otherLo otherHi ≤ lengthUnits lo hi := by
  have shorter := completedUnits_mono loInside hiInside
  have positive := unitsPerOne_pos
  rw [lengthUnits_of_lt counts.order, lengthUnits_of_lt otherOrder]
  grind

theorem InvertedCounts.lengthUnits_le_of_le {otherLo otherHi : Int}
    (counts : InvertedCounts lo hi) (otherOrder : otherLo ≤ otherHi)
    (shorter : otherHi - otherLo + 2 * epsilonUnits ≤ hi - lo + 2 * halfTurnUnits)
    (measured : 0 < completedUnits lo hi) :
    lengthUnits otherLo otherHi ≤ lengthUnits lo hi := by
  obtain ⟨above, order, below, -, -⟩ := counts
  rw [lengthUnits_of_le otherOrder, lengthUnits_of_lt order, if_pos measured]
  exact roundedUnits_le_completedUnits (by omega) (by omega) shorter

theorem NormalCounts.shrunk (counts : NormalCounts lo hi) (negative : count < 0)
    (kept : 0 < hi - lo + 2 * count) :
    CoversCounts lo hi (movedLo lo count) (movedHi lo hi count) ∧
      lengthUnits (movedLo lo count) (movedHi lo hi count) ≤ lengthUnits lo hi := by
  have ⟨above, order, below, loExact, hiExact⟩ := counts
  have loMoved := le_roundedUnits_of_le loExact (show lo ≤ lo - count by omega)
  have hiMoved := roundedUnits_le_of_le hiExact (show hi + count ≤ hi by omega)
  have ordered := roundedUnits_mono (show lo - count ≤ hi + count by omega)
  unfold movedLo movedHi
  rw [if_neg (by omega), canonicalUnits_of_within (by omega) (by omega),
    canonicalUnits_of_within (by omega) (by omega), lengthUnits_of_le ordered,
    lengthUnits_of_le order]
  exact ⟨covers_of_le_of_le order ordered loMoved hiMoved, roundedUnits_mono (by omega)⟩

theorem InvertedCounts.completedUnits_of_left (counts : InvertedCounts lo hi) (negative : count < 0)
    (left : 2 * epsilonUnits < lengthUnits lo hi + 2 * count) :
    0 < completedUnits lo hi ∧ 2 * epsilonUnits < completedUnits lo hi + 2 * count := by
  rw [lengthUnits_of_lt counts.order] at left
  split at left
  · exact ⟨‹_›, left⟩
  · omega

theorem InvertedCounts.spanUnits_pos_of_left (counts : InvertedCounts lo hi)
    (exact : roundedUnits (2 * count) = 2 * count) (near : -halfTurnUnits ≤ count)
    (left : 2 * epsilonUnits < completedUnits lo hi + 2 * count) :
    0 < spanUnits lo hi + 2 * count := by
  obtain ⟨above, order, below, -, -⟩ := counts
  have taken : roundedUnits (-(2 * count)) = -(2 * count) := by
    rw [roundedUnits_neg, exact]
  rw [spanUnits_of_lt order]
  by_contra nothing
  have seen := completedUnits_le_of_taken (by omega) (by omega) taken (by omega) order (by omega)
  omega

theorem InvertedCounts.shrunk (counts : InvertedCounts lo hi) (negative : count < 0)
    (measured : 0 < completedUnits lo hi) (kept : 0 < hi - lo + 2 * halfTurnUnits + 2 * count)
    (ordered : roundedUnits (lo - count) ≤ roundedUnits (hi + count) + 2 * halfTurnUnits) :
    CoversCounts lo hi (movedLo lo count) (movedHi lo hi count) ∧
      lengthUnits (movedLo lo count) (movedHi lo hi count) ≤ lengthUnits lo hi := by
  have ⟨above, order, below, loExact, hiExact⟩ := counts
  have hiGap := neg_halfTurn_add_le_of_lt hiExact above
  have loMoved := le_roundedUnits_of_le loExact (show lo ≤ lo - count by omega)
  have hiMoved := roundedUnits_le_of_le hiExact (show hi + count ≤ hi by omega)
  have loRounding := turnRounding (lo - count) (by omega)
  unfold movedLo movedHi
  -- At most one end passes half a turn, and then what is left no longer runs across it.
  rcases le_or_gt (roundedUnits (lo - count)) halfTurnUnits with loStays | loTurns
  · rw [canonicalUnits_of_within (by omega) loStays]
    rcases lt_or_ge (-(halfTurnUnits : Int)) (roundedUnits (hi + count)) with hiStays | hiTurns
    · rw [if_neg (by omega), canonicalUnits_of_within hiStays (by omega)]
      exact ⟨covers_of_lt_of_lt order (by omega) loMoved hiMoved,
        counts.lengthUnits_le_of_lt loMoved (by omega) hiMoved⟩
    split
    · exact ⟨covers_of_lt_of_lt order (by omega) loMoved (by omega),
        counts.lengthUnits_le_of_lt loMoved (by omega) (by omega)⟩
    · rw [canonicalUnits_of_le hiTurns]
      exact ⟨covers_of_lt_of_le order above ordered (.inl loMoved),
        counts.lengthUnits_le_of_le ordered (by omega) measured⟩
  · have loFar := halfTurn_add_le_of_lt loRounding.exact loTurns
    rw [canonicalUnits_of_gt loTurns, if_neg (by omega),
      canonicalUnits_of_within (by omega) (by omega)]
    exact ⟨covers_of_lt_of_le order above (by omega) (.inr hiMoved),
      counts.lengthUnits_le_of_le (by omega) (by omega) measured⟩

/-- An arc of which more is measured to be left than the rounding of an end keeps to itself, unless it
runs across half a turn, is long, and hardly anything is left of it. -/
theorem ValidCounts.shrunk (counts : ValidCounts lo hi)
    (notFull : ¬ (lo = -halfTurnUnits ∧ hi = halfTurnUnits)) (negative : count < 0)
    (near : -halfTurnUnits ≤ count) (exact : roundedUnits (2 * count) = 2 * count)
    (left : 2 * epsilonUnits < lengthUnits lo hi + 2 * count)
    (clear : hi < lo → ¬ (4 * Binary64.unitsPerOne ≤ spanUnits lo hi ∧
      0 < spanUnits lo hi + 2 * count ∧ spanUnits lo hi + 2 * count < 2 * epsilonUnits)) :
    CoversCounts lo hi (movedLo lo count) (movedHi lo hi count) ∧
      lengthUnits (movedLo lo count) (movedHi lo hi count) ≤ lengthUnits lo hi := by
  cases counts with
  | empty loAt hiAt =>
    rw [loAt, hiAt, lengthUnits_empty] at left
    omega
  | full loAt hiAt => exact absurd ⟨loAt, hiAt⟩ notFull
  | normal counts =>
    have ⟨above, order, below, _, _⟩ := counts
    rw [lengthUnits_of_le order] at left
    have rounding := (turnRounding (hi - lo) (by omega)).le
    exact counts.shrunk negative (by omega)
  | inverted counts =>
    obtain ⟨measured, kept⟩ := counts.completedUnits_of_left negative left
    have remains := counts.spanUnits_pos_of_left exact near kept
    have ample := clear counts.order
    rw [spanUnits_of_lt counts.order] at remains ample
    have ordered := counts.ordered negative remains kept (by omega)
    exact counts.shrunk negative measured remains ordered

namespace Arc

variable {arc : Arc} {margin : Binary64}

/-- The arc is at least `4` long, and twice the margin leaves something of it, but less than the
rounding of an end. -/
def NearlyVanishes (arc : Arc) (margin : Binary64) : Prop :=
  ∃ count, margin.position = .units count ∧ 4 ≤ arc.exactLength ∧
    0 < arc.exactLength + 2 * unitsValue count ∧
    arc.exactLength + 2 * unitsValue count < 1 / 2 ^ 51

theorem EndsAt.nearlyVanishes_iff (endsAt : arc.EndsAt lo hi)
    (marginAt : margin.position = .units count) :
    arc.NearlyVanishes margin ↔
      4 * Binary64.unitsPerOne ≤ spanUnits lo hi ∧
        0 < spanUnits lo hi + 2 * count ∧ spanUnits lo hi + 2 * count < 2 * epsilonUnits := by
  unfold NearlyVanishes
  rw [marginAt, endsAt.exactLength, ← unitsValue_zero, ← unitsValue_two_epsilon, ← unitsValue_four]
  constructor
  · rintro ⟨_, found, long, left, little⟩
    cases found
    rw [← unitsValue_twice, ← unitsValue_add, unitsValue_lt_iff] at left little
    exact ⟨unitsValue_le_iff.mp long, left, little⟩
  · rintro ⟨long, left, little⟩
    refine ⟨count, rfl, unitsValue_le_iff.mpr long, ?_, ?_⟩
    · rwa [← unitsValue_twice, ← unitsValue_add, unitsValue_lt_iff]
    · rwa [← unitsValue_twice, ← unitsValue_add, unitsValue_lt_iff]

/-- The arc contains the part and is measured at least as long. -/
structure IsPartOf (part arc : Arc) : Prop where
  contained : arc.contains part = .ok true
  length_le : ∃ partLength length, part.length = .ok partLength ∧ arc.length = .ok length ∧
    partLength.le length = true

theorem EndsAt.isPartOf {part : Arc} {partLo partHi : Int} (endsAt : arc.EndsAt lo hi)
    (valid : arc.Valid) (partAt : part.EndsAt partLo partHi) (partValid : part.Valid)
    (contained : arc.contains part = .ok true)
    (shorter : lengthUnits partLo partHi ≤ lengthUnits lo hi) : part.IsPartOf arc :=
  ⟨contained, partAt.length_le partValid endsAt valid shorter⟩

theorem Valid.isPartOf_refl (valid : arc.Valid) : arc.IsPartOf arc := by
  obtain ⟨lo, hi, endsAt, -⟩ := valid.exists_endsAt
  exact endsAt.isPartOf valid endsAt valid valid.contains_refl (le_refl _)

theorem Valid.empty_isPartOf (valid : arc.Valid) : empty.IsPartOf arc := by
  obtain ⟨lo, hi, endsAt, -⟩ := valid.exists_endsAt
  refine endsAt.isPartOf valid empty_endsAt empty_valid valid.contains_empty ?_
  rw [lengthUnits_empty]
  exact neg_unitsPerOne_le_lengthUnits

theorem expanded_of_full {margin : Number} (whole : arc.isFull = true)
    (negative : margin.lt (.integer 0) = true) : arc.expanded margin = .ok arc :=
  expanded_of_expansion (expansion_of_isFull whole (Number.le_eq_false_of_lt negative))

theorem EndsAt.expanded_of_neg (endsAt : arc.EndsAt lo hi) (valid : arc.Valid)
    (notFull : ¬ (lo = -halfTurnUnits ∧ hi = halfTurnUnits))
    (marginAt : margin.position = .units count) (negative : count < 0)
    (marginWithin : -halfTurnUnits ≤ count) :
    arc.expanded margin = .ok empty ∨
      2 * epsilonUnits < lengthUnits lo hi + 2 * count ∧
        ∃ moved, arc.expanded margin = .ok moved ∧ moved.Valid ∧
          moved.EndsAt (movedLo lo count) (movedHi lo hi count) := by
  have ⟨loWithin, hiWithin⟩ := endsAt.within valid
  have tested := endsAt.expansion_of_neg loWithin hiWithin notFull marginAt negative marginWithin
  split at tested
  · exact .inl (expanded_of_expansion tested)
  · have exact := two_epsilon_isGrain.rounded_of_dvd (Int.dvd_refl (2 * epsilonUnits)) (by omega)
    exact .inr ⟨lt_of_lt_roundedUnits exact (not_le.mp ‹_›),
      endsAt.expanded_of_moves loWithin hiWithin marginAt (by omega) tested⟩

/-- A negative margin leaves a part of the arc, which is measured no longer, unless a long arc across
half a turn nearly vanishes. -/
theorem Valid.expanded_isPartOf (valid : arc.Valid)
    (negative : (Number.real margin).lt (.integer 0) = true)
    (clear : arc.hi.exactValue < arc.lo.exactValue → ¬ arc.NearlyVanishes margin) :
    ∃ shrunk, arc.expanded margin = .ok shrunk ∧ shrunk.IsPartOf arc := by
  obtain ⟨lo, hi, endsAt, counts⟩ := valid.exists_endsAt
  have ⟨loWithin, hiWithin⟩ := counts.within
  by_cases whole : lo = -halfTurnUnits ∧ hi = halfTurnUnits
  · exact ⟨arc, expanded_of_full (endsAt.isFull_iff.mpr whole) negative, valid.isPartOf_refl⟩
  rcases Binary64.neg_margin_cases negative with far | ⟨count, marginAt, below, near⟩
  · exact ⟨empty, expanded_of_expansion (endsAt.expansion_of_le_neg_halfTurn loWithin hiWithin whole
      far), valid.empty_isPartOf⟩
  rcases endsAt.expanded_of_neg valid whole marginAt below near with
    collapses | ⟨left, moved, moves, movedValid, movedAt⟩
  · exact ⟨empty, collapses, valid.empty_isPartOf⟩
  have keeps : hi < lo → ¬ (4 * Binary64.unitsPerOne ≤ spanUnits lo hi ∧
      0 < spanUnits lo hi + 2 * count ∧ spanUnits lo hi + 2 * count < 2 * epsilonUnits) :=
    fun order => by
      rw [← endsAt.nearlyVanishes_iff marginAt]
      refine clear ?_
      rwa [endsAt.lo_exact, endsAt.hi_exact, unitsValue_lt_iff]
  have limit := halfTurnUnits_le_exactLimit
  have exact := roundedUnits_twice (Binary64.roundedUnits_of_position marginAt) (by omega)
  obtain ⟨covers, shorter⟩ := counts.shrunk whole below near exact left keeps
  have contained := (valid.contains_iff_covers movedValid endsAt movedAt).mpr covers
  exact ⟨moved, moves, endsAt.isPartOf valid movedAt movedValid contained shorter⟩

theorem Valid.expanded_isPartOf_from_half_turn :
    (Arc.mk (.number halfTurn) (.number epsilon)).Valid ∧
      (Number.real epsilon.neg).lt (.integer 0) = true ∧
      ∃ shrunk, (Arc.mk (.number halfTurn) (.number epsilon)).expanded epsilon.neg = .ok shrunk ∧
        shrunk.IsPartOf ⟨.number halfTurn, .number epsilon⟩ := by
  have valid : (Arc.mk (.number halfTurn) (.number epsilon)).Valid := by decide +kernel
  have negative : (Number.real epsilon.neg).lt (.integer 0) = true := by decide +kernel
  have endsAt : (Arc.mk (.number halfTurn) (.number epsilon)).EndsAt halfTurnUnits epsilonUnits :=
    ⟨by decide +kernel, by decide +kernel⟩
  have marginAt : epsilon.neg.position = .units (-epsilonUnits) := by decide +kernel
  refine ⟨valid, negative, valid.expanded_isPartOf negative ?_⟩
  have size := halfTurnUnits_eq_mul
  have positive := epsilonUnits_pos
  rw [endsAt.nearlyVanishes_iff marginAt, spanUnits_of_lt (by omega)]
  omega

/-- The arc from 2.296875 on to about 0.01369. Shrunk by 2 and three times `endAllowance`, it would
keep little more than `epsilon`. -/
def nearlyVanishing : Arc :=
  ⟨.number (.real (.finite false (147 * Nat.pow 2 1068) (by decide +kernel))),
    .number (.real (.finite false (246611581939381 * Nat.pow 2 1020) (by decide +kernel)))⟩

def vanishingMargin : Binary64 :=
  .finite true (4503599627370499 * Nat.pow 2 1023) (by decide +kernel)

/-- The ends of an arc across half a turn that nearly vanishes can pass each other. What is left then
runs around almost the whole circle. -/
theorem nearlyVanishing_escapes :
    nearlyVanishing.Valid ∧ (Number.real vanishingMargin).lt (.integer 0) = true ∧
      (do nearlyVanishing.contains (← nearlyVanishing.expanded vanishingMargin)) = .ok false ∧
      (do
        let shrunk ← nearlyVanishing.expanded vanishingMargin
        return (← shrunk.length).le (← nearlyVanishing.length)) = Except.ok (ε := Fault) false :=
  ⟨by decide +kernel, by decide +kernel, by decide +kernel, by decide +kernel⟩

end Arc

end CircularArc
