import CircularArc.Proofs.Saturation

/-!
# Grown arcs

A margin that is not negative keeps what an arc has. Where the circle is not filled, at least three
times `epsilonUnits` are left of it, which is more than the moved ends can lose to rounding. Only the
shortest arc across half a turn is taken for the empty one when it is measured.
-/

set_option autoImplicit false

namespace CircularArc

variable {lo hi count : Int}

theorem NormalCounts.grown (counts : NormalCounts lo hi) (nonneg : 0 ≤ count)
    (room : hi - lo + 2 * count + 4 * epsilonUnits ≤ 2 * halfTurnUnits) :
    CoversCounts (movedLo lo count) (movedHi lo hi count) lo hi := by
  have ⟨above, order, below, loExact, hiExact⟩ := counts
  have positive := epsilonUnits_pos
  have loMoved := roundedUnits_le_of_le loExact (show lo - count ≤ lo by omega)
  have hiMoved := le_roundedUnits_of_le hiExact (show hi ≤ hi + count by omega)
  obtain ⟨loLe, loGe, loFine, loWithin, -⟩ := turnRounding (lo - count) (by omega)
  obtain ⟨hiLe, hiGe, hiFine, hiWithin, -⟩ := turnRounding (hi + count) (by omega)
  unfold movedLo movedHi
  rw [if_neg (by omega)]
  rcases lt_or_ge (-(halfTurnUnits : Int)) (roundedUnits (lo - count)) with loStays | loTurns
  · rw [canonicalUnits_of_within loStays (by omega)]
    rcases le_or_gt (roundedUnits (hi + count)) halfTurnUnits with hiStays | hiTurns
    · rw [canonicalUnits_of_within (by omega) hiStays]
      exact covers_of_le_of_le (by omega) order loMoved hiMoved
    · rw [canonicalUnits_of_gt hiTurns]
      exact covers_of_lt_of_le (by omega) (by omega) order (.inl loMoved)
  · rw [canonicalUnits_of_le loTurns, canonicalUnits_of_within (by omega) (by omega)]
    exact covers_of_lt_of_le (by omega) (by omega) order (.inr hiMoved)

theorem InvertedCounts.grown (counts : InvertedCounts lo hi) (nonneg : 0 ≤ count)
    (room : hi - lo + 2 * count + 3 * epsilonUnits ≤ 0) :
    CoversCounts (movedLo lo count) (movedHi lo hi count) lo hi := by
  have ⟨above, order, below, loExact, hiExact⟩ := counts
  have positive := epsilonUnits_pos
  have loMoved := roundedUnits_le_of_le loExact (show lo - count ≤ lo by omega)
  have hiMoved := le_roundedUnits_of_le hiExact (show hi ≤ hi + count by omega)
  have loFrom := le_roundedUnits_of_le hiExact (show hi ≤ lo - count by omega)
  have hiTo := roundedUnits_le_of_le loExact (show hi + count ≤ lo by omega)
  have loFine := (turnRounding (lo - count) (by omega)).fine
  have hiFine := (turnRounding (hi + count) (by omega)).fine
  unfold movedLo movedHi
  rw [if_neg (by omega), canonicalUnits_of_within (by omega) (by omega),
    canonicalUnits_of_within (by omega) (by omega)]
  exact covers_of_lt_of_lt (by omega) order loMoved hiMoved

theorem shortest_grown (nonneg : 0 ≤ count) (room : count + 2 * epsilonUnits ≤ halfTurnUnits) :
    CoversCounts (movedLo halfTurnUnits count)
      (movedHi halfTurnUnits (2 * epsilonUnits - halfTurnUnits) count)
      halfTurnUnits (2 * epsilonUnits - halfTurnUnits) := by
  have size := halfTurnUnits_eq_mul
  have positive := epsilonUnits_pos
  have nextExact := two_epsilon_isGrain.rounded_of_dvd (Int.dvd_refl (2 * epsilonUnits)) (by omega)
  have hiExact := two_epsilon_isGrain.rounded_of_dvd
    (Int.dvd_sub (Int.dvd_refl (2 * epsilonUnits)) two_dvd_halfTurn) (by omega)
  have loFrom := le_roundedUnits_of_le nextExact (show _ ≤ halfTurnUnits - count by omega)
  have loTo := roundedUnits_le_of_le roundedUnits_halfTurn (show halfTurnUnits - count ≤ _ by omega)
  have hiFrom := le_roundedUnits_of_le hiExact
    (show _ ≤ 2 * epsilonUnits - halfTurnUnits + count by omega)
  have hiTo := roundedUnits_le_of_le roundedUnits_zero
    (show 2 * epsilonUnits - halfTurnUnits + count ≤ 0 by omega)
  unfold movedLo movedHi
  rw [if_neg (by omega), canonicalUnits_of_within (by omega) loTo,
    canonicalUnits_of_within (by omega) (by omega)]
  exact covers_of_lt_of_lt (by omega) (by omega) loTo hiFrom

theorem add_le_fullTurn_of_rounded_lt {sum : Int} (nonneg : 0 ≤ sum)
    (short : roundedUnits sum < 2 * halfTurnUnits - 4 * epsilonUnits) :
    sum + 6 * epsilonUnits ≤ 2 * halfTurnUnits := by
  have size := halfTurnUnits_eq_mul
  have one := unitsPerOne_eq_mul
  have positive := epsilonUnits_pos
  have below := lt_of_roundedUnits_lt roundedUnits_fullTurn (lt_trans short (by omega))
  rcases lt_or_ge sum.natAbs (4 * Binary64.unitsPerOne) with near | far
  · omega
  · have aligned := four_epsilon_isGrain.dvd_rounded sum (by omega)
    have limitAligned := Int.dvd_sub four_dvd_fullTurn (Int.dvd_refl (4 * epsilonUnits))
    have apart := add_le_of_lt_of_dvd short aligned limitAligned
    have near := four_epsilon_isGrain.near_rounded sum (by omega)
    omega

namespace Arc

variable {arc : Arc} {margin : Binary64}

/-- The arc from half a turn on to the next point. -/
def IsShortestCrossing (arc : Arc) : Prop :=
  arc.lo.exactValue = halfCircle ∧ arc.hi.exactValue = 1 / 2 ^ 51 - halfCircle

theorem EndsAt.isShortestCrossing_iff (endsAt : arc.EndsAt lo hi) :
    arc.IsShortestCrossing ↔ lo = halfTurnUnits ∧ hi = 2 * epsilonUnits - halfTurnUnits := by
  rw [IsShortestCrossing, endsAt.lo_exact, endsAt.hi_exact, ← unitsValue_two_epsilon, halfCircle,
    ← unitsValue_sub, unitsValue_inj, unitsValue_inj]

/-- The margin makes the ends of the shortest arc across half a turn pass each other, but is too small
to fill the circle, since that arc is measured as `-1`. -/
def SlipsAway (arc : Arc) (margin : Binary64) : Prop :=
  arc.IsShortestCrossing ∧ ∃ count, margin.position = .units count ∧
    halfCircle ≤ unitsValue count ∧ unitsValue count < halfCircle + 1 / 2 - 1 / 2 ^ 51

theorem EndsAt.slipsAway_iff (endsAt : arc.EndsAt lo hi) (marginAt : margin.position = .units count) :
    arc.SlipsAway margin ↔ (lo = halfTurnUnits ∧ hi = 2 * epsilonUnits - halfTurnUnits) ∧
      halfTurnUnits ≤ count ∧
        count < halfTurnUnits + Binary64.unitsPerOne / 2 - 2 * epsilonUnits := by
  unfold SlipsAway
  rw [endsAt.isShortestCrossing_iff, marginAt, ← unitsValue_two_epsilon, ← unitsValue_half, halfCircle,
    ← unitsValue_add, ← unitsValue_sub]
  apply and_congr_right
  intro _
  constructor
  · rintro ⟨_, found, least, most⟩
    cases found
    exact ⟨unitsValue_le_iff.mp least, unitsValue_lt_iff.mp most⟩
  · rintro ⟨least, most⟩
    exact ⟨count, rfl, unitsValue_le_iff.mpr least, unitsValue_lt_iff.mpr most⟩

/-- The exact length of the arc and twice the margin make up a full turn. -/
def Fills (arc : Arc) (margin : Binary64) : Prop :=
  margin = .infinite false ∨
    ∃ count, margin.position = .units count ∧
      2 * halfCircle ≤ arc.exactLength + 2 * unitsValue count

theorem EndsAt.expanded_of_nonneg (endsAt : arc.EndsAt lo hi) (valid : arc.Valid)
    (nonempty : ¬ (lo = halfTurnUnits ∧ hi = -halfTurnUnits))
    (marginAt : margin.position = .units count) (nonneg : 0 ≤ count)
    (marginWithin : count ≤ halfTurnUnits) (measured : 0 ≤ lengthUnits lo hi) :
    arc.expanded margin = .ok full ∨
      lengthUnits lo hi + 2 * count + 6 * epsilonUnits ≤ 2 * halfTurnUnits ∧
        ∃ moved, arc.expanded margin = .ok moved ∧ moved.Valid ∧
          moved.EndsAt (movedLo lo count) (movedHi lo hi count) := by
  have ⟨loWithin, hiWithin⟩ := endsAt.within valid
  have tested := endsAt.expansion_of_nonneg loWithin hiWithin nonempty marginAt nonneg marginWithin
  split at tested
  · exact .inl (expanded_of_expansion tested)
  · exact .inr ⟨add_le_fullTurn_of_rounded_lt (by omega) (by omega),
      endsAt.expanded_of_moves loWithin hiWithin marginAt (by omega) tested⟩

theorem expanded_of_empty {margin : Number} (vanishing : arc.isEmpty = true)
    (nonneg : (Number.integer 0).le margin = true) : arc.expanded margin = .ok arc :=
  expanded_of_expansion (expansion_of_isEmpty vanishing nonneg)

/-- An arc that a margin does not fill keeps what it has, and leaves some of the circle free. -/
theorem EndsAt.expanded_covers (endsAt : arc.EndsAt lo hi) (valid : arc.Valid)
    (counts : ValidCounts lo hi) (nonempty : ¬ (lo = halfTurnUnits ∧ hi = -halfTurnUnits))
    (longer : ¬ (lo = halfTurnUnits ∧ hi = 2 * epsilonUnits - halfTurnUnits))
    (nonneg : (Number.integer 0).le margin = true) :
    arc.expanded margin = .ok full ∨
      ∃ count moved, margin.position = .units count ∧ 0 ≤ count ∧
        spanUnits lo hi + 2 * count + 3 * epsilonUnits ≤ 2 * halfTurnUnits ∧
        arc.expanded margin = .ok moved ∧ moved.Valid ∧
        moved.EndsAt (movedLo lo count) (movedHi lo hi count) ∧
        CoversCounts (movedLo lo count) (movedHi lo hi count) lo hi := by
  have ⟨loWithin, hiWithin⟩ := counts.within
  have positive := epsilonUnits_pos
  obtain ⟨measured, near⟩ := (counts.lengthUnits_near nonempty).2 longer
  rcases Binary64.nonneg_margin_cases halfTurnUnits nonneg with
    far | ⟨count, marginAt, from0, within⟩
  · exact .inl (expanded_of_expansion
      (endsAt.expansion_of_ge_halfTurn loWithin hiWithin nonempty measured far))
  rcases endsAt.expanded_of_nonneg valid nonempty marginAt from0 within measured with
    fills | ⟨room, moved, moves, movedValid, movedAt⟩
  · exact .inl fills
  refine .inr ⟨count, moved, marginAt, from0, by omega, moves, movedValid, movedAt, ?_⟩
  cases counts with
  | empty loAt hiAt => exact absurd ⟨loAt, hiAt⟩ nonempty
  | full loAt hiAt =>
    rw [spanUnits_of_le (by omega)] at near
    omega
  | normal counts =>
    have order := counts.order
    have near := (turnRounding (hi - lo) (by omega)).ge
    rw [lengthUnits_of_le order] at room
    exact counts.grown from0 (by omega)
  | inverted counts =>
    rw [spanUnits_of_lt counts.order] at near
    exact counts.grown from0 (by omega)

theorem EndsAt.shortest_expanded_of_ge
    (endsAt : arc.EndsAt halfTurnUnits (2 * epsilonUnits - halfTurnUnits)) (valid : arc.Valid)
    (far : (Position.units (halfTurnUnits + Binary64.unitsPerOne / 2 - 2 * epsilonUnits)).le
      margin.position = true) : arc.expanded margin = .ok full := by
  have size := halfTurnUnits_eq_mul
  have one := unitsPerOne_eq_mul
  have positive := epsilonUnits_pos
  obtain ⟨loWithin, hiWithin⟩ := endsAt.within valid
  have half : (Binary64.unitsPerOne : Int) / 2 = 2251799813685248 * epsilonUnits := by omega
  have aligned : (4 * epsilonUnits : Int) ∣
      2 * (halfTurnUnits + Binary64.unitsPerOne / 2 - 2 * epsilonUnits) := by
    obtain ⟨turns, fullTurn⟩ := four_dvd_fullTurn
    rw [half]
    exact ⟨turns + 1125899906842624 - 1, by linarith⟩
  have exact := four_epsilon_isGrain.rounded_of_dvd aligned (by omega)
  exact expanded_of_expansion (endsAt.expansion_of_ge loWithin hiWithin (by omega)
    neg_unitsPerOne_le_lengthUnits far (by omega) (by omega) exact (by omega) (by omega))

/-- A margin that does not lose the shortest arc across half a turn keeps it or fills the circle. -/
theorem EndsAt.shortest_expanded_covers
    (endsAt : arc.EndsAt halfTurnUnits (2 * epsilonUnits - halfTurnUnits)) (valid : arc.Valid)
    (nonneg : (Number.integer 0).le margin = true) (kept : ¬ arc.SlipsAway margin) :
    arc.expanded margin = .ok full ∨
      ∃ count moved, margin.position = .units count ∧ 2 * epsilonUnits + 2 * count < 2 * halfTurnUnits ∧
        arc.expanded margin = .ok moved ∧ moved.contains arc = .ok true := by
  have size := halfTurnUnits_eq_mul
  have one := unitsPerOne_eq_mul
  have positive := epsilonUnits_pos
  obtain ⟨loWithin, hiWithin⟩ := endsAt.within valid
  rcases Binary64.nonneg_margin_cases (halfTurnUnits + Binary64.unitsPerOne / 2 -
    2 * epsilonUnits) nonneg with far | ⟨count, marginAt, from0, -⟩
  · exact .inl (endsAt.shortest_expanded_of_ge valid far)
  rcases le_or_gt (halfTurnUnits : Int) count with beyond | below
  · rw [endsAt.slipsAway_iff marginAt] at kept
    refine .inl (endsAt.shortest_expanded_of_ge valid ?_)
    rw [marginAt]
    exact Position.units_le_units (by omega)
  have room := add_le_halfTurn_of_lt (Binary64.roundedUnits_of_position marginAt) below
  have tested :=
    endsAt.expansion_of_nonneg loWithin hiWithin (by omega) marginAt from0 (by omega)
  split at tested
  · exact .inl (expanded_of_expansion tested)
  obtain ⟨moved, moves, movedValid, movedAt⟩ :=
    endsAt.expanded_of_moves loWithin hiWithin marginAt (by omega) tested
  exact .inr ⟨count, moved, marginAt, by omega, moves,
    (movedValid.contains_iff_covers valid movedAt endsAt).mpr (shortest_grown from0 room)⟩

theorem EndsAt.expanded_keeps (endsAt : arc.EndsAt lo hi) (valid : arc.Valid)
    (counts : ValidCounts lo hi) (nonempty : ¬ (lo = halfTurnUnits ∧ hi = -halfTurnUnits))
    (nonneg : (Number.integer 0).le margin = true) (kept : ¬ arc.SlipsAway margin) :
    arc.expanded margin = .ok full ∨
      ∃ count moved, margin.position = .units count ∧ spanUnits lo hi + 2 * count < 2 * halfTurnUnits ∧
        arc.expanded margin = .ok moved ∧ moved.contains arc = .ok true := by
  have positive := epsilonUnits_pos
  by_cases shortest : lo = halfTurnUnits ∧ hi = 2 * epsilonUnits - halfTurnUnits
  · obtain ⟨rfl, rfl⟩ := shortest
    have order := halfTurnUnits_eq_mul
    rw [spanUnits_of_lt (by omega)]
    rcases endsAt.shortest_expanded_covers valid nonneg kept with
      fills | ⟨count, moved, marginAt, room, moves, contained⟩
    · exact .inl fills
    · exact .inr ⟨count, moved, marginAt, by omega, moves, contained⟩
  · rcases endsAt.expanded_covers valid counts nonempty shortest nonneg with
      fills | ⟨count, moved, marginAt, -, room, moves, movedValid, movedAt, covers⟩
    · exact .inl fills
    · exact .inr ⟨count, moved, marginAt, by omega, moves,
        (movedValid.contains_iff_covers valid movedAt endsAt).mpr covers⟩

/-- A margin that is not negative keeps the arc, and fills the circle whenever the exact length and
twice the margin make up a full turn, unless the shortest arc across half a turn slips away. -/
theorem Valid.expanded_contains_and_fills (valid : arc.Valid)
    (nonneg : (Number.integer 0).le margin = true) (kept : ¬ arc.SlipsAway margin) :
    ∃ grown, arc.expanded margin = .ok grown ∧ grown.contains arc = .ok true ∧
      (arc.points ≠ ∅ → arc.Fills margin → grown.isFull = true) := by
  obtain ⟨lo, hi, endsAt, counts⟩ := valid.exists_endsAt
  by_cases vanishing : lo = halfTurnUnits ∧ hi = -halfTurnUnits
  · have isEmpty := endsAt.isEmpty_iff.mpr vanishing
    exact ⟨arc, expanded_of_empty isEmpty nonneg, valid.contains_refl,
      fun nonempty => absurd (valid.isEmpty_iff_points.mp isEmpty) nonempty⟩
  rcases endsAt.expanded_keeps valid counts vanishing nonneg kept with
    fills | ⟨count, moved, marginAt, room, moves, contained⟩
  · exact ⟨full, fills, valid.full_contains, fun _ _ => full_isFull⟩
  refine ⟨moved, moves, contained, fun _ fills => ?_⟩
  rcases fills with rfl | ⟨other, otherAt, fills⟩
  · cases marginAt
  · cases marginAt.symm.trans otherAt
    rw [endsAt.exactLength, halfCircle, ← unitsValue_twice, ← unitsValue_twice, ← unitsValue_add,
      unitsValue_le_iff] at fills
    omega

theorem Valid.expanded_contains_and_fills_from_half_turn :
    (Arc.mk (.number halfTurn) (.number epsilon)).Valid ∧
      (Number.integer 0).le (.real halfTurn) = true ∧
      ¬ (Arc.mk (.number halfTurn) (.number epsilon)).SlipsAway halfTurn ∧
      ∃ grown, (Arc.mk (.number halfTurn) (.number epsilon)).expanded halfTurn = .ok grown ∧
        grown.contains ⟨.number halfTurn, .number epsilon⟩ = .ok true ∧ grown.isFull = true := by
  have valid : (Arc.mk (.number halfTurn) (.number epsilon)).Valid := by decide +kernel
  have nonneg : (Number.integer 0).le (.real halfTurn) = true := by decide +kernel
  have endsAt : (Arc.mk (.number halfTurn) (.number epsilon)).EndsAt halfTurnUnits epsilonUnits :=
    ⟨by decide +kernel, by decide +kernel⟩
  have size := halfTurnUnits_eq_mul
  have positive := epsilonUnits_pos
  have kept : ¬ (Arc.mk (.number halfTurn) (.number epsilon)).SlipsAway halfTurn := by
    rw [endsAt.slipsAway_iff halfTurn_position]
    omega
  have fills : (Arc.mk (.number halfTurn) (.number epsilon)).Fills halfTurn := by
    refine .inr ⟨halfTurnUnits, halfTurn_position, ?_⟩
    rw [endsAt.exactLength, spanUnits_of_lt (by omega), halfCircle, ← unitsValue_twice,
      ← unitsValue_add, unitsValue_le_iff]
    omega
  obtain ⟨grown, grows, holds, filled⟩ := valid.expanded_contains_and_fills nonneg kept
  exact ⟨valid, nonneg, kept, grown, grows, holds,
    filled (mt valid.isEmpty_iff_points.mpr (by decide +kernel)) fills⟩

/-- The shortest arc across half a turn: from half a turn on to the next point. -/
def shortestCrossing : Arc :=
  ⟨.number halfTurn,
    .number (.real (.finite true (7074237752028439 * Nat.pow 2 1023) (by decide +kernel)))⟩

theorem shortestCrossing_valid : shortestCrossing.Valid := by decide +kernel

theorem shortestCrossing_endsAt :
    shortestCrossing.EndsAt halfTurnUnits (2 * epsilonUnits - halfTurnUnits) :=
  ⟨by decide +kernel, by decide +kernel⟩

/-- Grown by half a turn, the shortest arc across half a turn becomes a short one from zero on. -/
theorem shortestCrossing_is_lost :
    shortestCrossing.Valid ∧ (Number.integer 0).le (.real halfTurn) = true ∧
      shortestCrossing.points ≠ ∅ ∧ shortestCrossing.Fills halfTurn ∧
      (do (← shortestCrossing.expanded halfTurn).contains shortestCrossing) = .ok false ∧
      (do return (← shortestCrossing.expanded halfTurn).isFull) = Except.ok (ε := Fault) false := by
  have valid := shortestCrossing_valid
  have endsAt := shortestCrossing_endsAt
  refine ⟨valid, by decide +kernel, mt valid.isEmpty_iff_points.mpr (by decide +kernel), ?_,
    by decide +kernel, by decide +kernel⟩
  have size := halfTurnUnits_eq_mul
  have positive := epsilonUnits_pos
  refine .inr ⟨halfTurnUnits, halfTurn_position, ?_⟩
  rw [endsAt.exactLength, spanUnits_of_lt (by omega), halfCircle, ← unitsValue_twice,
    ← unitsValue_add, unitsValue_le_iff]
  omega

end Arc

end CircularArc
