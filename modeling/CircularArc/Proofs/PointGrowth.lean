import CircularArc.Proofs.Growth
import CircularArc.Proofs.Union
import CircularArc.Session

/-!
# Arcs that grow by points

Adding a point succeeds for every angle, keeps all points of the arc, takes in the new one, and never
fills the circle. So, by induction on the calls, an arc that grows by points holds every point that
was added, whatever calls fail in between. One addition is the union with the arc of that point.
-/

set_option autoImplicit false

namespace CircularArc

namespace Arc

variable {arc grown : Arc} {point value : Value}

/-!
## One point
-/

theorem Valid.exists_isNearerLo (valid : arc.Valid) (isAngle : point.IsAngle) :
    ∃ nearer, arc.isNearerLo point = .ok nearer := by
  obtain ⟨toLo, toLoIs, -⟩ := isAngle.forwardDistance valid.lo_isAngle
  obtain ⟨fromHi, fromHiIs, -⟩ := valid.hi_isAngle.forwardDistance isAngle
  refine ⟨toLo.lt fromHi, ?_⟩
  rw [isNearerLo, toLoIs, ok_bind, fromHiIs]
  rfl

theorem Valid.exists_insert (valid : arc.Valid) (isAngle : point.IsAngle) :
    ∃ result, arc.insert point = .ok result := by
  obtain ⟨holds, holdsIs, -⟩ := valid.holds_decides isAngle
  obtain ⟨nearer, nearerIs⟩ := valid.exists_isNearerLo isAngle
  rw [Arc.insert, holdsIs, ok_bind, nearerIs]
  simp only [ok_bind, pure_eq_ok, ← apply_ite Except.ok]
  exact ⟨_, rfl⟩

theorem InsertCase.subset (outcome : InsertCase arc point grown) (valid : arc.Valid)
    (isAngle : point.IsAngle) (above : -halfCircle < point.exactValue) :
    arc.points ⊆ grown.points ∧ point.exactValue ∈ grown.points := by
  have ends := valid.exactEnds
  have below := isAngle.le_halfCircle
  have emptyIff := valid.points_eq_empty_iff
  have onCircle : point.exactValue ∈ circle := ⟨above, below⟩
  cases outcome with
  | held holds => exact ⟨Set.Subset.refl _, mem_points_iff.mpr ⟨onCircle, holds⟩⟩
  | fresh vanishes =>
    rw [vanishes, single_points isAngle above]
    exact ⟨Set.empty_subset _, rfl⟩
  | moveLo nonempty free | moveHi nonempty free =>
    unfold Spans at free
    constructor
    · intro place held
      obtain ⟨placeOnCircle, spanned⟩ := mem_points_iff.mp held
      refine mem_points_iff.mpr ⟨placeOnCircle, ?_⟩
      unfold Spans at spanned ⊢
      grind
    · refine mem_points_iff.mpr ⟨onCircle, ?_⟩
      unfold Spans
      grind

theorem InsertCase.isFull_of_isFull (outcome : InsertCase arc point grown) (valid : arc.Valid)
    (isAngle : point.IsAngle) (above : -halfCircle < point.exactValue)
    (whole : grown.isFull = true) : arc.isFull = true := by
  have grownValid := outcome.valid valid isAngle above
  obtain ⟨loAt, hiAt⟩ := grownValid.isFull_iff.mp whole
  cases outcome with
  | held => exact whole
  | fresh | moveLo => exact absurd loAt (ne_of_gt above)
  | moveHi nonempty free =>
    exact valid.isFull_iff.mpr ⟨loAt, valid.hi_exact_of_lo loAt⟩

/-- The second arc has grown out of the first one. -/
structure GrowsTo (arc grown : Arc) : Prop where
  valid : grown.Valid
  keeps : arc.points ⊆ grown.points
  isFull : grown.isFull = true → arc.isFull = true

theorem Valid.growsTo_refl (valid : arc.Valid) : arc.GrowsTo arc :=
  ⟨valid, Set.Subset.refl _, id⟩

theorem GrowsTo.trans {final : Arc} (first : arc.GrowsTo grown) (second : grown.GrowsTo final) :
    arc.GrowsTo final :=
  ⟨second.valid, first.keeps.trans second.keeps, fun whole => first.isFull (second.isFull whole)⟩

theorem Valid.exists_addPoint_iff (valid : arc.Valid) :
    (∃ result, arc.addPoint value = .ok result) ↔ value.IsAngle := by
  constructor
  · rintro ⟨result, added⟩
    rw [addPoint_eq] at added
    obtain ⟨angle, accepted, -⟩ := exists_of_bind_eq_ok added
    exact (Value.angle_eq_ok_iff.mp accepted).2
  · intro isAngle
    obtain ⟨content, rfl⟩ := isAngle.eq_number
    have accepted : (Value.number content).angle "p" = .ok content :=
      Value.angle_eq_ok_iff.mpr ⟨rfl, isAngle⟩
    rw [addPoint_eq, accepted, ok_bind]
    exact valid.exists_insert (Value.canonical_of_angle accepted).1

theorem Valid.addPoint_cases (valid : arc.Valid) (added : arc.addPoint value = .ok grown) :
    ∃ point : Value, point.IsAngle ∧ -halfCircle < point.exactValue ∧
      point.exactValue = value.circlePoint ∧ InsertCase arc point grown := by
  rw [addPoint_eq] at added
  obtain ⟨angle, accepted, inserted⟩ := exists_of_bind_eq_ok added
  obtain ⟨rfl, isAngle⟩ := Value.angle_eq_ok_iff.mp accepted
  obtain ⟨canonicalAngle, above⟩ := Value.canonical_of_angle accepted
  exact ⟨_, canonicalAngle, above, (Number.canonical_spec isAngle).2,
    valid.insert_cases canonicalAngle inserted⟩

theorem Valid.growsTo_addPoint (valid : arc.Valid) (added : arc.addPoint value = .ok grown) :
    arc.GrowsTo grown ∧ value.circlePoint ∈ grown.points := by
  obtain ⟨point, isAngle, above, pointAt, outcome⟩ := valid.addPoint_cases added
  obtain ⟨keeps, takes⟩ := outcome.subset valid isAngle above
  rw [pointAt] at takes
  exact ⟨⟨outcome.valid valid isAngle above, keeps,
    outcome.isFull_of_isFull valid isAngle above⟩, takes⟩

theorem Valid.addPoint_of_mem (valid : arc.Valid) (added : arc.addPoint value = .ok grown)
    (held : value.circlePoint ∈ arc.points) : grown = arc := by
  obtain ⟨point, isAngle, above, pointAt, outcome⟩ := valid.addPoint_cases added
  rw [← pointAt] at held
  cases outcome with
  | held => rfl
  | fresh vanishes =>
    rw [vanishes] at held
    exact held.elim
  | moveLo _ free | moveHi _ free => exact absurd (mem_points_iff.mp held).2 free

/-!
## Many points
-/

/-- The arc after a call that adds the point that a value names, whether it succeeds or fails. -/
def afterAdding (arc : Arc) (value : Value) : Arc := ((Update.addPoint value).applyTo arc).2

theorem afterAdding_of_ok (added : arc.addPoint value = .ok grown) :
    arc.afterAdding value = grown := by
  rw [afterAdding, addPoint_applyTo, added, Update.commit]

theorem afterAdding_of_error {fault : Fault} (failed : arc.addPoint value = .error fault) :
    arc.afterAdding value = arc := by
  rw [afterAdding, addPoint_applyTo, failed, Update.commit]

theorem Valid.growsTo_afterAdding (valid : arc.Valid) (value : Value) :
    arc.GrowsTo (arc.afterAdding value) := by
  cases added : arc.addPoint value with
  | error fault =>
    rw [afterAdding_of_error added]
    exact valid.growsTo_refl
  | ok grown =>
    rw [afterAdding_of_ok added]
    exact (valid.growsTo_addPoint added).1

/-- By induction on the values, an arc grows through any number of calls. -/
theorem Valid.growsTo_foldl (valid : arc.Valid) (values : List Value) :
    arc.GrowsTo (values.foldl afterAdding arc) := by
  induction values generalizing arc with
  | nil => exact valid.growsTo_refl
  | cons value rest ih =>
    have first := valid.growsTo_afterAdding value
    exact first.trans (ih first.valid)

end Arc

def addition (name : String) (value : Value) : Step := .apply name (.addPoint value) none

variable {registers : Registers} {name : String} {arc : Arc}

theorem addition_run (held : registers.get? name = some arc) (value : Value) :
    ∃ report updated, (addition name value).run registers = (report, updated) ∧
      updated.get? name = some (arc.afterAdding value) ∧
      report.outcome = (fun _ => .nothing) <$> arc.addPoint value := by
  have found : registers.read name = .ok arc := by
    rw [Registers.read, held]
  simp only [addition, Step.run, found]
  refine ⟨_, _, rfl, (registers.get?_set name (arc.afterAdding value) name).trans (if_pos rfl), ?_⟩
  simp only [Operation.apply, Effect.update, Arc.addPoint_applyTo]
  cases arc.addPoint value with
  | error fault => rfl
  | ok grown => rfl

/-- By induction on the values, a run of additions leaves the arc after all calls. -/
theorem additions_run (held : registers.get? name = some arc) (values : List Value) :
    (run registers (values.map (addition name))).2.get? name =
      some (values.foldl Arc.afterAdding arc) := by
  induction values generalizing registers arc with
  | nil => exact held
  | cons value rest ih =>
    obtain ⟨report, updated, stepped, updatedHolds, -⟩ := addition_run held value
    rw [List.map_cons, run, stepped, List.foldl_cons]
    exact ih updatedHolds

/-- What a call that adds a point to the arc `before` reports and leaves, in a run that ends with the
arc `final`. Truth values name angles, but containment tests refuse them. -/
structure AddsInRun (before : Arc) (value : Value) (report : Report) (after final : Arc) : Prop where
  succeeds_iff : (∃ answer, report.outcome = .ok answer) ↔ value.IsAngle
  unchanged_of_error : ∀ fault, report.outcome = .error fault → after = before
  contained : ∀ answer, report.outcome = .ok answer → value.kind ≠ .truth →
    final.containsPoint value = .ok true
  unchanged_of_contained : ∀ answer, report.outcome = .ok answer →
    before.containsPoint value = .ok true → after = before

namespace Arc

theorem Valid.addsInRun {before final : Arc} {value : Value} {report : Report}
    (valid : before.Valid) (reported : report.outcome = (fun _ => .nothing) <$> before.addPoint value)
    (grows : (before.afterAdding value).GrowsTo final) :
    AddsInRun before value report (before.afterAdding value) final := by
  cases added : before.addPoint value with
  | error fault =>
    rw [added] at reported
    have failed : report.outcome = .error fault := reported
    have noAngle : ¬ value.IsAngle := by
      rw [← valid.exists_addPoint_iff, added]
      rintro ⟨grown, succeeded⟩
      cases succeeded
    refine ⟨?_, fun _ _ => afterAdding_of_error added, ?_, ?_⟩
    · rw [failed]
      exact iff_of_false (fun ⟨_, succeeded⟩ => nomatch succeeded) noAngle
    · intro answer succeeded
      cases failed.symm.trans succeeded
    · intro answer succeeded
      cases failed.symm.trans succeeded
  | ok grown =>
    rw [added] at reported
    have succeeded : report.outcome = .ok .nothing := reported
    have isAngle : value.IsAngle := valid.exists_addPoint_iff.mp ⟨grown, added⟩
    rw [afterAdding_of_ok added] at grows ⊢
    obtain ⟨-, taken⟩ := valid.growsTo_addPoint added
    refine ⟨iff_of_true ⟨_, succeeded⟩ isAngle, ?_, ?_, ?_⟩
    · intro fault failed
      cases succeeded.symm.trans failed
    · intro answer _ notTruth
      exact (grows.valid.containsPoint_decides isAngle notTruth).eq_true_iff.mpr (grows.keeps taken)
    · intro answer _ contained
      obtain ⟨point, named, -⟩ := exists_of_bind_eq_ok contained
      obtain ⟨-, notTruth⟩ := Value.isAngle_of_point named
      have held := (valid.containsPoint_decides isAngle notTruth).eq_true_iff.mp contained
      exact valid.addPoint_of_mem added held

end Arc

/-- Through any calls that add points, some of which may fail, a register keeps a valid arc that
contains the first arc and every point of a call that succeeded, and is full only if that arc was. A
call that fails, or adds a point that the arc contains already, changes nothing. -/
theorem grows_by_points (valid : arc.Valid) (held : registers.get? name = some arc)
    (values : List Value) :
    ∃ final, (run registers (values.map (addition name))).2.get? name = some final ∧
      final.Valid ∧ final.contains arc = .ok true ∧ (final.isFull = true → arc.isFull = true) ∧
      ∀ earlier value later, values = earlier ++ value :: later →
        ∃ before report updated after,
          (run registers (earlier.map (addition name))).2.get? name = some before ∧
          (addition name value).run (run registers (earlier.map (addition name))).2 =
            (report, updated) ∧
          updated.get? name = some after ∧ AddsInRun before value report after final := by
  have grows := valid.growsTo_foldl values
  refine ⟨_, additions_run held values, grows.valid,
    (grows.valid.contains_decides valid).eq_true_iff.mpr grows.keeps, grows.isFull, ?_⟩
  rintro earlier value later rfl
  have beforeHeld := additions_run held earlier
  have beforeValid := (valid.growsTo_foldl earlier).valid
  obtain ⟨report, updated, stepped, afterHeld, reported⟩ := addition_run beforeHeld value
  have rest := (beforeValid.growsTo_afterAdding value).valid.growsTo_foldl later
  refine ⟨_, report, updated, _, beforeHeld, stepped, afterHeld, ?_⟩
  rw [List.foldl_append, List.foldl_cons]
  exact beforeValid.addsInRun reported rest

/-- An empty arc takes in the point at half a turn, by its other name, and keeps it through two calls
that fail and one that moves its upper end. -/
theorem grows_by_points_through_failures :
    Arc.empty.Valid ∧ (Registers.empty.set "arc" .empty).get? "arc" = some Arc.empty ∧
      (Value.number minusHalfTurn).IsAngle ∧
      ∃ final, (run (Registers.empty.set "arc" .empty)
          ([.number minusHalfTurn, .null, .number (Number.real .nan), .number (.integer 0)].map
            (addition "arc"))).2.get? "arc" = some final ∧
        final.Valid ∧ final.containsPoint (.number minusHalfTurn) = .ok true := by
  have held : (Registers.empty.set "arc" .empty).get? "arc" = some Arc.empty :=
    (Registers.empty.get?_set "arc" .empty "arc").trans (if_pos rfl)
  have isAngle := Value.minusHalfTurn_isAngle
  obtain ⟨final, finalHeld, valid, -, -, calls⟩ := grows_by_points Arc.empty_valid held
    [.number minusHalfTurn, .null, .number (Number.real .nan), .number (.integer 0)]
  obtain ⟨before, report, updated, after, -, -, -, adds⟩ :=
    calls [] (.number minusHalfTurn) _ rfl
  obtain ⟨answer, succeeded⟩ := adds.succeeds_iff.mpr isAngle
  exact ⟨Arc.empty_valid, held, isAngle, final, finalHeld, valid,
    adds.contained answer succeeded nofun⟩

/-!
## Additions are unions with a point
-/

namespace Arc

theorem Valid.union_single_eq_insert (valid : arc.Valid) {point : Value} (isAngle : point.IsAngle)
    (above : -halfCircle < point.exactValue) : arc.union ⟨point, point⟩ = arc.insert point := by
  have singleValid : (Arc.mk point point).Valid := valid_of_above isAngle isAngle above above
  have nonempty : (Arc.mk point point).isEmpty = false := by
    rw [← Bool.not_eq_true, singleValid.isEmpty_iff]
    rintro ⟨-, least⟩
    exact absurd least (ne_of_gt above)
  obtain ⟨holds, holdsIs, holdsMeans⟩ := valid.holds_decides isAngle
  rw [Arc.union, Arc.insert]
  simp only [nonempty, Bool.false_eq_true, ↓reduceIte, holdsIs, ok_bind, pure_eq_ok]
  by_cases held : holds = true
  · have inside : (Arc.mk point point).points ⊆ arc.points := by
      rw [single_points isAngle above, Set.singleton_subset_iff]
      exact mem_points_iff.mpr ⟨⟨above, isAngle.le_halfCircle⟩, holdsMeans.mp held⟩
    have contained := (valid.contains_decides singleValid).eq_true_iff.mpr inside
    simp only [held, ↓reduceIte, contained, ok_bind]
  · simp only [held, Bool.false_eq_true, ↓reduceIte]
    have free := mt holdsMeans.mpr held
    obtain ⟨reached, reachedIs, reachedMeans⟩ := singleValid.holds_decides valid.lo_isAngle
    rw [reachedIs, orM_ok, ok_bind]
    by_cases vanishing : arc.isEmpty = true
    · simp only [vanishing, Bool.true_or, ↓reduceIte]
    · have unreached : reached = false := by
        rw [← Bool.not_eq_true, reachedMeans]
        intro spanned
        have emptyIff := valid.isEmpty_iff
        have ends := valid.exactEnds
        unfold Spans at spanned free
        grind
      simp only [vanishing, unreached, Bool.or_false, Bool.false_eq_true, ↓reduceIte]
      rw [isNearerLo]
      cases point.forwardDistance arc.lo with
      | error fault => rfl
      | ok toLo =>
        cases arc.hi.forwardDistance point with
        | error fault => rfl
        | ok fromHi => rfl

theorem Valid.addPoint_eq_union (valid : arc.Valid) (value : Value) :
    arc.addPoint value = Arc.point value >>= arc.union := by
  rw [addPoint_eq, Arc.point]
  cases accepted : value.angle "p" with
  | error fault => rfl
  | ok angle =>
    obtain ⟨isAngle, above⟩ := Value.canonical_of_angle accepted
    exact (valid.union_single_eq_insert isAngle above).symm

end Arc

/-- A call that adds an angle in place succeeds, and leaves in its register the very arc that the union
with the arc of that point is. -/
theorem addition_leaves_union {value : Value} (valid : arc.Valid)
    (held : registers.get? name = some arc) (isAngle : value.IsAngle) :
    ∃ single united report updated, Arc.point value = .ok single ∧ arc.union single = .ok united ∧
      (addition name value).run registers = (report, updated) ∧
      report.outcome = .ok .nothing ∧ updated.get? name = some united := by
  obtain ⟨grown, added⟩ := valid.exists_addPoint_iff.mpr isAngle
  obtain ⟨report, updated, stepped, updatedHolds, reported⟩ := addition_run held value
  rw [Arc.afterAdding_of_ok added] at updatedHolds
  rw [added] at reported
  rw [valid.addPoint_eq_union value] at added
  obtain ⟨single, singleIs, united⟩ := exists_of_bind_eq_ok added
  exact ⟨single, grown, report, updated, singleIs, united, stepped, reported, updatedHolds⟩

/-- A point just below the arc from zero to half a turn moves the lower end. -/
theorem addition_leaves_union_below :
    let upper : Arc := ⟨.number (.integer 0), .number halfTurn⟩
    upper.Valid ∧ (Registers.empty.set "arc" upper).get? "arc" = some upper ∧
      (Value.number epsilon.neg).IsAngle ∧
      upper.containsPoint (.number epsilon.neg) = .ok false ∧
      ∃ single united report updated, Arc.point (.number epsilon.neg) = .ok single ∧
        upper.union single = .ok united ∧
        (addition "arc" (.number epsilon.neg)).run (Registers.empty.set "arc" upper) =
          (report, updated) ∧
        report.outcome = .ok .nothing ∧ updated.get? "arc" = some united := by
  intro upper
  have valid : upper.Valid := by
    decide +kernel
  have held : (Registers.empty.set "arc" upper).get? "arc" = some upper :=
    (Registers.empty.get?_set "arc" upper "arc").trans (if_pos rfl)
  have isAngle : (Value.number epsilon.neg).IsAngle := by
    decide +kernel
  have outside : upper.containsPoint (.number epsilon.neg) = .ok false := by
    decide +kernel
  exact ⟨valid, held, isAngle, outside, addition_leaves_union valid held isAngle⟩

end CircularArc
