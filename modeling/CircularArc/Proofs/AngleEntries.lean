import CircularArc.Proofs.CheckedEnds
import CircularArc.Proofs.PointGrowth

/-!
# Where angles enter

Seven operations take an angle as a value of any kind, and each checks it in its own way. They draw
one line through all values but the truth values, which are refused by the checked constructor and by
the two containment tests, and taken for 0 and 1 by the other four.
-/

set_option autoImplicit false

namespace CircularArc

/-- The operations that take an angle as a value of any kind. -/
inductive AngleEntry where
  | checked
  | point
  | shortest
  | contains
  | interiorContains
  | project
  | addPoint
deriving DecidableEq

namespace AngleEntry

/-- Whether an operation, on the arc if it is asked of one, succeeds with a value for all angles that
it takes. -/
def accepts (entry : AngleEntry) (arc : Arc) (value : Value) : Bool :=
  match entry with
  | .checked => (Arc.checked value value).isOk
  | .point => (Arc.point value).isOk
  | .shortest => (Arc.shortest value value).isOk
  | .contains => (arc.containsPoint value).isOk
  | .interiorContains => (arc.interiorContainsPoint value).isOk
  | .project => (arc.project value).isOk
  | .addPoint => (arc.addPoint value).isOk

/-- Whether an operation refuses truth values for their kind. -/
def refusesTruth : AngleEntry → Bool
  | .checked | .contains | .interiorContains => true
  | .point | .shortest | .project | .addPoint => false

end AngleEntry

theorem isOk_iff {α : Type} {result : Except Fault α} :
    result.isOk = true ↔ ∃ value, result = .ok value := by
  cases result <;> simp [Except.isOk, Except.toBool]

namespace Value

variable {value : Value}

theorem isAngle_of_truth (truth : value.kind = .truth) : value.IsAngle := by
  cases value with
  | null | text | list => cases truth
  | number content =>
    cases content with
    | integer | real => cases truth
    | truth content => cases content <;> decide +kernel

theorem exists_angle_bind_iff {α : Type} {name : String} {next : Number → Except Fault α}
    (goesOn : ∀ angle, (number angle).IsAngle → ∃ result, next angle = .ok result) :
    (∃ result, value.angle name >>= next = .ok result) ↔ value.IsAngle := by
  constructor
  · rintro ⟨result, succeeds⟩
    obtain ⟨angle, accepted, -⟩ := exists_of_bind_eq_ok succeeds
    exact (angle_eq_ok_iff.mp accepted).2
  · intro isAngle
    obtain ⟨angle, rfl⟩ := isAngle.eq_number
    rw [angle_eq_ok_iff.mpr ⟨rfl, isAngle⟩, ok_bind]
    exact goesOn angle isAngle

theorem exists_point_bind_iff {α : Type} {next : Number → Except Fault α}
    (goesOn : ∀ point, (number point).IsAngle → ∃ result, next point = .ok result) :
    (∃ result, value.point >>= next = .ok result) ↔ value.IsAngle ∧ value.kind ≠ .truth := by
  constructor
  · rintro ⟨result, succeeds⟩
    obtain ⟨point, named, -⟩ := exists_of_bind_eq_ok succeeds
    exact isAngle_of_point named
  · rintro ⟨isAngle, notTruth⟩
    obtain ⟨point, named, pointAngle, -⟩ := isAngle.point notTruth
    rw [named, ok_bind]
    exact goesOn point pointAngle

end Value

namespace Arc

variable {arc : Arc} {value : Value}

theorem exists_point_iff : (∃ built, point value = .ok built) ↔ value.IsAngle :=
  Value.exists_angle_bind_iff fun _ _ => ⟨_, rfl⟩

theorem exists_shortest_iff :
    (∃ built, shortest value value = .ok built) ↔ value.IsAngle := by
  constructor
  · rintro ⟨built, succeeds⟩
    obtain ⟨angle, accepted, -⟩ := exists_of_bind_eq_ok succeeds
    exact (Value.angle_eq_ok_iff.mp accepted).2
  · intro isAngle
    refine (Value.exists_angle_bind_iff fun first firstAngle => ?_).mpr isAngle
    refine (Value.exists_angle_bind_iff fun second secondAngle => ?_).mpr isAngle
    obtain ⟨distance, distanceIs, -⟩ := (Number.canonical_spec firstAngle).1.forwardDistance
      (Number.canonical_spec secondAngle).1
    rw [Value.forwardDistance_number] at distanceIs
    simp only [distanceIs, ok_bind, pure_eq_ok, ← apply_ite Except.ok]
    exact ⟨_, rfl⟩

theorem Valid.exists_containsPoint_iff (valid : arc.Valid) :
    (∃ held, arc.containsPoint value = .ok held) ↔ value.IsAngle ∧ value.kind ≠ .truth := by
  refine Value.exists_point_bind_iff fun point isAngle => ?_
  obtain ⟨held, heldIs, -⟩ := valid.holds_decides isAngle
  exact ⟨held, heldIs⟩

theorem Valid.exists_interiorContainsPoint_iff (valid : arc.Valid) :
    (∃ held, arc.interiorContainsPoint value = .ok held) ↔
      value.IsAngle ∧ value.kind ≠ .truth := by
  refine Value.exists_point_bind_iff fun point isAngle => ?_
  obtain ⟨held, heldIs, -⟩ := valid.interiorHolds_ends isAngle
  exact ⟨held, heldIs⟩

theorem Valid.exists_project_iff (valid : arc.Valid) (nonempty : arc.isEmpty = false) :
    (∃ nearest, arc.project value = .ok nearest) ↔ value.IsAngle := by
  rw [project, nonempty, if_neg Bool.false_ne_true]
  refine Value.exists_angle_bind_iff fun angle isAngle => ?_
  obtain ⟨canonicalAngle, -⟩ := Number.canonical_spec isAngle
  obtain ⟨held, heldIs, -⟩ := valid.holds_decides canonicalAngle
  obtain ⟨nearer, nearerIs⟩ := valid.exists_isNearerLo canonicalAngle
  simp only [heldIs, nearerIs, ok_bind, pure_eq_ok, ← apply_ite Except.ok]
  exact ⟨_, rfl⟩

/-- What each operation accepts. -/
theorem Valid.accepts_iff (valid : arc.Valid) (nonempty : arc.isEmpty = false) (entry : AngleEntry) :
    entry.accepts arc value = true ↔
      value.IsAngle ∧ (entry.refusesTruth = true → value.kind ≠ .truth) := by
  cases entry with
  | checked =>
    simp only [AngleEntry.accepts, AngleEntry.refusesTruth, isOk_iff, exists_checked_iff, and_self,
      Value.isEnd_iff, forall_const]
  | point =>
    simp only [AngleEntry.accepts, AngleEntry.refusesTruth, isOk_iff, exists_point_iff,
      Bool.false_eq_true, false_implies, and_true]
  | shortest =>
    simp only [AngleEntry.accepts, AngleEntry.refusesTruth, isOk_iff, exists_shortest_iff,
      Bool.false_eq_true, false_implies, and_true]
  | contains =>
    simp only [AngleEntry.accepts, AngleEntry.refusesTruth, isOk_iff, valid.exists_containsPoint_iff,
      forall_const]
  | interiorContains =>
    simp only [AngleEntry.accepts, AngleEntry.refusesTruth, isOk_iff,
      valid.exists_interiorContainsPoint_iff, forall_const]
  | project =>
    simp only [AngleEntry.accepts, AngleEntry.refusesTruth, isOk_iff,
      valid.exists_project_iff nonempty, Bool.false_eq_true, false_implies, and_true]
  | addPoint =>
    simp only [AngleEntry.accepts, AngleEntry.refusesTruth, isOk_iff, valid.exists_addPoint_iff,
      Bool.false_eq_true, false_implies, and_true]

/-- All operations accept exactly the angles among the values that are no truth values. Truth values
are all angles, but three operations refuse them. -/
theorem Valid.entries_accept_angles (valid : arc.Valid) (nonempty : arc.isEmpty = false)
    (value : Value) :
    (value.kind ≠ .truth → ∀ entry : AngleEntry,
      entry.accepts arc value = decide value.IsAngle) ∧
      (value.kind = .truth → ∀ entry : AngleEntry,
        entry.accepts arc value = !entry.refusesTruth) := by
  constructor
  · intro notTruth entry
    rw [Bool.eq_iff_iff, valid.accepts_iff nonempty, decide_eq_true_eq]
    exact and_iff_left fun _ => notTruth
  · intro truth entry
    rw [Bool.eq_iff_iff, valid.accepts_iff nonempty, Bool.not_eq_true', ← Bool.not_eq_true]
    simp only [Value.isAngle_of_truth truth, truth, true_and, ne_eq, not_true_eq_false, imp_false]

theorem Valid.entries_accept_angles_on_full :
    full.Valid ∧ full.isEmpty = false ∧ (Value.number minusHalfTurn).kind ≠ .truth ∧
      (Value.number (.truth false)).kind = .truth ∧
      (∀ entry : AngleEntry,
        entry.accepts full minusHalfTurn = decide (Value.number minusHalfTurn).IsAngle) ∧
      ∀ entry : AngleEntry, entry.accepts full (.number (.truth false)) = !entry.refusesTruth := by
  have nonempty : full.isEmpty = false := by decide +kernel
  have ofReal := full_valid.entries_accept_angles nonempty minusHalfTurn
  have ofTruth := full_valid.entries_accept_angles nonempty (.number (.truth false))
  exact ⟨full_valid, nonempty, nofun, rfl, ofReal.1 nofun, ofTruth.2 rfl⟩

/-- The full circle holds the point of a truth value that it refuses to look for. -/
theorem entries_disagree_on_truth :
    full.Valid ∧ full.isEmpty = false ∧
      AngleEntry.addPoint.accepts full (.number (.truth true)) = true ∧
      AngleEntry.contains.accepts full (.number (.truth true)) = false := by
  refine ⟨full_valid, ?_, ?_, ?_⟩ <;> decide +kernel

end Arc

end CircularArc
