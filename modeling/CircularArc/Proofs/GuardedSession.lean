import CircularArc.Proofs.Growth
import CircularArc.Proofs.Intersection
import CircularArc.Proofs.Union
import CircularArc.Session.Guarded

/-!
# Guarded sessions keep all registers valid

An operation on valid arcs leaves a valid arc and answers only valid arcs, so one guarded step keeps
all registers valid, and by induction so does every guarded session.
-/

set_option autoImplicit false

namespace CircularArc

theorem Recipe.IsGuarded.build_valid {recipe : Recipe} {arc : Arc} (guarded : recipe.IsGuarded)
    (built : recipe.build = .ok arc) : arc.Valid := by
  cases recipe with
  | checked => exact Arc.checked_valid built
  | unchecked => exact guarded.elim
  | point => exact Arc.point_valid built
  | shortest => exact Arc.shortest_valid built
  | empty =>
    cases built
    exact Arc.empty_valid
  | full =>
    cases built
    exact Arc.full_valid

variable {registers : Registers}

theorem Registers.AllValid.read (allValid : registers.AllValid) {name : String} {arc : Arc}
    (found : registers.read name = .ok arc) : arc.Valid := by
  unfold Registers.read at found
  cases held : registers.get? name with
  | none => simp [held] at found
  | some inside =>
    rw [held] at found
    cases found
    exact allValid name _ held

theorem ArcSource.IsGuarded.resolve_valid {source : ArcSource} {arc : Arc}
    (guarded : source.IsGuarded) (allValid : registers.AllValid)
    (found : source.resolve registers = .ok arc) : arc.Valid := by
  cases source with
  | built recipe => exact Recipe.IsGuarded.build_valid guarded found
  | register name => exact allValid.read found

/-- The arc that an effect leaves and an arc that it answers are valid. -/
structure Effect.Valid (effect : Effect) : Prop where
  arc_valid : effect.arc.Valid
  answer_valid : ∀ result, effect.outcome = .ok (.arc result) → result.Valid

variable {arc : Arc}

theorem Effect.noted_valid {noted : Except Fault (Answer × Option Note)} (arcValid : arc.Valid)
    (answerValid : ∀ result note?, noted = .ok (.arc result, note?) → result.Valid) :
    (Effect.noted arc noted).Valid := by
  cases noted with
  | error fault => exact ⟨arcValid, nofun⟩
  | ok answered =>
    obtain ⟨answer, note?⟩ := answered
    refine ⟨arcValid, fun result same => answerValid result note? ?_⟩
    cases same
    rfl

theorem Effect.addPoint_valid (arcValid : arc.Valid) (value : Value) :
    (Effect.update arc (.addPoint value)).Valid := by
  unfold Effect.update
  rw [Arc.addPoint_applyTo]
  cases added : arc.addPoint value with
  | error fault => exact ⟨arcValid, nofun⟩
  | ok grown => exact ⟨arcValid.addPoint added, nofun⟩

theorem Operation.IsGuarded.apply_valid {operation : Operation} (guarded : operation.IsGuarded)
    (allValid : registers.AllValid) (arcValid : arc.Valid) :
    (operation.apply registers arc).Valid := by
  cases operation with
  | isFull | isEmpty | bounds | text | hash => exact ⟨arcValid, nofun⟩
  | isValid | isInverted | endAt | length | center | complementCenter | holds | project =>
    refine ⟨arcValid, fun result answered => ?_⟩
    obtain ⟨found, -, answered⟩ := exists_of_bind_eq_ok answered
    cases answered
  | contains operand | interiorContains operand =>
    cases operand with
    | value =>
      refine ⟨arcValid, fun result answered => ?_⟩
      obtain ⟨found, -, answered⟩ := exists_of_bind_eq_ok answered
      cases answered
    | arc source =>
      refine ⟨arcValid, fun result answered => ?_⟩
      obtain ⟨other, -, answered⟩ := exists_of_bind_eq_ok answered
      obtain ⟨found, -, answered⟩ := exists_of_bind_eq_ok answered
      cases answered
  | same operand =>
    cases operand with
    | value => exact ⟨arcValid, nofun⟩
    | arc source =>
      refine ⟨arcValid, fun result answered => ?_⟩
      obtain ⟨other, -, answered⟩ := exists_of_bind_eq_ok answered
      cases answered
  | intersects | interiorIntersects | directedDistance | approxEquals =>
    refine ⟨arcValid, fun result answered => ?_⟩
    obtain ⟨other, -, answered⟩ := exists_of_bind_eq_ok answered
    obtain ⟨found, -, answered⟩ := exists_of_bind_eq_ok answered
    cases answered
  | complement =>
    refine ⟨arcValid, fun result answered => ?_⟩
    cases answered
    exact arcValid.complement
  | union source =>
    refine ⟨arcValid, fun result answered => ?_⟩
    obtain ⟨other, otherIs, answered⟩ := exists_of_bind_eq_ok answered
    obtain ⟨cover, united, answered⟩ := exists_of_bind_eq_ok answered
    cases answered
    have otherValid := ArcSource.IsGuarded.resolve_valid guarded allValid otherIs
    obtain ⟨_, unitedToo, outcome⟩ := arcValid.union_cases otherValid
    cases united.symm.trans unitedToo
    exact outcome.valid arcValid otherValid
  | intersection source =>
    refine Effect.noted_valid arcValid fun result note? answered => ?_
    obtain ⟨other, otherIs, answered⟩ := exists_of_bind_eq_ok answered
    obtain ⟨overlap, found, answered⟩ := exists_of_bind_eq_ok answered
    cases answered
    have otherValid := ArcSource.IsGuarded.resolve_valid guarded allValid otherIs
    exact (arcValid.overlap_cases otherValid found).valid arcValid otherValid
  | expanded value =>
    refine Effect.noted_valid arcValid fun result note? answered => ?_
    obtain ⟨margin, -, answered⟩ := exists_of_bind_eq_ok answered
    obtain ⟨expansion, found, answered⟩ := exists_of_bind_eq_ok answered
    cases answered
    exact arcValid.expansion found
  | addPoint value => exact Effect.addPoint_valid arcValid value
  | setLo | setHi => exact guarded.elim

theorem Effect.Valid.store_allValid {effect : Effect} (valid : effect.Valid)
    (allValid : registers.AllValid) (target? : Option String) :
    (effect.store target? registers).AllValid := by
  unfold Effect.store
  split
  · rename_i target result answered
    exact allValid.set target (valid.answer_valid result answered)
  · exact allValid

/-- One guarded step keeps all registers valid, whether it succeeds or fails. -/
theorem Step.IsGuarded.run_allValid {step : Step} (guarded : step.IsGuarded)
    (allValid : registers.AllValid) : (step.run registers).2.AllValid := by
  cases step with
  | make recipe target =>
    simp only [Step.run]
    cases built : recipe.build with
    | error fault => exact allValid
    | ok arc => exact allValid.set target (Recipe.IsGuarded.build_valid guarded built)
  | apply register operation target? =>
    simp only [Step.run]
    cases found : registers.read register with
    | error fault => exact allValid
    | ok arc =>
      have effectValid :=
        Operation.IsGuarded.apply_valid guarded allValid (allValid.read found)
      refine effectValid.store_allValid ?_ target?
      split
      · exact allValid.set register effectValid.arc_valid
      · exact allValid

theorem run_allValid {steps : List Step} (guarded : ∀ step ∈ steps, step.IsGuarded)
    (allValid : registers.AllValid) : (run registers steps).2.AllValid := by
  induction steps generalizing registers with
  | nil => exact allValid
  | cons step rest ih =>
    have stepGuarded := guarded step List.mem_cons_self
    have restGuarded : ∀ later ∈ rest, later.IsGuarded := fun later member =>
      guarded later (List.mem_cons_of_mem step member)
    exact ih restGuarded (stepGuarded.run_allValid allValid)

/-- In a guarded session every register holds a valid arc after every step. -/
theorem guarded_session_stays_valid {steps : List Step}
    (guarded : ∀ step ∈ steps, step.IsGuarded) {taken : List Step} (reached : taken <+: steps)
    {name : String} {arc : Arc} (held : (run .empty taken).2.get? name = some arc) : arc.Valid := by
  have takenGuarded : ∀ step ∈ taken, step.IsGuarded := fun step member =>
    guarded step (reached.subset member)
  exact run_allValid takenGuarded Registers.empty_allValid name arc held

/-- A session around half a turn, with the full circle as an operand and one step that fails. -/
def seamSession : List Step :=
  [.make (.point (.number minusHalfTurn)) "seam", .make .full "whole",
    .apply "seam" (.addPoint (.number (Number.real .nan))) none,
    .apply "seam" (.addPoint (.number epsilon)) none,
    .apply "seam" .complement (some "rest"),
    .apply "rest" (.expanded (.number epsilon.neg)) (some "shrunk"),
    .apply "shrunk" (.intersection (.register "whole")) (some "common")]

theorem guarded_session_stays_valid_at_seam :
    (∀ step ∈ seamSession, step.IsGuarded) ∧ seamSession <+: seamSession ∧
      ∃ arc, (run .empty seamSession).2.get? "common" = some arc ∧ arc.Valid := by
  have guarded : ∀ step ∈ seamSession, step.IsGuarded := by
    simp [seamSession, Step.IsGuarded, Recipe.IsGuarded, Operation.IsGuarded, ArcSource.IsGuarded]
  have set : ((run .empty seamSession).2.get? "common").isSome = true := by
    decide +kernel
  obtain ⟨arc, held⟩ := Option.isSome_iff_exists.mp set
  exact ⟨guarded, List.prefix_rfl, arc, held,
    guarded_session_stays_valid guarded List.prefix_rfl held⟩

end CircularArc
