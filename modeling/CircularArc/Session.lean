import CircularArc.Session.Operation

/-!
# Sessions

A session runs a list of steps on registers. A step builds an arc in a register or applies an
operation to the arc in a register. A step that fails reports its fault, and the arc as the operation
leaves it.
-/

set_option autoImplicit false

namespace CircularArc

inductive Step where
  | make (recipe : Recipe) (target : String)
  /-- Apply an operation to the arc in a register and store an arc that it answers, if a target is
  given. -/
  | apply (register : String) (operation : Operation) (target? : Option String)

structure Report where
  outcome : Except Fault Answer
  /-- After an operation that changes its arc, successful or not: the arc, if the register is set. -/
  state? : Option Arc
  note? : Option Note

def Effect.store (effect : Effect) (target? : Option String) (registers : Registers) : Registers :=
  match target?, effect.outcome with
  | some target, .ok (.arc result) => registers.set target result
  | _, _ => registers

def Step.run (registers : Registers) : Step → Report × Registers
  | .make recipe target =>
    match recipe.build with
    | .error fault => (⟨.error fault, none, none⟩, registers)
    | .ok arc => (⟨.ok (.arc arc), none, none⟩, registers.set target arc)
  | .apply register operation target? =>
    match registers.read register with
    | .error fault => (⟨.error fault, none, none⟩, registers)
    | .ok arc =>
      let effect := operation.apply registers arc
      let state? := if operation.isUpdate then some effect.arc else none
      let updated := if operation.isUpdate then registers.set register effect.arc else registers
      (⟨effect.outcome, state?, effect.note?⟩, effect.store target? updated)

def run (registers : Registers) : List Step → List Report × Registers
  | [] => ([], registers)
  | step :: rest =>
    let (report, next) := step.run registers
    let (reports, final) := run next rest
    (report :: reports, final)

end CircularArc
