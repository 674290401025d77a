import CircularArc.Arc.Valid
import CircularArc.Session

/-!
# Guarded sessions

A guarded step never takes ends on trust: it builds arcs only from checked ends, from points, or as
the empty arc or the full circle, and it assigns no end. `Registers.AllValid` says that every
register holds a valid arc.
-/

set_option autoImplicit false

namespace CircularArc

def Recipe.IsGuarded : Recipe → Prop
  | .unchecked .. => False
  | _ => True

def ArcSource.IsGuarded : ArcSource → Prop
  | .built recipe => recipe.IsGuarded
  | .register _ => True

def Operation.IsGuarded : Operation → Prop
  | .setLo _ | .setHi _ => False
  | .union source | .intersection source => source.IsGuarded
  | _ => True

def Step.IsGuarded : Step → Prop
  | .make recipe _ => recipe.IsGuarded
  | .apply _ operation _ => operation.IsGuarded

def Registers.AllValid (registers : Registers) : Prop :=
  ∀ name arc, registers.get? name = some arc → arc.Valid

theorem Registers.empty_allValid : Registers.empty.AllValid := by
  intro name arc found
  rw [get?_empty] at found
  cases found

theorem Registers.AllValid.set {registers : Registers} (allValid : registers.AllValid)
    (name : String) {arc : Arc} (valid : arc.Valid) : (registers.set name arc).AllValid := by
  intro wanted held found
  rw [get?_set] at found
  split at found
  · cases found
    exact valid
  · exact allValid wanted held found

end CircularArc
