import CircularArc.Arc

/-!
# Registers

Named registers that hold arcs, kept in the order of their names. `Registers.get?_set` says what a
write changes: the register that is set, and nothing else.
-/

set_option autoImplicit false

namespace CircularArc

structure Registers where
  entries : List (String × Arc)

def insertEntry (name : String) (arc : Arc) : List (String × Arc) → List (String × Arc)
  | [] => [(name, arc)]
  | (other, held) :: rest =>
    if name = other then (name, arc) :: rest
    else if name < other then (name, arc) :: (other, held) :: rest
    else (other, held) :: insertEntry name arc rest

namespace Registers

def empty : Registers := ⟨[]⟩

def get? (registers : Registers) (name : String) : Option Arc := registers.entries.lookup name

def set (registers : Registers) (name : String) (arc : Arc) : Registers :=
  ⟨insertEntry name arc registers.entries⟩

private theorem lookup_entry (name : String) (arc : Arc) (wanted : String)
    (rest : List (String × Arc)) :
    ((name, arc) :: rest).lookup wanted =
      if wanted = name then some arc else rest.lookup wanted := by
  by_cases found : wanted = name
  · simp [found]
  · have differs : (wanted == name) = false := by simpa using found
    rw [List.lookup_cons, differs]
    simp only [found, ↓reduceIte]

private theorem lookup_insertEntry (name : String) (arc : Arc) (wanted : String)
    (entries : List (String × Arc)) :
    (insertEntry name arc entries).lookup wanted =
      if wanted = name then some arc else entries.lookup wanted := by
  induction entries with
  | nil => exact lookup_entry name arc wanted []
  | cons entry rest ih =>
    obtain ⟨other, held⟩ := entry
    unfold insertEntry
    split
    · rename_i replaces
      subst replaces
      simp only [lookup_entry]
      split <;> rfl
    · rename_i differs
      split
      · simp only [lookup_entry]
      · simp only [lookup_entry, ih]
        by_cases here : wanted = other
        · subst here
          have distinct : wanted ≠ name := fun equal => differs equal.symm
          simp [distinct]
        · simp [here]

theorem get?_set (registers : Registers) (name : String) (arc : Arc) (wanted : String) :
    (registers.set name arc).get? wanted =
      if wanted = name then some arc else registers.get? wanted :=
  lookup_insertEntry name arc wanted registers.entries

@[simp] theorem get?_empty (wanted : String) : empty.get? wanted = none := rfl

def read (registers : Registers) (name : String) : Except Fault Arc :=
  match registers.get? name with
  | some arc => .ok arc
  | none => .error (.unsetRegister name)

end Registers

end CircularArc
