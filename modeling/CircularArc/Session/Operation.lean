import CircularArc.Arc.Algebra
import CircularArc.Arc.Comparison
import CircularArc.Arc.Extension
import CircularArc.Session.Registers

/-!
# Operations on registers

A `Recipe` builds an arc, and an `Operation` is applied to the arc in a register. Most operations
give an answer; three change the arc in place. Some results come with a `Note` on how they came
about.
-/

set_option autoImplicit false

namespace CircularArc

inductive Recipe where
  | checked (lo hi : Value)
  | unchecked (lo hi : Value)
  | point (value : Value)
  | shortest (first second : Value)
  | empty
  | full

def Recipe.build : Recipe → Except Fault Arc
  | .checked lo hi => Arc.checked lo hi
  | .unchecked lo hi => .ok ⟨lo, hi⟩
  | .point value => Arc.point value
  | .shortest first second => Arc.shortest first second
  | .empty => .ok .empty
  | .full => .ok .full

inductive ArcSource where
  | built (recipe : Recipe)
  | register (name : String)

def ArcSource.resolve (registers : Registers) : ArcSource → Except Fault Arc
  | .built recipe => recipe.build
  | .register name => registers.read name

inductive Operand where
  | value (value : Value)
  | arc (source : ArcSource)

inductive Operation where
  | isValid
  | isFull
  | isEmpty
  | isInverted
  | bounds
  | endAt (index : Value)
  | text
  | hash
  | length
  | center
  | complementCenter
  | complement
  | holds (point : Value)
  | contains (operand : Operand)
  | interiorContains (operand : Operand)
  | same (operand : Operand)
  | intersects (other : ArcSource)
  | interiorIntersects (other : ArcSource)
  | union (other : ArcSource)
  | intersection (other : ArcSource)
  | directedDistance (other : ArcSource)
  | approxEquals (other : ArcSource) (tolerance : Value)
  | project (point : Value)
  | expanded (margin : Value)
  | addPoint (point : Value)
  | setLo (value : Value)
  | setHi (value : Value)

def Operation.isUpdate : Operation → Bool
  | .addPoint _ | .setLo _ | .setHi _ => true
  | _ => false

inductive Answer where
  | nothing
  | truth (value : Bool)
  | value (value : Value)
  | bounds (lo hi : Value)
  | text (content : String)
  | arc (arc : Arc)

inductive Note where
  | disjoint (arc other : Arc)
  | saturated (margin : Number) (arc : Arc)
  | collapsed (margin : Number) (arc : Arc)

def Note.message : Note → String
  | .disjoint arc other =>
    "intersection of disjoint intervals " ++ arc.text ++ " and " ++ other.text ++ " is empty"
  | .saturated margin arc =>
    "expanded(" ++ margin.text ++ ") of " ++ arc.text ++ " saturates to full"
  | .collapsed margin arc =>
    "expanded(" ++ margin.text ++ ") of " ++ arc.text ++ " collapses to empty"

def Overlap.note? (arc other : Arc) : Overlap → Option Note
  | .disjoint => some (.disjoint arc other)
  | _ => none

def Expansion.note? (arc : Arc) (margin : Number) : Expansion → Option Note
  | .saturated => some (.saturated margin arc)
  | .collapsed => some (.collapsed margin arc)
  | _ => none

/-- What applying an operation gives: an outcome, the arc afterwards, and perhaps a note. -/
structure Effect where
  outcome : Except Fault Answer
  arc : Arc
  note? : Option Note

namespace Effect

def query (arc : Arc) (outcome : Except Fault Answer) : Effect := ⟨outcome, arc, none⟩

def noted (arc : Arc) : Except Fault (Answer × Option Note) → Effect
  | .ok (answer, note?) => ⟨.ok answer, arc, note?⟩
  | .error fault => query arc (.error fault)

def update (arc : Arc) (change : Update Unit) : Effect :=
  let (outcome, changed) := change.applyTo arc
  ⟨(fun _ => .nothing) <$> outcome, changed, none⟩

end Effect

/-- Apply an operation to the arc in a register. Operands are resolved first. -/
def Operation.apply (registers : Registers) (arc : Arc) : Operation → Effect
  | .isValid => .query arc do return .truth (← arc.isValid)
  | .isFull => .query arc (.ok (.truth arc.isFull))
  | .isEmpty => .query arc (.ok (.truth arc.isEmpty))
  | .isInverted => .query arc do return .truth (← arc.isInverted)
  | .bounds => .query arc (.ok (.bounds arc.lo arc.hi))
  | .endAt index => .query arc do return .value (← arc.endAt index)
  | .text => .query arc (.ok (.text arc.text))
  | .hash => .query arc (.error .unhashable)
  | .length => .query arc do return .value (← arc.length)
  | .center => .query arc do return .value (← arc.center)
  | .complementCenter => .query arc do return .value (← arc.complementCenter)
  | .complement => .query arc (.ok (.arc arc.complement))
  | .holds point => .query arc do return .truth (← arc.holds point)
  | .contains (.value value) => .query arc do return .truth (← arc.containsPoint value)
  | .contains (.arc source) => .query arc do
    let other ← source.resolve registers
    return .truth (← arc.contains other)
  | .interiorContains (.value value) => .query arc do
    return .truth (← arc.interiorContainsPoint value)
  | .interiorContains (.arc source) => .query arc do
    let other ← source.resolve registers
    return .truth (← arc.interiorContains other)
  | .same (.value _) => .query arc (.ok (.truth false))
  | .same (.arc source) => .query arc do
    let other ← source.resolve registers
    return .truth (arc.same other)
  | .intersects source => .query arc do
    let other ← source.resolve registers
    return .truth (← arc.intersects other)
  | .interiorIntersects source => .query arc do
    let other ← source.resolve registers
    return .truth (← arc.interiorIntersects other)
  | .union source => .query arc do
    let other ← source.resolve registers
    return .arc (← arc.union other)
  | .intersection source => .noted arc do
    let other ← source.resolve registers
    let overlap ← arc.overlap other
    return (.arc overlap.toArc, overlap.note? arc other)
  | .directedDistance source => .query arc do
    let other ← source.resolve registers
    return .value (← arc.directedDistance other)
  | .approxEquals source tolerance => .query arc do
    let other ← source.resolve registers
    return .truth (← arc.approxEquals other tolerance)
  | .project point => .query arc do return .value (← arc.project point)
  | .expanded value => .noted arc do
    let margin ← value.margin
    let expansion ← arc.expansion margin
    return (.arc (expansion.toArc arc), expansion.note? arc margin)
  | .addPoint point => .update arc (.addPoint point)
  | .setLo value => .update arc (.setLo value)
  | .setHi value => .update arc (.setHi value)

end CircularArc
