import CircularArc.Arc.Containment

/-!
# Arcs with numeric ends

Between numbers no comparison fails, so on arcs with numeric ends every test succeeds and comes down
to comparisons of positions.
-/

set_option autoImplicit false

namespace CircularArc

namespace Arc

theorem isInverted_number (lo hi : Number) : (Arc.mk lo hi).isInverted = .ok (hi.lt lo) :=
  Value.gt_number lo hi

theorem isValid_number (lo hi : Number) :
    (Arc.mk lo hi).isValid =
      .ok (if lo.exceedsHalfTurn || hi.exceedsHalfTurn then false
        else !(lo.same minusHalfTurn && !hi.same halfTurn)
          && !(hi.same minusHalfTurn && !lo.same halfTurn)) := by
  simp only [isValid, isValidPair, Value.exceedsHalfTurn_number, orM_ok, ok_bind, pure_eq_ok,
    Value.same_number]
  split <;> rfl

theorem holds_number (lo hi point : Number) :
    (Arc.mk lo hi).holds point =
      .ok (if hi.lt lo then (lo.le point || point.le hi) && !(Arc.mk lo hi).isEmpty
        else lo.le point && point.le hi) := by
  simp only [holds, isInverted_number, ok_bind, pure_eq_ok, Value.le_number, Value.ge_number,
    orM_ok, andM_ok]
  split <;> rfl

theorem interiorHolds_number (lo hi point : Number) :
    (Arc.mk lo hi).interiorHolds point =
      .ok (if hi.lt lo then lo.lt point || point.lt hi
        else lo.lt point && point.lt hi || (Arc.mk lo hi).isFull) := by
  simp only [interiorHolds, isInverted_number, ok_bind, pure_eq_ok, Value.lt_number,
    Value.gt_number, orM_ok, andM_ok]
  split <;> rfl

theorem contains_number (lo hi otherLo otherHi : Number) :
    (Arc.mk lo hi).contains (Arc.mk otherLo otherHi) =
      .ok (if hi.lt lo then
          if otherHi.lt otherLo then lo.le otherLo && otherHi.le hi
          else (lo.le otherLo || otherHi.le hi) && !(Arc.mk lo hi).isEmpty
        else if otherHi.lt otherLo then (Arc.mk lo hi).isFull || (Arc.mk otherLo otherHi).isEmpty
        else lo.le otherLo && otherHi.le hi) := by
  simp only [contains, isInverted_number, ok_bind, pure_eq_ok, Value.le_number, Value.ge_number,
    orM_ok, andM_ok]
  split <;> split <;> rfl

theorem interiorContains_number (lo hi otherLo otherHi : Number) :
    (Arc.mk lo hi).interiorContains (Arc.mk otherLo otherHi) =
      .ok (if hi.lt lo then
          if otherHi.lt otherLo then
            lo.lt otherLo && otherHi.lt hi || (Arc.mk otherLo otherHi).isEmpty
          else lo.lt otherLo || otherHi.lt hi
        else if otherHi.lt otherLo then (Arc.mk lo hi).isFull || (Arc.mk otherLo otherHi).isEmpty
        else lo.lt otherLo && otherHi.lt hi || (Arc.mk lo hi).isFull) := by
  simp only [interiorContains, isInverted_number, ok_bind, pure_eq_ok, Value.lt_number,
    Value.gt_number, orM_ok, andM_ok]
  split <;> split <;> rfl

theorem intersects_number (lo hi otherLo otherHi : Number) :
    (Arc.mk lo hi).intersects (Arc.mk otherLo otherHi) =
      .ok (if (Arc.mk lo hi).isEmpty || (Arc.mk otherLo otherHi).isEmpty then false
        else if hi.lt lo then otherHi.lt otherLo || (otherLo.le hi || lo.le otherHi)
        else if otherHi.lt otherLo then otherLo.le hi || lo.le otherHi
        else otherLo.le hi && lo.le otherHi) := by
  simp only [intersects, isInverted_number, ok_bind, pure_eq_ok, Value.le_number, Value.ge_number,
    orM_ok, andM_ok]
  split
  · rfl
  · split
    · rfl
    · split <;> rfl

theorem interiorIntersects_number (lo hi otherLo otherHi : Number) :
    (Arc.mk lo hi).interiorIntersects (Arc.mk otherLo otherHi) =
      .ok (if (Arc.mk lo hi).isEmpty || (Arc.mk otherLo otherHi).isEmpty || lo.same hi then false
        else if hi.lt lo then otherHi.lt otherLo || (otherLo.lt hi || lo.lt otherHi)
        else if otherHi.lt otherLo then otherLo.lt hi || lo.lt otherHi
        else otherLo.lt hi && lo.lt otherHi || (Arc.mk lo hi).isFull) := by
  simp only [interiorIntersects, isInverted_number, ok_bind, pure_eq_ok, Value.lt_number,
    Value.gt_number, Value.same_number, orM_ok, andM_ok]
  split
  · rfl
  · split
    · rfl
    · split <;> rfl

end Arc

end CircularArc
