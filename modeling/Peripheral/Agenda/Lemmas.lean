import Peripheral.Agenda

/-!
# What the operations of the agenda do to its queue and its clock

* `isActive_iff` : a unit is pending exactly when it is among the `units`;
* `units_insert`, `units_remove`, `units_of_pop?` : insertion puts a unit somewhere among the others
  and leaves their order, removal erases it, popping takes the first;
* `units_consume`, `units_settle`, `units_rearm` : the rest leaves the queue alone;
* `elapsedWrapping_consume`, `elapsedWrapping_settle` : spending ticks adds them to simulated time,
  folding them in adds nothing.
-/

namespace Peripheral.Agenda

/-! ## The queue -/

@[simp] theorem isActive_iff {u : UnitId} {a : Agenda} : a.isActive u ↔ u ∈ a.units := by
  simp [isActive, units]

@[simp] theorem units_consume (ticks : Int32) (a : Agenda) :
    (a.consume ticks).units = a.units := rfl

@[simp] theorem units_settle (a : Agenda) : a.settle.units = a.units := by
  unfold settle units
  cases a.queue <;> simp

@[simp] theorem units_rearm (a : Agenda) : a.rearm.units = a.units := by
  unfold rearm units
  cases a.queue <;> simp

theorem map_unit_unlink (u : UnitId) (q : List Entry) :
    (unlink u q).map Entry.unit = (q.map Entry.unit).erase u := by
  fun_induction unlink u q <;> grind

theorem map_unit_place (u : UnitId) (ticks passed : Int32) (q : List Entry) :
    ∃ before after, q.map Entry.unit = before ++ after ∧
      (place u ticks passed q).map Entry.unit = before ++ u :: after := by
  fun_induction place u ticks passed q with
  | case1 passed => exact ⟨[], [], by simp⟩
  | case2 passed e rest reached soon => exact ⟨[], e.unit :: rest.map Entry.unit, by simp⟩
  | case3 passed e rest reached late ih =>
    obtain ⟨before, after, split, placed⟩ := ih
    exact ⟨e.unit :: before, after, by simp [split], by simp [placed]⟩

theorem units_insert (u : UnitId) (ticks : Int32) (a : Agenda) :
    ∃ before after, a.units = before ++ after ∧
      (a.insert u ticks).units = before ++ u :: after := by
  obtain ⟨before, after, split, placed⟩ := map_unit_place u (max ticks 0) 0 a.settle.queue
  refine ⟨before, after, ?_, ?_⟩
  · rw [← units_settle]
    exact split
  · rw [insert, units_rearm]
    exact placed

theorem units_remove (u : UnitId) (a : Agenda) : (a.remove u).units = a.units.erase u := by
  unfold remove
  split
  · have settled := units_settle a
    rw [units_rearm]
    simp only [units, map_unit_unlink] at settled ⊢
    rw [settled]
  · rename_i idle
    rw [isActive_iff] at idle
    exact (List.erase_of_not_mem idle).symm

theorem pop?_eq_none_iff {a : Agenda} : a.pop? = none ↔ a.units = [] := by
  unfold pop? units
  split <;> simp_all

theorem units_of_pop? {u : UnitId} {a rest : Agenda} (h : a.pop? = some (u, rest)) :
    a.units = u :: rest.units := by
  unfold pop? at h
  unfold units
  split at h <;> grind [rearm]

/-! ## Simulated time -/

@[simp] theorem unaccounted_consume (ticks : Int32) (a : Agenda) :
    (a.consume ticks).unaccounted = a.unaccounted + ticks := by
  simp only [unaccounted, consume, reference]
  rw [← Int32.toBitVec_inj]
  simp
  bv_omega

theorem elapsedWrapping_consume (ticks : Int32) (a : Agenda) :
    (a.consume ticks).elapsedWrapping = a.elapsedWrapping + ticks.toUInt32 := by
  simp only [elapsedWrapping, unaccounted_consume, Int32.toUInt32_add, ← UInt32.add_assoc]
  rfl

/-- Folding spent ticks into simulated time does not change it. -/
@[simp] theorem elapsedWrapping_settle (a : Agenda) :
    a.settle.elapsedWrapping = a.elapsedWrapping := by
  unfold settle elapsedWrapping unaccounted reference
  cases a.queue <;> simp <;> rfl

end Peripheral.Agenda
