import Peripheral.Proofs.Reachable
import Peripheral.Proofs.Rounds

/-!
# Stop requests

A request to stop is looked at before a dispatch fires anything, between two firings of it, and at its end.
Whatever comes of the firing that the request was made in, it is taken once: by the dispatch itself, or by
the next one if the dispatch ends with the failure of a callback.

* `processEvent_of_stop` : a dispatch that takes a request made before;
* `Scheduler.conclude_of_stop` : the end of a dispatch in which a request was made;
* `Machine.runSlots_of_stop` : a run without instructions that takes a request made before it;
* `no_stop_request_is_lost` : **every request is taken once, and no unit fires after it**.
-/

namespace Peripheral

variable {σ ω : Type}

namespace Scheduler

/-! ## Requests that a dispatch takes -/

/-- A request made before a dispatch is taken by it, and nothing else happens. -/
theorem processEvent_of_stop [MediaStore σ] {s : Scheduler σ ω} (asked : s.stop = true) (pops : Nat) :
    s.processEvent pops = some (.error .stopped, { s with stop := false }) ∧ s.round pops = [] ∧
      s.processEventChanges pops = [] :=
  ⟨if_pos asked, if_pos asked, if_pos asked⟩

/-- A dispatch in which a request was made takes it at its end unless a callback failed, and leaves the queue
and the units alone. -/
theorem conclude_of_stop {s : Scheduler σ ω} (asked : s.stop = true) (result : Result) :
    let last := s.conclude result
    last.1 = (if result.isOk then .error .stopped else result) ∧ last.2.stop = !result.isOk ∧
      last.2.agenda.queue = s.agenda.queue ∧ last.2.slots = s.slots ∧ last.2.world = s.world ∧
      last.2.media = s.media := by
  have told : ∃ t : Scheduler σ ω, s.conclude result =
        (if result.isOk && t.stop then (.error .stopped, { t with stop := false, dispatching := false })
        else (result, { t with dispatching := false })) ∧
      t.stop = s.stop ∧ t.agenda.queue = s.agenda.queue ∧ t.slots = s.slots ∧ t.world = s.world ∧
      t.media = s.media := by
    unfold conclude
    cases queue : s.agenda.queue with
    | nil =>
      have rested : s.agenda.rearm.queue = [] := by rw [Agenda.rearm, queue]
      exact ⟨_, rfl, rfl, rested, rfl, rfl, rfl⟩
    | cons e rest => exact ⟨_, rfl, rfl, queue, rfl, rfl, rfl⟩
  obtain ⟨t, concluded, stop, queue, same⟩ := told
  dsimp only
  rw [concluded]
  cases result with
  | ok =>
    have taken : ((.ok () : Result).isOk && t.stop) = true := stop.trans asked
    rw [if_pos taken]
    exact ⟨rfl, rfl, queue, same⟩
  | error status =>
    have failed : ¬((.error status : Result).isOk && t.stop) = true := Bool.false_ne_true
    rw [if_neg failed]
    exact ⟨rfl, stop.trans asked, queue, same⟩

theorem eq_of_tellAnomaly (u : UnitId) (result : Result) (s : Scheduler σ ω) :
    ∃ journal, s.tellAnomaly u result = { s with journal } := by
  unfold tellAnomaly
  split
  · exact ⟨_, rfl⟩
  · split
    · exact ⟨_, rfl⟩
    · exact ⟨_, rfl⟩

/-- A dispatch ends with the firing in which a request was made. -/
theorem processEvent_of_stopped [MediaStore σ] {pops : Nat} {s t : Scheduler σ ω} {f : Firing σ ω}
    {result : Result} (fires : f ∈ s.round pops) (fired : f.fire = some (result, t)) (asked : t.stop = true) :
    (s.round pops).getLast? = some f ∧
      (∃ before offset, s.processEventChanges pops = before ++ .popped f.unit offset ::
        (f.changes ++ if t.agenda.queue.isEmpty then [.rested] else [])) ∧
      ∃ last, s.processEvent pops = some (if result.isOk then .error .stopped else result, last) ∧
        last.stop = !result.isOk ∧ last.agenda.queue = t.agenda.queue ∧ last.slots = t.slots ∧
        last.world = t.world ∧ last.media = t.media := by
  obtain ⟨journal, told⟩ := eq_of_tellAnomaly f.unit result t
  have asked' : (t.tellAnomaly f.unit result).stop = true := told ▸ asked
  have ends : ¬(t.tellAnomaly f.unit result).goesOn result := fun on => by
    rw [(goesOn_iff.1 on).2.2.2] at asked'
    cases asked'
  obtain ⟨final, processed, changes⟩ := processEvent_of_mem_round fires fired ends
  obtain ⟨answer, same⟩ := conclude_of_stop asked' result
  refine ⟨final, changes, _, processed.trans (congrArg some (Prod.ext answer rfl)), ?_⟩
  rw [told] at same ⊢
  exact same

end Scheduler

/-! ## Runs without instructions -/

namespace Machine

variable [MediaStore σ]

def idle : Program ω := .done (.ok ())

/-- The ticks until an interval has run out. -/
def ticksLeft (s : Scheduler σ ω) : Nat := (max s.agenda.interval 0).toInt.toNat

section
open Ticks
omit [MediaStore σ]
variable {s : Scheduler σ ω}

theorem ticksLeft_of_due (due : s.agenda.interval ≤ 0) :
    ticksLeft s = 0 ∧ s.consume (max s.agenda.interval 0) = s := by
  have none : max s.agenda.interval 0 = 0 := if_pos due
  unfold ticksLeft Scheduler.consume Agenda.consume
  rw [none, Int32.sub_zero]
  exact ⟨rfl, rfl⟩

theorem ticksLeft_of_ahead (ahead : ¬s.agenda.interval ≤ 0) :
    ticksLeft s = ticksLeft (s.consume 1) + 1 ∧
      (s.consume 1).consume (max (s.consume 1).agenda.interval 0) = s.consume (max s.agenda.interval 0) := by
  have later : 0 < s.agenda.interval.toInt := by
    rw [Int32.le_iff_toInt_le, Int.not_le] at ahead
    exact ahead
  have one : (1 : Int32).toInt = 1 := rfl
  have range := inRange_iff.1 (inRange_toInt s.agenda.interval)
  have spent : (s.agenda.interval - 1).toInt = s.agenda.interval.toInt - 1 := by
    rw [toInt_sub (inRange_iff.2 (by omega)), one]
  have whole : max s.agenda.interval 0 = s.agenda.interval := if_neg ahead
  have rest : max (s.agenda.interval - 1) 0 = s.agenda.interval - 1 := by
    rw [← Int32.toInt_inj, toInt_max_zero, spent]
    omega
  refine ⟨?_, ?_⟩
  · show (max s.agenda.interval 0).toInt.toNat = (max (s.agenda.interval - 1) 0).toInt.toNat + 1
    rw [whole, rest, spent]
    omega
  · unfold Scheduler.consume Agenda.consume
    dsimp only
    rw [whole, rest, Int32.sub_self, Int32.sub_self]

end

/-- Where a request was made, a run without instructions spends the ticks until the interval has run out, and
takes the request in the dispatch that comes then. -/
theorem runSlots_of_stop {s : Scheduler σ ω} (asked : s.stop = true) (pops : Nat) {slots : Nat}
    (enough : ticksLeft s < slots) (ticks : Nat) :
    runSlots pops idle slots ticks s = some (.ended .stopped, ticks + ticksLeft s,
        { s.consume (max s.agenda.interval 0) with stop := false }) ∧
      runChanges pops idle slots s = List.replicate (ticksLeft s) (.spent 1) := by
  induction slots generalizing s ticks with
  | zero => omega
  | succ slots ih =>
    by_cases due : s.agenda.interval ≤ 0
    · obtain ⟨none_left, same⟩ := ticksLeft_of_due due
      obtain ⟨taken, -, unchanged⟩ := Scheduler.processEvent_of_stop asked pops
      have slot : slotOf pops idle s = some (.error .stopped, { s with stop := false }) := by
        rw [slotOf, if_pos due, taken]
      rw [none_left, same, runSlots, runChanges, slotChanges, if_pos due, unchanged, taken, slot]
      exact ⟨rfl, rfl⟩
    · obtain ⟨left, same⟩ := ticksLeft_of_ahead due
      have slot : slotOf pops idle s = some (.ok (), s) := if_neg due
      obtain ⟨ended, changes⟩ := ih (s := s.consume 1) asked (by omega) (ticks + 1)
      have unchanged : slotChanges pops idle s = [] := if_neg due
      rw [runSlots, runChanges, slot, unchanged]
      dsimp only
      rw [ended, changes, left, same, List.replicate_succ, Nat.add_right_comm ticks 1, Nat.add_assoc]
      exact ⟨rfl, rfl⟩

theorem run_of_stop {m : Machine σ ω} (asked : m.scheduler.stop = true) (pops slots : Nat)
    {budget : Option Nat} (enough : ticksLeft m.scheduler < budget.getD slots) :
    let left := ticksLeft m.scheduler
    let last := { m.scheduler.consume (max m.scheduler.agenda.interval 0) with stop := false }
    m.run pops slots idle budget = some (.ok ⟨.stopped .stopped, left, last.agenda.elapsed⟩,
        { m with scheduler := last.tell (.runStopped left .stopped) }) ∧
      runChanges pops idle (budget.getD slots) m.scheduler = List.replicate left (.spent 1) := by
  obtain ⟨ended, changes⟩ := runSlots_of_stop asked pops enough 0
  refine ⟨?_, changes⟩
  unfold Machine.run
  rw [ended, Nat.zero_add]
  have ends : ¬(budget.isNone && decide (Pause.ended .stopped = .exhausted)) = true := by simp
  dsimp only
  rw [if_neg ends]
  rfl

end Machine

/-- In any scheduler, a dispatch that starts with a request takes it, and does nothing else. If a request
stands at the end of a firing, whatever the callback did, no other unit is taken off the queue and those that
are in it stay there in order; the dispatch takes the request, unless the callback failed: then it ends with
that failure, and whatever dispatch comes next takes the request and fires nothing. And a run without
instructions that starts with a request spends the ticks until the interval has run out, if its budget is
larger, and ends with the request, which is taken. -/
theorem no_stop_request_is_lost [MediaStore σ] (s : Scheduler σ ω) (pops : Nat) :
    (s.stop = true →
      s.processEvent pops = some (.error .stopped, { s with stop := false }) ∧ s.round pops = [] ∧
        s.processEventChanges pops = []) ∧
    (∀ f ∈ s.round pops, ∀ result t, f.fire = some (result, t) → t.stop = true →
      (s.round pops).getLast? = some f ∧
      (∃ before offset, s.processEventChanges pops = before ++ .popped f.unit offset ::
        (f.changes ++ if t.agenda.queue.isEmpty then [.rested] else [])) ∧
      ∃ last, s.processEvent pops = some (if result.isOk then .error .stopped else result, last) ∧
        last.stop = !result.isOk ∧ last.agenda.queue = t.agenda.queue ∧ last.slots = t.slots ∧
        last.world = t.world ∧ last.media = t.media ∧
        (result.isOk = false → ∀ more,
          last.processEvent more = some (.error .stopped, { last with stop := false }) ∧
            last.round more = [] ∧ last.processEventChanges more = [])) ∧
    ∀ (registry : Registry ω) (slots : Nat) (budget : Option Nat), s.stop = true →
      Machine.ticksLeft s < budget.getD slots →
      let left := Machine.ticksLeft s
      let last := { s.consume (max s.agenda.interval 0) with stop := false }
      (⟨s, registry⟩ : Machine σ ω).run pops slots Machine.idle budget =
          some (.ok ⟨.stopped .stopped, left, last.agenda.elapsed⟩,
            ⟨last.tell (.runStopped left .stopped), registry⟩) ∧
        Machine.runChanges pops Machine.idle (budget.getD slots) s = List.replicate left (.spent 1) := by
  refine ⟨fun asked => s.processEvent_of_stop asked pops, fun f fires result t fired asked => ?_,
    fun registry slots budget asked enough => ?_⟩
  · obtain ⟨final, changes, last, ended, stop, queue, slots, world, media⟩ :=
      s.processEvent_of_stopped fires fired asked
    refine ⟨final, changes, last, ended, stop, queue, slots, world, media, fun failed => ?_⟩
    rw [failed] at stop
    exact last.processEvent_of_stop stop
  · exact Machine.run_of_stop (m := ⟨s, registry⟩) asked pops slots enough

/-- Two units that are due at once, of which the first one asks for a stop and fails, and a machine that is
asked to stop three ticks before a unit is due. -/
theorem failing_unit_leaves_its_request :
    (∃ s last : Scheduler MemoryImages Unit, s.processEvent 2 = some (.error .noMemory, last) ∧
      last.stop = true ∧ last.agenda.units = [1] ∧
      last.processEvent 2 = some (.error .stopped, { last with stop := false })) ∧
    ∃ (m m' : Machine MemoryImages Unit) (elapsed : Float), m.scheduler.stop = true ∧
      m.scheduler.agenda.interval = 3 ∧
      m.run 0 0 Machine.idle (some 4) = some (.ok ⟨.stopped .stopped, 3, elapsed⟩, m') ∧
      m'.scheduler.stop = false ∧ m'.scheduler.agenda.units = [0] := by
  let first : Scheduler MemoryImages Unit := .start 100 1 () default (.empty none)
  let one := (first.perform (.addUnit { name := "A" })).2
  let two := ((one.perform (.addUnit { name := "B" })).2.modifySlot 0 fun slot =>
    { slot with action := some (.call .requestStop fun _ => .done (.error .noMemory)) })
  let s := ((two.perform (.activate 0 0)).2.perform (.activate 1 0)).2
  refine ⟨?_, ?_⟩
  · obtain ⟨-, stops, -⟩ := no_stop_request_is_lost s 2
    obtain ⟨f, fires⟩ : ∃ f, f ∈ s.round 2 := List.exists_mem_of_ne_nil _ (by decide +kernel)
    have fails : ∀ f ∈ s.round 2, ∃ answer ∈ f.fire,
        answer.1 = .error .noMemory ∧ answer.2.stop = true ∧ answer.2.agenda.units = [1] := by
      decide +kernel
    obtain ⟨⟨result, t⟩, fired, rfl, asked, left⟩ := fails f fires
    obtain ⟨-, -, last, ended, stop, queue, -, -, -, next⟩ := stops f fires _ t fired asked
    refine ⟨s, last, ended, stop, ?_, (next rfl 2).1⟩
    rw [Agenda.units, queue]
    exact left
  · let m : Machine MemoryImages Unit :=
      .ofScheduler ((one.perform (.activate 0 3)).2.perform .requestStop).2
    obtain ⟨-, -, runs⟩ := no_stop_request_is_lost m.scheduler 0
    obtain ⟨ran, -⟩ := runs m.registry 0 (some 4) rfl (by decide +kernel)
    have left : Machine.ticksLeft m.scheduler = 3 := by decide +kernel
    dsimp only at ran
    rw [left] at ran
    exact ⟨m, _, _, rfl, by decide +kernel, ran, rfl, by decide +kernel⟩

end Peripheral
