import Peripheral.Proofs.Asking
import Peripheral.Proofs.Assembly
import Peripheral.Proofs.Operating
import Peripheral.Proofs.Staff

/-!
# Units that wait are pending

A unit has a delay left only while it is in the queue: a delay comes with a booking, and a cancellation
that takes the unit out of the queue forgets the delay. When the unit is taken off the queue in a dispatch,
it is booked again at once if it has a delay left.

* `Program.Orderly` : programs that leave transfers with units through a backend only, whatever calls they make
  (`Asks.orderly`, `Orderly.asks`);
* `Scheduler.Attended` : all units that wait are pending, and all callbacks are orderly
  (`Attended.perform`, `Attended.defer`);
* `Orderly.exec`, `fire_attended`, `processEvent_attended` : **programs, firings and dispatches keep that
  so**, and the devices of a machine do.
-/

namespace Peripheral

variable {σ ω : Type}

/-! ## Orderly programs -/

/-- Transfers are left with units by backends only. The program and the callbacks that it installs may do
anything else, and dispatch. -/
inductive Program.Orderly : Program ω → Prop
  | done (result : Result) : Orderly (.done result)
  | call {c : Call} {next : c.Answer → Program ω} :
    (∀ answer, Orderly (next answer)) → Orderly (.call c next)
  | look {next : ω → Program ω} : (∀ w, Orderly (next w)) → Orderly (.look next)
  | change {f : ω → ω} {next : Program ω} : Orderly next → Orderly (.change f next)
  | setAction {u : UnitId} {action next : Program ω} :
    Orderly action → Orderly next → Orderly (.setAction u action next)
  | setHook {u : UnitId} {hook : Hook ω} {next : Program ω} :
    Orderly next → Orderly (.setHook u hook next)
  | submit {b : Backend} {u : UnitId} {request : Request} {done : Outcome → Program ω}
      {next : Result → Program ω} :
    (∀ outcome, Orderly (done outcome)) → (∀ result, Orderly (next result)) →
      Orderly (b.submit u request done next)
  | dispatch {next : Result → Program ω} : (∀ result, Orderly (next result)) → Orderly (.dispatch next)

theorem Program.Asks.orderly {P : Call → Prop} {p : Program ω} (asks : p.Asks P) : p.Orderly := by
  induction asks with
  | done result => exact .done result
  | call _ _ ih => exact .call ih
  | look _ ih => exact .look ih
  | change _ ih => exact .change ih
  | setAction _ _ ih ih' => exact .setAction ih ih'
  | setHook _ ih => exact .setHook ih
  | submit _ _ ih ih' => exact .submit ih ih'
  | dispatch _ ih => exact .dispatch ih

theorem Program.Orderly.asks {p : Program ω} (orderly : p.Orderly) : p.Asks fun _ => True := by
  induction orderly with
  | done result => exact .done result
  | call _ ih => exact .call trivial ih
  | look _ ih => exact .look ih
  | change _ ih => exact .change ih
  | setAction _ _ ih ih' => exact .setAction ih ih'
  | setHook _ ih => exact .setHook ih
  | submit _ _ ih ih' => exact .submit ih ih'
  | dispatch _ ih => exact .dispatch ih

/-! ## Schedulers whose waiting units are pending -/

/-- All callbacks are orderly, and a unit with a delay left is in the queue. -/
structure Scheduler.Attended (s : Scheduler σ ω) : Prop where
  orderly : s.Carries Program.Orderly
  waits : ∀ u, (s.slot u).delay > 0 → u ∈ s.agenda.units

namespace Scheduler

variable {s t : Scheduler σ ω}

theorem Attended.of_slots (attended : s.Attended) (slots : t.slots = s.slots)
    (units : t.agenda.units = s.agenda.units) : t.Attended where
  orderly := attended.orderly.of_slots slots
  waits u waiting := by
    rw [units]
    rw [slot_of_slots slots] at waiting
    exact attended.waits u waiting

theorem steady_attended : Steady (Attended : Scheduler σ ω → Prop) where
  tell _ _ here := here.of_slots rfl rfl
  stop _ _ here := here.of_slots rfl rfl
  dispatching _ _ here := here.of_slots rfl rfl
  settle s here := here.of_slots rfl s.agenda.units_settle
  rearm s here _ := here.of_slots rfl s.agenda.units_rearm

theorem Attended.modifySlot {u : UnitId} {f : Slot ω → Slot ω} (attended : s.Attended)
    (orderly : (s.modifySlot u f).Carries Program.Orderly) (delay : ∀ slot, (f slot).delay = slot.delay) :
    (s.modifySlot u f).Attended where
  orderly := orderly
  waits v waiting := by
    rw [field_modifySlot Slot.delay u v f s delay] at waiting
    exact attended.waits v waiting

variable [MediaStore σ]

theorem Attended.perform (attended : s.Attended) (c : Call) : (s.perform c).2.Attended where
  orderly := attended.orderly.perform c
  waits u waiting := by
    have spared (spares : c.Spares u) : u ∈ (s.perform c).2.agenda.units :=
      mem_units_spared spares (attended.waits u (by rwa [delay_perform spares] at waiting))
    cases c with
    | activate v ticks =>
      by_cases same : v = u
      · exact same ▸ mem_units_activate v ticks s
      · exact spared same
    | activateAfter v usecs =>
      by_cases same : v = u
      · exact same ▸ mem_units_activateAfter v usecs s
      · exact spared same
    | cancel v =>
      by_cases same : v = u
      · subst same
        dsimp only [Scheduler.perform] at waiting ⊢
        rw [slot_cancel] at waiting
        split at waiting
        · exact absurd waiting (by show ¬(0 : Float) > 0; decide +kernel)
        · rename_i stays
          have pending := attended.waits v waiting
          have swallowed : s.swallows v = true := by
            by_contra asked
            exact stays ⟨rfl, isActive_iff.2 pending, asked⟩
          rw [agenda_cancel, if_pos swallowed]
          exact pending
      · exact spared same
    | _ => exact spared trivial

theorem Attended.defer (attended : s.Attended) {done : Outcome → Program ω}
    (completes : ∀ outcome, (done outcome).Orderly) (u : UnitId) (sectorSize : UInt64) (latency : Float)
    (request : Request) : (s.defer u sectorSize latency request done).Attended where
  orderly := by
    have moved := (attended.perform (.transfer u sectorSize request)).perform (.cancel u)
    have left := moved.orderly.park u (Ticks.nonnegative latency) (s.transfer u sectorSize request).1 completes
    exact (left.perform (.tell (.deferred (s.nameOf u) latency))).perform (.activate u 0)
  waits v waiting := by
    by_cases same : u = v
    · exact same ▸ mem_units_defer
    · rw [slot_defer_of_ne same] at waiting
      exact mem_units_defer_of_mem (attended.waits v waiting)

end Scheduler

/-! ## Programs and dispatches -/

variable [MediaStore σ]
open Scheduler

theorem Scheduler.upholds_attended : Upholds (fun _ => True) (Attended : Scheduler σ ω → Prop) where
  perform _ c _ here := here.perform c
  change _ _ here := here.of_slots rfl rfl
  setAction _ u _ asks here := here.modifySlot (here.orderly.setAction u asks.orderly) fun _ => rfl
  setHook _ _ _ here :=
    here.modifySlot (here.orderly.modifySlot fun _ slot => ⟨slot.action, slot.parked⟩) fun _ => rfl
  transfer _ u sectorSize request here := here.perform (.transfer u sectorSize request)
  defer _ u sectorSize latency request _ completes here :=
    here.defer (fun outcome => (completes outcome).orderly) u sectorSize latency request

/-- An orderly program keeps waiting units pending if dispatches from inside it do. -/
theorem Program.Orderly.exec {p : Program ω} (orderly : p.Orderly) {dispatch : Motion σ ω}
    (keeps : dispatch.Keeps Attended) : Motion.Keeps Attended (p.exec dispatch) :=
  orderly.asks.keeps upholds_attended keeps

namespace Scheduler

/-- A unit that is taken off the queue is booked again if it has a delay left. -/
theorem fire_attended {dispatch : Motion σ ω} (keeps : dispatch.Keeps Attended) {u : UnitId}
    {agenda : Agenda} {s t : Scheduler σ ω} {result : Result} (here : s.Attended)
    (popped : s.agenda.pop? = some (u, agenda)) (fired : fire dispatch u { s with agenda } = some (result, t)) :
    t.Attended := by
  have units : s.agenda.units = u :: agenda.units := Agenda.units_of_pop? popped
  have orderly : ({ s with agenda } : Scheduler σ ω).Carries Program.Orderly := here.orderly.of_slots rfl
  have others : ∀ v, (s.slot v).delay > 0 → v = u ∨ v ∈ agenda.units := fun v waiting =>
    List.mem_cons.1 (units ▸ here.waits v waiting)
  have idle (due : ¬(s.slot u).delay > 0) : ({ s with agenda } : Scheduler σ ω).Attended :=
    ⟨orderly, fun v waiting => (others v waiting).resolve_left (by rintro rfl; exact due waiting)⟩
  cases fired_of_fire fired with
  | waits =>
    let freed : Scheduler σ ω := Scheduler.modifySlot u (fun slot => { slot with delay := 0 })
      (Scheduler.tell (.requeueing (s.slot u).endpoint.name (s.slot u).delay) { s with agenda })
    have callbacks : freed.Carries Program.Orderly :=
      Carries.modifySlot (orderly.of_slots rfl) fun _ slot => ⟨slot.action, slot.parked⟩
    refine ⟨callbacks.perform (.activateAfter u (s.slot u).delay), fun v waiting => ?_⟩
    by_cases same : u = v
    · exact same ▸ mem_units_activateAfter u _ _
    · have spares : (Call.activateAfter u (s.slot u).delay).Spares v := same
      have before : (freed.slot v).delay > 0 := by
        rw [← delay_perform spares]
        exact waiting
      rw [slot_modifySlot_of_ne same] at before
      exact mem_units_spared (s := freed) spares ((others v before).resolve_left (Ne.symm same))
  | @handsOver k _ _ due parked ended =>
    have told := steady_attended.tell _ (.completing (s.slot u).endpoint.name) (idle due)
    exact ((orderly u).parked k parked k.outcome).exec keeps _
      (told.modifySlot (told.orderly.takeParked u) fun _ => rfl) _ _ ended
  | rests due => exact steady_attended.tell _ _ (idle due)
  | @acts action _ last due _ installed ended =>
    have meets := (orderly u).action action installed
    have told := steady_attended.tell _ (.firing (s.slot u).endpoint.name) (idle due)
    have left : last.Attended :=
      meets.exec keeps _ (told.modifySlot (told.orderly.takeAction u) fun _ => rfl) _ _ ended
    exact left.modifySlot (left.orderly.putBack u meets) fun _ => rfl

theorem processEvent_attended (pops : Nat) :
    Motion.Keeps Attended (processEvent pops : Motion σ ω) :=
  process_keeps steady_attended (fun _ => id) (fun s => steady_attended.stop s false) steady_attended.settle
    (drain_keeps steady_attended (fun _ keeps _ _ _ here popped _ _ fired =>
      fire_attended keeps here popped fired) pops)

theorem custody_attended : Custody (Attended : Scheduler σ ω → Prop) :=
  fun _ c _ here => here.perform c

end Scheduler

theorem Program.Orderly.run {p : Program ω} (orderly : p.Orderly) (pops : Nat) :
    Motion.Keeps Attended (p.run pops : Motion σ ω) := orderly.exec (processEvent_attended pops)

/-! ## Devices -/

section
variable {κ ε : Type}

def Registry.Orderly (r : Registry ω) : Prop :=
  ∀ device ∈ r.devices.toList, device.reset.Orderly ∧ ∀ u, (device.boot u).Orderly

theorem Peripherals.orderly {p : Peripherals} {r : Registry (Board κ ε)}
    (devices : r.devices = #[p.clock.device, p.disk.device, p.terminal.device]) : r.Orderly :=
  fun device there =>
    have asks := devices_ask (P := fun _ => True) (fun _ _ => trivial) devices device there
    ⟨asks.1.orderly, fun u => (asks.2 u).orderly⟩

omit [MediaStore σ] in
theorem Machine.Assembled.attended [Console κ] {d : Description} {console : κ} {extra : ε}
    {m : Machine σ (Board κ ε)} (assembled : m.Assembled d console extra) : m.scheduler.Attended where
  orderly u := by
    refine ⟨fun p there => ?_, fun k there => ?_⟩
    · have routine : ∀ c : Call, c.Routine → True := fun _ _ => trivial
      rw [assembled.action, Peripherals.actionOf] at there
      split at there
      · exact Option.some.inj there ▸ (LineClock.action_asks routine _).orderly
      · split at there
        · exact Option.some.inj there ▸ (Terminal.poll_asks routine _).orderly
        · split at there
          · exact Option.some.inj there ▸ (Terminal.display_asks routine _).orderly
          · cases there
    · rw [assembled.parked] at there
      cases there
  waits u waiting := by
    rw [assembled.delay] at waiting
    exact absurd waiting (by decide +kernel)

end

end Peripheral
