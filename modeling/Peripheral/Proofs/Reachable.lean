import Peripheral.Proofs.Attendance
import Peripheral.Proofs.Conservation
import Peripheral.Proofs.Devices
import Peripheral.Proofs.Driving
import Peripheral.Proofs.Ticking

/-!
# Machines in the course of their operations

Whatever is done with a machine, the changes of its agenda can be told from what was done: each operation
has a chronicle, and together these make the history of the machine.

* `Machine.resetChanges`, `bootChanges`, `runChanges` : the changes that operations of a machine make
  (`resetAll_records`, `boot_records`, `run_records`);
* `Machine.Reached` : the machines that come of one by any operations, with their history;
* `Reached.sound` : **the history gives the agenda**, and waiting units are pending;
* `Machine.Tidy`, `built_tidy`, `Reached.tidy` : what is left standing from the building of a machine on as
  long as nothing overflows.
-/

namespace Peripheral

variable {σ ω : Type} [MediaStore σ]

/-! ## Chronicles of operations -/

/-- The changes that resetting devices makes, up to the first failure. -/
def Registry.resetEachChanges (pops : Nat) : List (Device ω) → Chronicle σ ω
  | [], _ => []
  | device :: rest, s =>
    device.reset.runChanges pops s ++
      match device.reset.run pops s with
      | some (.ok (), t) => resetEachChanges pops rest t
      | _ => []

theorem Registry.resetEach_recordedBy (pops : Nat) (devices : List (Device ω)) :
    Motion.RecordedBy (resetEach pops devices : Motion σ ω) (resetEachChanges pops devices) := by
  induction devices with
  | nil =>
    refine ⟨fun s => trivial, ?_⟩
    rintro s _ _ ⟨⟩
    rfl
  | cons device rest ih =>
    have first := Program.run_recordedBy (σ := σ) pops device.reset
    refine ⟨fun s => ?_, fun s result t ended => ?_⟩
    · rw [resetEachChanges, Trail.append]
      refine ⟨first.possible s, ?_⟩
      split
      · rename_i reset
        rw [← first.agenda _ _ _ reset]
        exact ih.possible _
      · trivial
    · rw [resetEach] at ended
      rw [resetEachChanges, Agenda.after_append]
      split at ended
      · cases ended
      · rename_i reset
        cases ended
        rw [← first.agenda _ _ _ reset, reset]
        rfl
      · rename_i reset
        rw [← first.agenda _ _ _ reset, reset]
        exact ih.agenda _ _ _ ended

namespace Machine

def resetChanges (pops : Nat) (m : Machine σ ω) : List Change :=
  Registry.resetEachChanges pops m.registry.devices.toList m.scheduler

def bootChanges (pops : Nat) (device : String) (unit : UInt64) (m : Machine σ ω) : List Change :=
  match m.locate device unit with
  | .error _ => []
  | .ok (d, u) => (d.boot u).runChanges pops m.scheduler

def runChanges (pops : Nat) (instruction : Program ω) : Nat → Chronicle σ ω
  | 0, _ => []
  | slots + 1, s =>
    slotChanges pops instruction s ++
      match slotOf pops instruction s with
      | some (.ok (), t) => .spent 1 :: runChanges pops instruction slots (t.consume 1)
      | _ => []

variable {m m' : Machine σ ω} {pops : Nat}

theorem resetAll_records {result : Result} (reset : m.resetAll pops = some (result, m')) :
    m'.scheduler.agenda = m.scheduler.agenda.after (m.resetChanges pops) := by
  obtain ⟨⟨_, t⟩, ended, same⟩ := Option.map_eq_some_iff.1 reset
  cases same
  exact (Registry.resetEach_recordedBy pops _).agenda _ _ _ ended

theorem boot_possible (pops : Nat) (device : String) (unit : UInt64) (m : Machine σ ω) :
    Trail Change.Possible m.scheduler.agenda (m.bootChanges pops device unit) := by
  unfold bootChanges
  split
  · trivial
  · exact (Program.run_recordedBy pops _).possible _

theorem boot_records {device : String} {unit : UInt64} {result : Result}
    (booted : m.boot pops device unit = some (result, m')) :
    m'.scheduler.agenda = m.scheduler.agenda.after (m.bootChanges pops device unit) := by
  unfold Machine.boot at booted
  unfold bootChanges
  cases found : m.locate device unit with
  | error status =>
    rw [found] at booted
    cases booted
    rfl
  | ok place =>
    rw [found] at booted
    obtain ⟨⟨_, t⟩, ended, same⟩ := Option.map_eq_some_iff.1 booted
    cases same
    exact (Program.run_recordedBy pops _).agenda _ _ _ ended

theorem runSlots_possible (pops : Nat) (instruction : Program ω) (slots : Nat) (s : Scheduler σ ω) :
    Trail Change.Possible s.agenda (runChanges pops instruction slots s) := by
  induction slots generalizing s with
  | zero => trivial
  | succ slots ih =>
    have slot := slotOf_recordedBy (σ := σ) pops instruction
    rw [runChanges, Trail.append]
    refine ⟨slot.possible s, ?_⟩
    split
    · rename_i t went
      rw [← slot.agenda _ _ _ went]
      exact ⟨trivial, ih (t.consume 1)⟩
    · trivial

theorem runSlots_records {instruction : Program ω} {slots ticks last : Nat} {pause : Pause}
    {s t : Scheduler σ ω} (ended : runSlots pops instruction slots ticks s = some (pause, last, t)) :
    t.agenda = s.agenda.after (runChanges pops instruction slots s) := by
  induction slots generalizing ticks s with
  | zero =>
    cases ended
    rfl
  | succ slots ih =>
    have slot := slotOf_recordedBy (σ := σ) pops instruction
    rw [runSlots] at ended
    rw [runChanges, Agenda.after_append]
    split at ended
    · cases ended
    · rename_i stopped
      cases ended
      rw [← slot.agenda _ _ _ stopped, stopped]
      rfl
    · rename_i went
      rw [← slot.agenda _ _ _ went, went]
      exact ih ended

theorem run_records {instruction : Program ω} {slots : Nat} {budget : Option Nat}
    {report : Except Status RunReport} (ran : m.run pops slots instruction budget = some (report, m')) :
    m'.scheduler.agenda =
      m.scheduler.agenda.after (runChanges pops instruction (budget.getD slots) m.scheduler) := by
  obtain ⟨pause, ticks, t, ended, same⟩ := run_cases ran
  cases same
  rw [← runSlots_records ended]
  exact report_keeps (I := fun s => s.agenda = t.agenda) (fun s c custodial same => by
    show (s.perform c).2.agenda = t.agenda
    rw [← same, Scheduler.agenda_perform]
    cases c with
    | attach | detach | tell => rfl
    | _ => exact custodial.elim) rfl ticks pause

/-! ## Machines that come of one -/

/-- Machines that come of a first one by any operations, with the changes of the agenda since. -/
inductive Reached (first : Machine σ ω) : Machine σ ω → List Change → Prop
  | start : Reached first first []
  /-- A program is run: units are scheduled and cancelled, ticks are spent, transfers are asked for,
  callbacks are installed, and so on. -/
  | call {m : Machine σ ω} {h : List Change} {p : Program ω} {pops : Nat} {result : Result}
      {s : Scheduler σ ω} :
    Reached first m h → p.Orderly → p.run pops m.scheduler = some (result, s) →
      Reached first { m with scheduler := s } (h ++ p.runChanges pops m.scheduler)
  | processEvent {m : Machine σ ω} {h : List Change} {pops : Nat} {result : Result} {s : Scheduler σ ω} :
    Reached first m h → m.scheduler.processEvent pops = some (result, s) →
      Reached first { m with scheduler := s } (h ++ m.scheduler.processEventChanges pops)
  | tick {m : Machine σ ω} {h : List Change} {pops : Nat} {result : Result} {s : Scheduler σ ω} :
    Reached first m h → m.scheduler.tick pops = some (result, s) →
      Reached first { m with scheduler := s } (h ++ m.scheduler.tickChanges pops)
  | run {m m' : Machine σ ω} {h : List Change} {instruction : Program ω} {pops slots : Nat}
      {budget : Option Nat} {report : Except Status RunReport} :
    Reached first m h → instruction.Orderly → m.run pops slots instruction budget = some (report, m') →
      Reached first m' (h ++ runChanges pops instruction (budget.getD slots) m.scheduler)
  | attach {m : Machine σ ω} {h : List Change} (device : String) (unit : UInt64) (name : String) :
    Reached first m h → Reached first (m.attach device unit name).2 h
  | detach {m : Machine σ ω} {h : List Change} (device : String) (unit : UInt64) :
    Reached first m h → Reached first (m.detach device unit).2 h
  | detachAll {m : Machine σ ω} {h : List Change} : Reached first m h → Reached first m.detachAll.2 h
  | resetAll {m m' : Machine σ ω} {h : List Change} {pops : Nat} {result : Result} :
    Reached first m h → m.resetAll pops = some (result, m') →
      Reached first m' (h ++ m.resetChanges pops)
  | boot {m m' : Machine σ ω} {h : List Change} {pops : Nat} {device : String} {unit : UInt64}
      {result : Result} :
    Reached first m h → m.boot pops device unit = some (result, m') →
      Reached first m' (h ++ m.bootChanges pops device unit)

/-- The history so far gives the agenda, waiting units are pending, and the devices are still those of the
first machine. -/
structure Sound (first m : Machine σ ω) (h : List Change) : Prop where
  registry : m.registry = first.registry
  attended : m.scheduler.Attended
  agenda : m.scheduler.agenda = first.scheduler.agenda.after h
  possible : Trail Change.Possible first.scheduler.agenda h

variable {first : Machine σ ω} {h : List Change}

omit [MediaStore σ] in
theorem Sound.append {changes : List Change} (sound : Sound first m h) (registry : m'.registry = m.registry)
    (attended : m'.scheduler.Attended)
    (possible : Trail Change.Possible m.scheduler.agenda changes)
    (agenda : m'.scheduler.agenda = m.scheduler.agenda.after changes) :
    Sound first m' (h ++ changes) where
  registry := registry.trans sound.registry
  attended := attended
  agenda := by
    rw [agenda, sound.agenda, Agenda.after_append]
  possible := by
    rw [Trail.append, ← sound.agenda]
    exact ⟨sound.possible, possible⟩

theorem custody_attended_agenda (a : Agenda) :
    Scheduler.Custody fun s : Scheduler σ ω => s.Attended ∧ s.agenda = a := by
  rintro s c custodial ⟨attended, rfl⟩
  refine ⟨attended.perform c, ?_⟩
  rw [Scheduler.agenda_perform]
  cases c with
  | attach | detach | tell => rfl
  | _ => exact custodial.elim

/-- The history of a machine that comes of an attended one gives its agenda. -/
theorem Reached.sound (reached : Reached first m h) (attended : first.scheduler.Attended)
    (orderly : first.registry.Orderly) : Sound first m h := by
  have custody := custody_attended_agenda (σ := σ) (ω := ω)
  induction reached with
  | start => exact ⟨rfl, attended, rfl, trivial⟩
  | @call m _ p pops _ _ _ meets ended ih =>
    have records := Program.run_recordedBy (σ := σ) pops p
    exact ih.append rfl (meets.run pops _ ih.attended _ _ ended) (records.possible _)
      (records.agenda _ _ _ ended)
  | @processEvent m _ pops _ _ _ ended ih =>
    have records := Scheduler.processEvent_recordedBy (σ := σ) (ω := ω) pops
    exact ih.append rfl (Scheduler.processEvent_attended pops _ ih.attended _ _ ended)
      (records.possible _) (records.agenda _ _ _ ended)
  | @tick m _ pops _ _ _ ended ih =>
    have records := Scheduler.tick_recordedBy (σ := σ) (ω := ω) pops
    refine ih.append rfl ?_ (records.possible _) (records.agenda _ _ _ ended)
    exact Scheduler.tick_keeps (fun s here => here.perform (.consume 1))
      (Scheduler.processEvent_attended pops) _ ih.attended _ _ ended
  | @run m m' _ instruction pops slots budget _ _ meets ran ih =>
    obtain ⟨left, same⟩ := run_keeps Scheduler.custody_attended (fun s here => here.perform (.consume 1))
      (Scheduler.processEvent_attended pops) (meets.run pops) ih.attended ran
    exact ih.append same left (runSlots_possible pops instruction _ _) (run_records ran)
  | attach device unit name _ ih =>
    obtain ⟨left, same⟩ := attach_keeps (custody _) ⟨ih.attended, rfl⟩ device unit name
    exact ⟨same.trans ih.registry, left.1, left.2.trans ih.agenda, ih.possible⟩
  | detach device unit _ ih =>
    obtain ⟨left, same⟩ := detach_keeps (custody _) ⟨ih.attended, rfl⟩ device unit
    exact ⟨same.trans ih.registry, left.1, left.2.trans ih.agenda, ih.possible⟩
  | @detachAll m _ _ ih =>
    have left := detachAll_keeps (custody m.scheduler.agenda) ⟨ih.attended, rfl⟩
    exact ⟨ih.registry, left.1, left.2.trans ih.agenda, ih.possible⟩
  | @resetAll m m' _ pops _ _ reset ih =>
    have meets := fun device there => (orderly device (ih.registry ▸ there)).1.run (σ := σ) pops
    obtain ⟨left, same⟩ := resetAll_keeps meets ih.attended reset
    exact ih.append same left ((Registry.resetEach_recordedBy pops _).possible _) (resetAll_records reset)
  | @boot m m' _ pops device unit _ _ booted ih =>
    have meets := fun device there u => ((orderly device (ih.registry ▸ there)).2 u).run (σ := σ) pops
    obtain ⟨left, same⟩ := boot_keeps meets ih.attended booted
    exact ih.append same left (boot_possible pops device unit _) (boot_records booted)

/-! ## Machines that are built -/

end Machine

/-- All callbacks are passive, and nothing in the queue is overdue. -/
structure Scheduler.Unhurried (s : Scheduler σ ω) : Prop where
  calm : s.Calm
  nodup : s.agenda.units.Nodup
  timely : s.agenda.Timely 0

namespace Scheduler

variable {s : Scheduler σ ω}

theorem Unhurried.perform (here : s.Unhurried) {c : Call} (passive : c.Passive) :
    (s.perform c).2.Unhurried := by
  have possible := s.possible_changesOf c
  obtain ⟨-, timely, -⟩ :=
    timely_of_schedules here.timely here.nodup possible (schedules_changesOf passive)
  have nodup := nodup_after possible here.nodup
  rw [← agenda_perform] at timely nodup
  exact ⟨calm_perform here.calm c, nodup, timely⟩

theorem custody_unhurried : Custody (Unhurried : Scheduler σ ω → Prop) := by
  intro s c custodial here
  refine here.perform ?_
  cases c with
  | attach | detach | tell => trivial
  | _ => exact custodial.elim

end Scheduler

theorem Program.Passive.unhurried {p : Program ω} (passive : p.Passive) (pops : Nat) :
    Motion.Keeps Scheduler.Unhurried (p.run pops : Motion σ ω) := by
  intro s here result t ended
  have records := Program.run_recordedBy (σ := σ) pops p
  obtain ⟨calm, timely⟩ := (passive.run pops here.calm here.nodup here.timely).2.2 result t ended
  refine ⟨calm, ?_, timely⟩
  rw [records.agenda s result t ended]
  exact nodup_after (records.possible s) here.nodup

/-- Anything is permitted but spending ticks and dispatching. -/
def License.unhurried (ω : Type) : License ω where
  staff _ := none
  calls c := ∀ ticks, c ≠ .consume ticks
  changes _ := True
  deeds _ := False
  passive := by
    rintro _ passive ticks rfl
    exact passive

theorem License.unhurried_passive {p : Program ω} (within : p.Within (unhurried ω)) : p.Passive := by
  refine within.passive (fun c permitted => ?_) fun _ _ => False.elim
  exact c.passive_or_consume.resolve_right fun ⟨ticks, same⟩ => permitted ticks same

section
variable {κ ε : Type}

theorem Peripherals.licensed_unhurried (p : Peripherals) :
    p.clock.Licensed (License.unhurried (Board κ ε)) ∧ p.disk.Licensed (License.unhurried (Board κ ε)) ∧
      p.terminal.Licensed (License.unhurried (Board κ ε)) :=
  ⟨⟨rfl, fun _ => trivial⟩, ⟨fun _ _ => rfl, fun _ => trivial⟩, ⟨rfl, rfl, fun _ _ => trivial⟩⟩

theorem Peripherals.devices_passive {p : Peripherals} {r : Registry (Board κ ε)}
    (devices : r.devices = #[p.clock.device, p.disk.device, p.terminal.device]) :
    ∀ device ∈ r.devices.toList, device.reset.Passive ∧ ∀ u, (device.boot u).Passive := by
  obtain ⟨clock, disk, terminal⟩ := p.licensed_unhurried (κ := κ) (ε := ε)
  intro device there
  rw [devices] at there
  refine ⟨?_, fun u => License.unhurried_passive (boots_within disk device there u)⟩
  simp only [List.mem_cons, List.not_mem_nil, or_false] at there
  rcases there with rfl | rfl | rfl
  · exact License.unhurried_passive clock.reset_within
  · exact License.unhurried_passive disk.reset_within
  · exact License.unhurried_passive terminal.reset_within

variable [Console κ] {d : Description} {console : κ} {extra : ε}

omit [MediaStore σ] in
theorem Machine.Assembled.unhurried {m : Machine σ (Board κ ε)} (assembled : m.Assembled d console extra) :
    m.scheduler.Unhurried := by
  obtain ⟨clock, -, terminal⟩ := (Peripherals.plan d).licensed_unhurried (κ := κ) (ε := ε)
  have staffed : m.scheduler.Staffed (License.unhurried (Board κ ε)) := by
    refine assembled.staffed nofun fun u p _ there => ?_
    unfold Peripherals.actionOf at there
    split at there
    · exact Option.some.inj there ▸ clock.action_within
    · split at there
      · exact Option.some.inj there ▸ terminal.poll_within
      · split at there
        · exact Option.some.inj there ▸ terminal.display_within
        · cases there
  have idle : m.scheduler.agenda.queue = [] := by
    rw [assembled.agenda]
    rfl
  refine ⟨fun u => ?_, ?_, timely_of_empty idle⟩
  · have slot := staffed.others u rfl
    exact ⟨fun p there => License.unhurried_passive (slot.action p there),
      fun k there outcome => License.unhurried_passive (slot.parked k there outcome)⟩
  · rw [Agenda.units, idle]
    exact List.nodup_nil

end

namespace Machine

variable {κ ε : Type} [Console κ] {d : Description} {media : σ} {console : κ} {extra : ε}
  {journal : Journal} {p : Peripherals} {first m : Machine σ (Board κ ε)} {pops : Nat} {h : List Change}

/-- The devices are those of the peripherals, each unit is pending once and in order, and units that wait
are pending. -/
structure Tidy (p : Peripherals) (m : Machine σ (Board κ ε)) : Prop where
  devices : m.registry.devices = #[p.clock.device, p.disk.device, p.terminal.device]
  nodup : m.scheduler.agenda.units.Nodup
  ordered : m.scheduler.agenda.Ordered
  attended : m.scheduler.Attended

theorem built_tidy (built : build pops d media console extra journal = some (.ok p, m)) : m.Tidy p := by
  obtain ⟨-, rfl, bare, ended, equipped⟩ := build_cases built
  have assembled := assembled_of_assemble ended
  have devices := assembled.devices
  have passive := Peripherals.devices_passive devices
  have orderly := Peripherals.orderly devices
  obtain ⟨unhurried, same⟩ := equip_keeps Scheduler.custody_unhurried
    (fun device there => (passive device there).1.unhurried pops)
    (fun device there u => ((passive device there).2 u).unhurried pops) assembled.unhurried equipped
  obtain ⟨attended, -⟩ := equip_keeps Scheduler.custody_attended
    (fun device there => (orderly device there).1.run pops)
    (fun device there u => ((orderly device there).2 u).run pops) assembled.attended equipped
  exact ⟨(congrArg Registry.devices same).trans devices, unhurried.nodup, unhurried.timely.ordered, attended⟩

omit [Console κ] in
/-- A machine stays tidy as long as nothing overflows. -/
theorem Reached.tidy (reached : Reached first m h) (tidy : first.Tidy p)
    (exact : Trail Change.Exact first.scheduler.agenda h) : m.Tidy p := by
  have sound := reached.sound tidy.attended (Peripherals.orderly tidy.devices)
  refine ⟨(congrArg Registry.devices sound.registry).trans tidy.devices, ?_, ?_, sound.attended⟩
  · rw [sound.agenda]
    exact nodup_after sound.possible tidy.nodup
  · rw [sound.agenda]
    exact ordered_after sound.possible exact tidy.ordered

end Machine

end Peripheral
