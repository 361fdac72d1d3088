import Peripheral.Proofs.Operating
import Peripheral.Proofs.TerminalUnits
import Peripheral.Storage.MemoryImages

/-!
# No byte is lost between a processor and its console

From the first reset of a terminal on, whatever is done with its machine: what has been displayed and what
is still to be displayed is what the terminal was given; what was read from it and what can still be read is
what was typed and taken, but for interrupt characters.

* `Dispatched`, `runDispatched` : the dispatches of a machine, with the keys that each took;
* `Terminal.Ready`, `Ready.reset` : a terminal before its first reset, and after it;
* `Machine.Converses` : what comes of a machine in the course of its operations, and its dispatches so far;
* `Converses.sound` : every operation keeps all bytes;
* `Machine.built_converses` : every machine that is built from a description is one of them;
* `terminal_conserves` : **bytes displayed and pending are those given; bytes read and pending are those
  taken; each interrupt has ended a dispatch; both units are in the queue when they have to be**.
-/

namespace Peripheral
open Terminal

variable {σ ε : Type} [MediaStore σ]

/-! ## Dispatches of a machine -/

/-- A dispatch: the keys that it took from the console, and what it came to. -/
structure Dispatched where
  keys : List UInt8
  result : Result
deriving DecidableEq

namespace Scheduler

def dispatched (pops : Nat) (s : Scheduler σ (Parlor ε)) : List Dispatched :=
  match s.processEvent pops with
  | none => []
  | some (result, s') => [⟨s'.world.taken.drop s.world.taken.length, result⟩]

/-- The dispatch at the beginning of a slot, which takes place if something is due. -/
def slotDispatched (pops : Nat) (s : Scheduler σ (Parlor ε)) : List Dispatched :=
  if s.agenda.interval ≤ 0 then s.dispatched pops else []

/-- The dispatches of a run over a number of slots. -/
def runDispatched (pops : Nat) (instruction : Program (Parlor ε)) :
    Nat → Scheduler σ (Parlor ε) → List Dispatched
  | 0, _ => []
  | slots + 1, s =>
    s.slotDispatched pops ++
      match Machine.slotOf pops instruction s with
      | some (.ok (), s') => runDispatched pops instruction slots (s'.consume 1)
      | _ => []

end Scheduler

/-! ## The first reset -/

namespace Terminal

variable {t : Terminal} {s s' : Scheduler σ (Parlor ε)}

/-- A terminal whose transcript has just been opened. Its units may be in the queue, and its record may hold
anything. -/
structure Ready (t : Terminal) (l : License (Parlor ε)) (s : Scheduler σ (Parlor ε)) : Prop extends
    s.Staffed l where
  apart : t.keyboard ≠ t.printer
  present : t.record < s.world.terminals.size
  opened : s.world.script = .opened s.world.console

omit [MediaStore σ] in
theorem Ready.of_quiet (ready : t.Ready t.license.quiet s) : t.Ready t.license s :=
  ⟨ready.toStaffed.of_quiet, ready.apart, ready.present, ready.opened⟩

omit [MediaStore σ] in
theorem Ready.spared {l : License (Parlor ε)} (ready : t.Ready l s) (staffed : s'.Staffed l)
    (spared : t.Spared s.world s'.world) : t.Ready l s' := by
  refine ⟨staffed, ready.apart, spared.present ready.present, ?_⟩
  rw [spared.script, spared.console]
  exact ready.opened

theorem Ready.reset (ready : t.Ready t.license s) {pops : Nat} {result : Result}
    (ended : (t.reset .done).run pops s = some (result, s')) : t.Holding [] s' := by
  let cleared : Parlor ε := t.modify (fun _ => {}) s.world
  obtain ⟨staffed, kept, polls⟩ :=
    reset_staffed ready.toStaffed (fun _ => rfl) ready.apart ended
  have record : cleared.terminal t.record = {} := terminal_modify ready.present _
  have typed : cleared.script.typed = [] ++ cleared.console.input :=
    congrArg Transcript.typed ready.opened
  have taken := Parlor.taken_of_typed typed
  have balanced : t.Balanced cleared := by
    refine ⟨present_modify ready.present _, ⟨[], ?_, ?_⟩, taken.symm ▸ typed, ?_⟩
    · rw [List.append_nil]
      exact (congrArg Transcript.shown ready.opened).symm
    · rw [record]
      exact (congrArg Transcript.given ready.opened).symm
    · rw [record, taken, List.append_nil]
      exact congrArg Transcript.read ready.opened
  refine ⟨⟨staffed, ready.apart, kept ▸ balanced, fun _ pending => ?_, fun _ => polls⟩, by rw [kept, taken]⟩
  rw [kept, record] at pending
  exact absurd rfl pending

theorem bears_ready :
    (t.license.quiet : License (Parlor ε)).Bears
      (t.Ready t.license.quiet : Scheduler σ (Parlor ε) → Prop) where
  staffed _ ready := ready.toStaffed
  perform _ c ready _ spares :=
    ready.spared (ready.toStaffed.perform spares) (spared_perform ready.hooks c)
  change s _ ready permitted := ready.spared (ready.toStaffed.of_same_slots rfl) (permitted s.world)
  modifySlot _ _ f ready other carries hooks :=
    ready.spared (ready.toStaffed.modifySlot other f carries hooks) (.refl _)
  deed _ _ _ _ none := none.elim

end Terminal

/-! ## Logs -/

namespace Terminal

variable {t : Terminal} {log : List Dispatched} {s s' : Scheduler σ (Parlor ε)} {pops : Nat}
  {result : Result}

/-- No byte is lost, all keys were taken by the dispatches of the log, and each interrupt has ended one. -/
structure Logged (t : Terminal) (log : List Dispatched) (s : Scheduler σ (Parlor ε)) : Prop where
  holding : t.Holding (log.flatMap Dispatched.keys) s
  obeys : ∀ d ∈ log, Obeys d.keys d.result

omit [MediaStore σ] in
theorem Logged.keep (logged : t.Logged log s) {motion : Motion σ (Parlor ε)}
    (keeps : motion.Keeps (t.Holding (log.flatMap Dispatched.keys))) (ended : motion s = some (result, s')) :
    t.Logged log s' :=
  ⟨keeps s logged.holding _ _ ended, logged.obeys⟩

theorem Logged.call (logged : t.Logged log s) {p : Program (Parlor ε)} (within : p.Within t.license)
    (ended : p.run pops s = some (result, s')) : t.Logged log s' :=
  logged.keep (within.keeps bears_holding _) ended

theorem Logged.consume (logged : t.Logged log s) : t.Logged log (s.consume 1) :=
  ⟨bears_holding.perform s (.consume 1) logged.holding trivial fun _ _ _ => trivial, logged.obeys⟩

theorem Logged.dispatch (logged : t.Logged log s) (ended : s.processEvent pops = some (result, s')) :
    t.Logged (log ++ s.dispatched pops) s' := by
  obtain ⟨here, before⟩ := logged.holding
  obtain ⟨after, keys, taken, obeys⟩ := here.processEvent ended
  have last : s.dispatched pops = [⟨keys, result⟩] := by
    unfold Scheduler.dispatched
    rw [ended]
    dsimp only
    rw [taken, List.drop_left]
  rw [last]
  refine ⟨⟨after, ?_⟩, fun d there => ?_⟩
  · rw [taken, before, List.flatMap_append, List.flatMap_singleton]
  · rcases List.mem_append.1 there with old | new
    · exact logged.obeys d old
    · rw [List.mem_singleton.1 new]
      exact obeys

theorem Logged.slotOf (logged : t.Logged log s) {instruction : Program (Parlor ε)}
    (within : instruction.Within t.license)
    (ended : Machine.slotOf pops instruction s = some (result, s')) :
    t.Logged (log ++ s.slotDispatched pops) s' := by
  unfold Machine.slotOf at ended
  unfold Scheduler.slotDispatched
  split at ended
  · rename_i due
    rw [if_pos due]
    split at ended
    · cases ended
    · rename_i dispatched
      cases ended
      exact logged.dispatch dispatched
    · rename_i dispatched
      exact (logged.dispatch dispatched).call within ended
  · rename_i ahead
    rw [if_neg ahead, List.append_nil]
    exact logged.call within ended

theorem Logged.tick (logged : t.Logged log s) (ended : s.tick pops = some (result, s')) :
    t.Logged (log ++ s.slotDispatched pops) s' := by
  unfold Scheduler.tick at ended
  unfold Scheduler.slotDispatched
  split at ended
  · rename_i due
    rw [if_pos due]
    split at ended
    · cases ended
    · rename_i dispatched
      cases ended
      exact logged.dispatch dispatched
    · rename_i dispatched
      cases ended
      exact (logged.dispatch dispatched).consume
  · rename_i ahead
    cases ended
    rw [if_neg ahead, List.append_nil]
    exact logged.consume

theorem Logged.runSlots (logged : t.Logged log s) {instruction : Program (Parlor ε)}
    (within : instruction.Within t.license) {slots ticks last : Nat} {pause : Machine.Pause}
    (ended : Machine.runSlots pops instruction slots ticks s = some (pause, last, s')) :
    t.Logged (log ++ s.runDispatched pops instruction slots) s' := by
  induction slots generalizing log ticks s with
  | zero =>
    cases ended
    rwa [Scheduler.runDispatched, List.append_nil]
  | succ slots ih =>
    rw [Machine.runSlots] at ended
    rw [Scheduler.runDispatched, ← List.append_assoc]
    split at ended
    · cases ended
    · rename_i slot
      cases ended
      rw [slot, List.append_nil]
      exact logged.slotOf within slot
    · rename_i slot
      rw [slot]
      exact ih (logged.slotOf within slot).consume ended

end Terminal

/-! ## Machines in the course of their operations -/

namespace Machine

variable {t : Terminal} {m m' : Machine σ (Parlor ε)} {log : List Dispatched}

/-- What the devices of a machine boot keeps to a license. -/
def Boots (l : License (Parlor ε)) (m : Machine σ (Parlor ε)) : Prop :=
  ∀ device ∈ m.registry.devices.toList, ∀ u, Program.Within l (device.boot u)

omit [MediaStore σ] in
theorem Boots.of_same {l : License (Parlor ε)} (boots : m.Boots l) (same : m'.registry = m.registry) :
    m'.Boots l := by
  unfold Boots
  rw [same]
  exact boots

/-- Machines that come up in the course of their operations from the first reset of a terminal on, and all
dispatches since. -/
inductive Converses (t : Terminal) : Machine σ (Parlor ε) → List Dispatched → Prop
  | reset {m : Machine σ (Parlor ε)} {pops : Nat} {result : Result} {s : Scheduler σ (Parlor ε)} :
    t.Ready t.license m.scheduler → m.Boots t.license →
      (t.reset .done).run pops m.scheduler = some (result, s) → Converses t { m with scheduler := s } []
  /-- A program is run: characters are given and read, keys are typed, ticks are spent, other units are
  scheduled and cancelled. -/
  | call {m : Machine σ (Parlor ε)} {log : List Dispatched} {p : Program (Parlor ε)} {pops : Nat}
      {result : Result} {s : Scheduler σ (Parlor ε)} :
    Converses t m log → p.Within t.license → p.run pops m.scheduler = some (result, s) →
      Converses t { m with scheduler := s } log
  | attach {m : Machine σ (Parlor ε)} {log : List Dispatched} (device : String) (unit : UInt64)
      (name : String) : Converses t m log → Converses t (m.attach device unit name).2 log
  | detach {m : Machine σ (Parlor ε)} {log : List Dispatched} (device : String) (unit : UInt64) :
    Converses t m log → Converses t (m.detach device unit).2 log
  | detachAll {m : Machine σ (Parlor ε)} {log : List Dispatched} :
    Converses t m log → Converses t m.detachAll.2 log
  | boot {m m' : Machine σ (Parlor ε)} {log : List Dispatched} {pops : Nat} {device : String}
      {unit : UInt64} {result : Result} :
    Converses t m log → m.boot pops device unit = some (result, m') → Converses t m' log
  | processEvent {m : Machine σ (Parlor ε)} {log : List Dispatched} {pops : Nat} {result : Result}
      {s : Scheduler σ (Parlor ε)} :
    Converses t m log → m.scheduler.processEvent pops = some (result, s) →
      Converses t { m with scheduler := s } (log ++ m.scheduler.dispatched pops)
  | tick {m : Machine σ (Parlor ε)} {log : List Dispatched} {pops : Nat} {result : Result}
      {s : Scheduler σ (Parlor ε)} :
    Converses t m log → m.scheduler.tick pops = some (result, s) →
      Converses t { m with scheduler := s } (log ++ m.scheduler.slotDispatched pops)
  | run {m m' : Machine σ (Parlor ε)} {log : List Dispatched} {pops slots : Nat}
      {instruction : Program (Parlor ε)} {budget : Option Nat} {report : Except Status RunReport} :
    Converses t m log → instruction.Within t.license →
      m.run pops slots instruction budget = some (report, m') →
      Converses t m' (log ++ m.scheduler.runDispatched pops instruction (budget.getD slots))

theorem Converses.sound (converses : m.Converses t log) : m.Boots t.license ∧ t.Logged log m.scheduler := by
  have custody {taken : List UInt8} :
      Scheduler.Custody (t.Holding taken : Scheduler σ (Parlor ε) → Prop) := bears_holding.custody
  induction converses with
  | reset ready boots ended => exact ⟨boots, ready.reset ended, fun _ => nofun⟩
  | call _ within ended ih => exact ⟨ih.1, ih.2.call within ended⟩
  | attach device unit name _ ih =>
    obtain ⟨left, same⟩ := attach_keeps custody ih.2.holding device unit name
    exact ⟨ih.1.of_same same, left, ih.2.obeys⟩
  | detach device unit _ ih =>
    obtain ⟨left, same⟩ := detach_keeps custody ih.2.holding device unit
    exact ⟨ih.1.of_same same, left, ih.2.obeys⟩
  | detachAll _ ih => exact ⟨ih.1, detachAll_keeps custody ih.2.holding, ih.2.obeys⟩
  | boot _ ended ih =>
    obtain ⟨left, same⟩ :=
      boot_keeps (fun device there u => (ih.1 device there u).keeps bears_holding _) ih.2.holding ended
    exact ⟨ih.1.of_same same, left, ih.2.obeys⟩
  | processEvent _ ended ih => exact ⟨ih.1, ih.2.dispatch ended⟩
  | tick _ ended ih => exact ⟨ih.1, ih.2.tick ended⟩
  | run _ within ended ih =>
    obtain ⟨pause, ticks, s, slots, same⟩ := run_cases ended
    have left := ih.2.runSlots within slots
    cases same
    exact ⟨ih.1, report_keeps custody left.holding ticks pause, left.obeys⟩

end Machine

/-! ## Machines of descriptions -/

section
variable {d : Description} {console : Headless} {e : ε} {pops : Nat}

omit [MediaStore σ] in
theorem Peripherals.keep_from_terminal (d : Description) :
    (plan d).clock.Licensed ((plan d).terminal.license.quiet : License (Parlor ε)) ∧
      (plan d).disk.Licensed ((plan d).terminal.license.quiet : License (Parlor ε)) :=
  spare_terminal d (fun _ => rfl) (fun _ _ _ => ⟨rfl, rfl, rfl⟩) fun _ _ _ => ⟨rfl, rfl, rfl⟩

namespace Machine

variable {m m' : Machine σ (Parlor ε)}

omit [MediaStore σ] in
theorem Assembled.ready (assembled : m.Assembled d console (.opened console, e)) :
    (Peripherals.plan d).terminal.Ready (Peripherals.plan d).terminal.license.quiet m.scheduler := by
  obtain ⟨clock, -⟩ := Peripherals.keep_from_terminal (ε := ε) d
  refine ⟨assembled.staffed_terminal (fun _ => rfl) clock, ?_, ?_, ?_⟩
  · exact Nat.ne_of_lt (Nat.lt_succ_self _)
  · rw [assembled.world]
    exact Nat.zero_lt_one
  · rw [assembled.world]
    rfl

theorem resetAll_converses
    (devices : m.registry.devices = #[(Peripherals.plan d).clock.device, (Peripherals.plan d).disk.device,
      (Peripherals.plan d).terminal.device])
    (ready : (Peripherals.plan d).terminal.Ready (Peripherals.plan d).terminal.license.quiet m.scheduler)
    (reset : m.resetAll pops = some (.ok (), m')) : m'.Converses (Peripherals.plan d).terminal [] := by
  obtain ⟨clock, disk⟩ := Peripherals.keep_from_terminal (ε := ε) d
  obtain ⟨⟨result, s⟩, ended, same⟩ := Option.map_eq_some_iff.1 reset
  cases same
  have boots : m.Boots (Peripherals.plan d).terminal.license := by
    intro device there u
    rw [devices] at there
    exact (Peripherals.boots_within disk device there u).of_quiet
  rw [Registry.resetAll, devices, Registry.resetEach] at ended
  split at ended
  · cases ended
  · cases ended
  rename_i b first
  rw [Registry.resetEach] at ended
  split at ended
  · cases ended
  · cases ended
  rename_i c second
  rw [Registry.resetEach] at ended
  split at ended
  · cases ended
  · cases ended
  rename_i last third
  cases ended
  have after := clock.reset_within.keeps bears_ready _ _ ready _ _ first
  have before := disk.reset_within.keeps bears_ready _ _ after _ _ second
  exact .reset (m := { m with scheduler := c }) before.of_quiet boots third

theorem Assembled.equip_converses (assembled : m.Assembled d console (.opened console, e))
    (equipped : m.equip pops d = some (.ok (), m')) : m'.Converses (Peripherals.plan d).terminal [] := by
  obtain ⟨before, after, same, reset, rest⟩ := equip_cases equipped
  have attached := attachEach_keeps bears_ready.custody d.attach assembled.ready
  rw [same] at attached
  have devices := (congrArg Registry.devices attached.2).trans assembled.devices
  have converses := resetAll_converses devices attached.1 reset
  rcases rest with rfl | ⟨device, booted⟩
  · exact converses
  · exact converses.boot booted

/-- Whatever is done with a machine that was built from a description, its terminal loses no byte: it
starts with the transcript open. -/
theorem built_converses {media : σ} {journal : Journal} {p : Peripherals}
    (built : build pops d media console (.opened console, e) journal = some (.ok p, m)) :
    m.Converses p.terminal [] := by
  obtain ⟨-, rfl, bare, ended, equipped⟩ := build_cases built
  exact (assembled_of_assemble ended).equip_converses equipped

end Machine

end

/-- From the first reset of a terminal on, between any two operations of its machine: (1) the bytes that the
console has displayed since, followed by those still to be displayed, are the bytes given to the terminal;
(2) while something is to be displayed, the printer is in the queue; (3) the bytes read from the terminal,
followed by those still to be read, are the keys taken from the console but for the interrupt characters;
they were taken by the dispatches, and a dispatch that took an interrupt character took it last, ended with
it, and left the keys after it in the console; (4) the keyboard is in the queue. -/
theorem terminal_conserves {t : Terminal} {m : Machine σ (Parlor ε)} {log : List Dispatched}
    (converses : m.Converses t log) :
    let board := m.scheduler.world
    let record := board.terminal t.record
    (∃ displayed, board.console.output.toList = board.script.shown ++ displayed ∧
      displayed ++ record.output = board.script.given) ∧
    (record.output ≠ [] → t.printer ∈ m.scheduler.agenda.units) ∧
    (∃ taken, board.script.typed = taken ++ board.console.input ∧
      board.script.read ++ record.input = taken.filter (· ≠ interruptChar) ∧
      taken = log.flatMap Dispatched.keys ∧
      ∀ d ∈ log, interruptChar ∈ d.keys →
        ∃ before, d.keys = before ++ [interruptChar] ∧ interruptChar ∉ before ∧
          d.result = .error .stopped) ∧
    t.keyboard ∈ m.scheduler.agenda.units := by
  obtain ⟨here, taken⟩ := converses.sound.2.holding
  refine ⟨here.balanced.displayed, here.prints nofun, ⟨_, here.balanced.typed, here.balanced.read, taken,
    fun d there interrupted => ?_⟩, here.polls nofun⟩
  exact (converses.sound.2.obeys d there).resolve_left fun clean => clean interrupted

/-- Three characters are given to a terminal, and three keys typed, an interrupt between the other two. The
run ends with the interrupt: the first key can be read, the one after the interrupt stays in the console, and
both units wait for more. -/
theorem interrupt_leaves_later_keys :
    ∃ (t : Terminal) (m : Machine MemoryImages (Parlor Unit)) (log : List Dispatched),
      m.Converses t log ∧ log.map Dispatched.keys = [[], [0x61, interruptChar]] ∧
      m.scheduler.world.console = ⟨[0x62], #[0x41]⟩ ∧
      m.scheduler.world.terminal t.record = { input := [], output := [0x42, 0x43] } ∧
      m.scheduler.world.script.read = [0x61] ∧
      t.printer ∈ m.scheduler.agenda.units ∧ t.keyboard ∈ m.scheduler.agenda.units ∧
      ∃ d ∈ log, d.result = .error .stopped := by
  let d : Description :=
    { time := { tickRate := 420 }, terminal := { pollTicks := 3, outputTicks := 2 } }
  let t := (Peripherals.plan d).terminal
  let console := Headless.withInput []
  let talk : Program (Parlor Unit) := t.give 0x41 fun _ => t.give 0x42 fun _ => t.give 0x43 fun _ =>
    typeKeys [0x61, interruptChar, 0x62] fun _ => .done (.ok ())
  let listen : Program (Parlor Unit) := t.receive fun _ => .done (.ok ())
  let idle : Program (Parlor Unit) := .done (.ok ())
  have talks : talk.Within t.license :=
    within_give _ <| within_give _ <| within_give _ <| within_typeKeys _ <| .done _
  have listens : listen.Within t.license := within_receive fun _ => .done _
  let built : Option (Except Status Peripherals × Machine MemoryImages (Parlor Unit)) :=
    Machine.build 99 d ⟨[], []⟩ console (.opened console, ()) (.empty none)
  have builds : built.map (·.1) = some (.ok (Peripherals.plan d)) := by decide +kernel
  have course : (built.bind fun a => (talk.run 99 a.2.scheduler).bind fun b =>
      (({ a.2 with scheduler := b.2 } : Machine _ _).run 99 0 idle (some 9)).bind fun c =>
        (listen.run 99 c.2.scheduler).map fun e =>
          ((b.2.runDispatched 99 idle 9).map Dispatched.keys, e.2.world.console,
            e.2.world.terminal t.record)) =
      some ([[], [0x61, interruptChar]], ⟨[0x62], #[0x41]⟩, { input := [], output := [0x42, 0x43] }) := by
    decide +kernel
  obtain ⟨⟨_, m⟩, ended, rfl⟩ := Option.map_eq_some_iff.1 builds
  rw [ended, Option.bind_some] at course
  obtain ⟨⟨result, s⟩, talked, course⟩ := Option.bind_eq_some_iff.1 course
  obtain ⟨⟨report, m'⟩, ran, course⟩ := Option.bind_eq_some_iff.1 course
  obtain ⟨⟨result', s'⟩, listened, course⟩ := Option.map_eq_some_iff.1 course
  obtain ⟨keys, left⟩ := Prod.mk.inj course
  obtain ⟨shown, record⟩ := Prod.mk.inj left
  have converses : ({ m' with scheduler := s' } : Machine _ _).Converses t
      ([] ++ s.runDispatched 99 idle 9) :=
    .call (.run (.call (Machine.built_converses ended) talks talked) (.done _) ran) listens listened
  obtain ⟨-, prints, ⟨taken, -, read, all, stops⟩, polls⟩ := terminal_conserves converses
  have taken_eq : taken = [0x61, interruptChar] := by
    rw [all, List.nil_append, List.flatMap_def, keys]
    rfl
  have there : [0x61, interruptChar] ∈ (s.runDispatched 99 idle 9).map Dispatched.keys := by
    rw [keys]
    exact List.mem_cons_of_mem _ List.mem_cons_self
  obtain ⟨last, logged, same⟩ := List.mem_map.1 there
  obtain ⟨_, _, _, stopped⟩ := stops last logged (same ▸ List.mem_cons_of_mem _ List.mem_cons_self)
  refine ⟨t, _, _, converses, keys, shown, record, ?_, prints ?_, polls, last, logged, stopped⟩
  · rw [show ({ m' with scheduler := s' } : Machine _ _).scheduler.world.terminal t.record = _ from record,
      List.append_nil, taken_eq] at read
    exact read
  · rw [show ({ m' with scheduler := s' } : Machine _ _).scheduler.world.terminal t.record = _ from record]
    exact List.cons_ne_nil _ _

end Peripheral
