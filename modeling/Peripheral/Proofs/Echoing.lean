import Peripheral.Proofs.Transcript
import Peripheral.Storage.MemoryImages

/-!
# What a terminal echoes

A processor that echoes gives every character it reads back to the display, a return with a line feed
after it. Each key is then in one place at a time: in the console, among the characters received, as its
echo among those to be displayed, or as its echo on the console. In this order they make up the echo of
all keys typed.

* `Terminal.echoed`, `Terminal.heard` : the echo of characters, and keys but for interrupt characters;
* `Terminal.Echoing` : a board on which no key is lost, doubled or overtaken (`Echoing.typeKeys`,
  `Echoing.giveBack`, `Echoing.display`, `Echoing.poll`);
* `Terminal.relay` : others may echo, but leave the units of the terminal alone;
* `Machine.Echoes` : what comes of a machine that echoes, with all keys typed so far (`Echoes.sound`);
* `echo_conserves` : **whatever is displayed and still to come is the echo of what was typed**.
-/

namespace Peripheral

variable {σ ε : Type}

namespace Terminal

variable {t : Terminal}

/-! ## Keys and their echoes -/

def echoOf (byte : UInt8) : List UInt8 := if byte = 0x0D then [byte, 0x0A] else [byte]

def echoed (bytes : List UInt8) : List UInt8 := bytes.flatMap echoOf

def heard (keys : List UInt8) : List UInt8 := keys.filter (· ≠ interruptChar)

@[simp] theorem echoed_append (first second : List UInt8) :
    echoed (first ++ second) = echoed first ++ echoed second := List.flatMap_append

@[simp] theorem heard_append (first second : List UInt8) :
    heard (first ++ second) = heard first ++ heard second := List.filter_append ..

theorem heard_of_clean {keys : List UInt8} (clean : interruptChar ∉ keys) : heard keys = keys :=
  List.filter_eq_self.2 fun _ there => decide_eq_true fun same => clean (same ▸ there)

/-! ## Boards -/

/-- No key is lost, doubled or overtaken: what is displayed, the characters to be displayed, the echo of
those received and the echo of the keys still in the console make up the echo of all keys typed. -/
structure Echoing (t : Terminal) (typed : List UInt8) (b : Board Headless ε) : Prop where
  present : t.record < b.terminals.size
  conserved : b.console.output.toList ++ (b.terminal t.record).output ++
    echoed (b.terminal t.record).input ++ echoed (heard b.console.input) = echoed (heard typed)

section
variable {b b' : Board Headless ε} {typed : List UInt8}

theorem Echoing.of_same (here : t.Echoing typed b) (present : t.record < b'.terminals.size)
    (console : b'.console = b.console) (record : b'.terminal t.record = b.terminal t.record) :
    t.Echoing typed b' where
  present := present
  conserved := by
    rw [console, record]
    exact here.conserved

theorem Echoing.typeKeys (here : t.Echoing typed b) (keys : List UInt8) :
    t.Echoing (typed ++ keys) { b with console := b.console.queueInput keys } where
  present := here.present
  conserved := by
    show b.console.output.toList ++ (b.terminal t.record).output ++
      echoed (b.terminal t.record).input ++ echoed (heard (b.console.input ++ keys)) = _
    rw [heard_append, heard_append, echoed_append, echoed_append, ← here.conserved]
    simp only [List.append_assoc]

theorem Echoing.giveBack (here : t.Echoing typed b) {byte : UInt8} {rest : List UInt8}
    (received : (b.terminal t.record).input = byte :: rest) (present : t.record < b'.terminals.size)
    (console : b'.console = b.console)
    (record : b'.terminal t.record = ⟨rest, (b.terminal t.record).output ++ echoOf byte⟩) :
    t.Echoing typed b' where
  present := present
  conserved := by
    have conserved := here.conserved
    rw [received, show byte :: rest = [byte] ++ rest from rfl, echoed_append] at conserved
    rw [console, record, ← conserved]
    simp only [echoed, List.flatMap_cons, List.flatMap_nil, List.append_nil, List.append_assoc]

variable [MediaStore σ] {dispatch : Motion σ (Board Headless ε)} {result : Result}
  {s s' : Scheduler σ (Board Headless ε)}

theorem Echoing.display (here : t.Echoing typed s.world)
    (ended : t.display.exec dispatch s = some (result, s')) : t.Echoing typed s'.world := by
  simp only [Terminal.display, Program.exec] at ended
  cases pending : (s.world.terminal t.record).output with
  | nil =>
    rw [pending] at ended
    cases ended
    exact here
  | cons byte rest =>
    rw [pending] at ended
    have conserved := here.conserved
    have shown : t.Echoing typed
        { t.modify (fun r => { r with output := rest }) s.world with
          console := Console.write byte s.world.console } := by
      refine ⟨present_modify here.present _, ?_⟩
      show (s.world.console.output.push byte).toList ++ ((t.modify _ s.world).terminal t.record).output ++
        echoed ((t.modify _ s.world).terminal t.record).input ++ echoed (heard s.world.console.input) = _
      rw [terminal_modify here.present, Array.toList_push, ← conserved, pending]
      simp only [List.append_assoc, List.cons_append, List.nil_append]
    cases rest with
    | nil =>
      cases ended
      exact shown
    | cons byte' rest =>
      have same : (({ s with world := _ } : Scheduler σ (Board Headless ε)).activate t.printer
          t.outputTicks).2 = s' := congrArg Prod.snd (Option.some.inj ended)
      rw [← same, Scheduler.world_activate]
      exact shown

/-- Keys go from the console to the characters received; an interrupt character is taken and not heard. -/
theorem Echoing.poll (here : t.Echoing typed s.world)
    (ended : t.poll.exec dispatch s = some (result, s')) : t.Echoing typed s'.world := by
  have all := takeKeys_headless s.world.console.input s.world.console.output
  generalize took : takeKeys s.world.console.input.length
    (⟨s.world.console.input, s.world.console.output⟩ : Headless) = a at all
  obtain ⟨keys, interrupted, left⟩ := a
  obtain ⟨clean, same, all⟩ := all
  have left_heard : heard s.world.console.input = keys ++ heard left.input := by
    have silent : heard (if interrupted then [interruptChar] else []) = [] := by
      cases interrupted <;> rfl
    rw [all, heard_append, heard_append, heard_of_clean clean, silent, List.append_nil]
  have after : t.Echoing typed
      { t.modify (fun r => { r with input := r.input ++ keys }) s.world with console := left } := by
    have conserved := here.conserved
    refine ⟨present_modify here.present _, ?_⟩
    show left.output.toList ++ ((t.modify _ s.world).terminal t.record).output ++
      echoed ((t.modify _ s.world).terminal t.record).input ++ echoed (heard left.input) = _
    rw [terminal_modify here.present, same, echoed_append, ← conserved, left_heard, echoed_append]
    simp only [List.append_assoc]
  have all_taken : takeKeys (Console.waiting s.world.console) s.world.console =
      (keys, interrupted, left) := took
  rw [exec_taking all_taken] at ended
  dsimp only at ended
  split at ended
  · cases ended
    exact after
  · cases ended
    exact after

/-! ## A processor that echoes -/

theorem exec_putChars (present : t.record < s.world.terminals.size) (bytes : List UInt8) :
    ∃ s' : Scheduler σ (Board Headless ε), (∀ (dispatch : Motion σ (Board Headless ε)) next,
        (t.putChars bytes next).exec dispatch s = (next ()).exec dispatch s') ∧
      t.record < s'.world.terminals.size ∧ s'.world.console = s.world.console ∧
      s'.world.terminal t.record =
        { s.world.terminal t.record with output := (s.world.terminal t.record).output ++ bytes } ∧
      (∀ u, s'.slot u = s.slot u) ∧ s'.slots.size = s.slots.size := by
  induction bytes generalizing s with
  | nil => exact ⟨s, fun _ _ => rfl, present, rfl, by rw [List.append_nil], fun _ => rfl, rfl⟩
  | cons byte rest ih =>
    let put : Scheduler σ (Board Headless ε) :=
      { s with world := t.modify (fun r => { r with output := r.output ++ [byte] }) s.world }
    have world : (put.activate t.printer t.outputTicks).2.world = put.world :=
      Scheduler.world_activate _ _ _
    have there : t.record < put.world.terminals.size := present_modify present _
    obtain ⟨s', ended, present', console, record, slots, size⟩ :=
      ih (s := (put.activate t.printer t.outputTicks).2) (world ▸ there)
    refine ⟨s', ended, present', ?_, ?_, fun u => ?_, ?_⟩
    · rw [console, world]
      rfl
    · rw [record, world, terminal_modify present]
      simp only [List.append_assoc, List.cons_append, List.nil_append]
    · rw [slots, Scheduler.slot_activate]
      rfl
    · rw [size, Scheduler.size_activate]

theorem exec_echo (here : t.Echoing typed s.world) :
    ∃ s' : Scheduler σ (Board Headless ε), (∀ (dispatch : Motion σ (Board Headless ε)) next,
        (t.echo next).exec dispatch s = (next (.ok ())).exec dispatch s') ∧
      t.Echoing typed s'.world ∧ (∀ u, s'.slot u = s.slot u) ∧ s'.slots.size = s.slots.size := by
  let read : Scheduler σ (Board Headless ε) :=
    { s with world := t.modify (fun r =>
      { r with input := (takeKey (s.world.terminal t.record).input).2 }) s.world }
  have there : t.record < read.world.terminals.size := present_modify here.present _
  have record : read.world.terminal t.record = { s.world.terminal t.record with
      input := (takeKey (s.world.terminal t.record).input).2 } := terminal_modify here.present _
  have reads : ∀ (dispatch : Motion σ (Board Headless ε)) next, (t.echo next).exec dispatch s =
      ((takeKey (s.world.terminal t.record).input).1.elim (next (.ok ())) fun byte =>
        t.putChars (echoOf byte) fun _ => next (.ok ())).exec dispatch read := by
    intro dispatch next
    simp only [Terminal.echo, bind, readChar, Act.update, Program.exec]
    cases (takeKey (s.world.terminal t.record).input).1 <;> rfl
  cases received : (s.world.terminal t.record).input with
  | nil =>
    rw [received] at record
    refine ⟨read, fun dispatch next => ?_, here.of_same there rfl ?_, fun _ => rfl, rfl⟩
    · rw [reads, received]
      rfl
    · rw [record, takeKey, ← received]
  | cons byte rest =>
    rw [received] at record
    obtain ⟨s', puts, present, console, record', slots, size⟩ := exec_putChars there (echoOf byte)
    refine ⟨s', fun dispatch next => ?_, here.giveBack received present console ?_, slots, size⟩
    · rw [reads, received]
      exact puts dispatch _
    · rw [record', record]
      rfl

/-! ## The terminal in its machine -/

omit [MediaStore σ] in
/-- The second board has the same record of the terminal and the same console. -/
structure LeftAlone (t : Terminal) (b b' : Board Headless ε) : Prop where
  record : b'.terminals[t.record]? = b.terminals[t.record]?
  console : b'.console = b.console

inductive Echo (t : Terminal) : {α : Type} → Act (Board Headless ε) α → Prop
  | echo : Echo t t.echo

/-- Others may echo. They leave the units of the terminal, its record and the console alone. -/
def relay (t : Terminal) : License (Board Headless ε) where
  staff := t.staff
  calls _ := True
  changes f := ∀ b, t.LeftAlone b (f b)
  deeds := t.Echo
  passive _ _ := trivial

theorem within_echo {next : Result → Program (Board Headless ε)}
    (rest : ∀ result, (next result).Within t.relay) : (t.echo next).Within t.relay :=
  .deed (Echo.echo : t.relay.deeds t.echo) rest

theorem Echoing.leftAlone (here : t.Echoing typed b) (alone : t.LeftAlone b b') : t.Echoing typed b' :=
  here.of_same (Board.present_congr alone.record here.present) alone.console
    (Board.terminal_congr alone.record)

theorem bears_echoing : (t.relay : License (Board Headless ε)).Bears
    (Scheduler.Keeping t.relay (t.Echoing typed) : Scheduler σ (Board Headless ε) → Prop) := by
  refine License.bears_keeping (fun f b permitted here => here.leftAlone (permitted b))
    fun s _ m here deed => ?_
  cases deed with
  | echo =>
    obtain ⟨s', same, echoing, slots, size⟩ := exec_echo here.2
    exact ⟨_, s', ⟨here.1.of_slots slots size, echoing⟩, same⟩

theorem dispatch_echoing (pops : Nat) :
    Motion.Keeps (Scheduler.Keeping t.relay (t.Echoing typed))
      (Scheduler.processEvent pops : Motion σ (Board Headless ε)) := by
  refine bears_echoing.world_kept (fun dispatch u p there s result s' ended => ?_) pops
  rcases staff_some there with ⟨-, rfl⟩ | ⟨-, rfl⟩
  · exact ⟨fun here => here.poll ended, slots_poll ended⟩
  · exact ⟨fun here => here.display ended, slots_display ended⟩

/-! ## Before the first character -/

/-- No key is lost and no character has been received. -/
def Blank (t : Terminal) (typed : List UInt8) (b : Board Headless ε) : Prop :=
  t.Echoing typed b ∧ b.terminal t.record = {}

theorem bears_blank : (t.relay.quiet : License (Board Headless ε)).Bears
    (Scheduler.Keeping t.relay.quiet (t.Blank typed) : Scheduler σ (Board Headless ε) → Prop) := by
  refine License.bears_keeping (fun f b permitted here => ⟨here.1.leftAlone (permitted b), ?_⟩)
    fun s _ m here deed => deed.elim
  rw [Board.terminal_congr (permitted b).record]
  exact here.2

theorem reset_blank (apart : t.keyboard ≠ t.printer) (pops : Nat) :
    Motion.Keeps (Scheduler.Keeping t.relay.quiet (t.Blank typed))
      ((t.reset .done).run pops : Motion σ (Board Headless ε)) := by
  intro s here result s' ended
  obtain ⟨staffed, world, -⟩ := reset_staffed here.1 (fun _ => rfl) apart ended
  have record : s'.world.terminal t.record = {} := by
    rw [world, terminal_modify here.2.1.present]
  refine ⟨staffed, here.2.1.of_same ?_ ?_ (record.trans here.2.2.symm), record⟩
  · rw [world]
    exact present_modify here.2.1.present _
  · rw [world]
    rfl

end

end Terminal

open Terminal

/-! ## Machines -/

section
variable {d : Description} {keys : List UInt8} {extra : ε} {pops : Nat}

theorem Peripherals.keep_from_echo (d : Description) :
    (plan d).clock.Licensed ((plan d).terminal.relay.quiet : License (Board Headless ε)) ∧
      (plan d).disk.Licensed ((plan d).terminal.relay.quiet : License (Board Headless ε)) :=
  spare_terminal d (fun _ => rfl) (fun _ _ _ => ⟨rfl, rfl⟩) fun _ _ _ => ⟨rfl, rfl⟩

namespace Machine

variable {m m' : Machine σ (Board Headless ε)}

theorem Assembled.blank (assembled : m.Assembled d (.withInput keys) extra) :
    m.scheduler.Keeping (Peripherals.plan d).terminal.relay.quiet
      ((Peripherals.plan d).terminal.Blank keys) := by
  refine ⟨assembled.staffed_terminal (fun _ => rfl) (Peripherals.keep_from_echo d).1, ?_⟩
  rw [assembled.world]
  exact ⟨⟨Nat.zero_lt_one, rfl⟩, rfl⟩

variable [MediaStore σ]

theorem built_echoing {media : σ} {journal : Journal} {p : Peripherals}
    (built : build pops d media (.withInput keys) extra journal = some (.ok p, m)) :
    m.scheduler.Keeping p.terminal.relay (p.terminal.Echoing keys) := by
  obtain ⟨-, rfl, bare, ended, equipped⟩ := build_cases built
  have assembled := assembled_of_assemble ended
  obtain ⟨clock, disk⟩ := Peripherals.keep_from_echo (ε := ε) d
  have apart : (Peripherals.plan d).terminal.keyboard ≠ (Peripherals.plan d).terminal.printer :=
    Nat.ne_of_lt (Nat.lt_succ_self _)
  have resets : ∀ device ∈ bare.registry.devices.toList,
      Motion.Keeps (Scheduler.Keeping (Peripherals.plan d).terminal.relay.quiet
        ((Peripherals.plan d).terminal.Blank keys))
        (device.reset.run pops : Motion σ (Board Headless ε)) := by
    intro device there
    rw [assembled.devices] at there
    simp only [List.mem_cons, List.not_mem_nil, or_false] at there
    rcases there with rfl | rfl | rfl
    · exact clock.reset_within.keeps bears_blank _
    · exact disk.reset_within.keeps bears_blank _
    · exact reset_blank apart pops
  obtain ⟨left, -⟩ := equip_keeps bears_blank.custody resets (fun device there u => by
    rw [assembled.devices] at there
    exact (Peripherals.boots_within disk device there u).keeps bears_blank _) assembled.blank equipped
  exact ⟨left.1.of_quiet, left.2.1⟩

/-- Machines of descriptions that are run by processors that echo, with all keys typed so far. -/
inductive Echoes (t : Terminal) : Machine σ (Board Headless ε) → List UInt8 → Prop
  | built {d : Description} {media : σ} {keys : List UInt8} {extra : ε} {journal : Journal} {pops : Nat}
      {p : Peripherals} {m : Machine σ (Board Headless ε)} :
    build pops d media (.withInput keys) extra journal = some (.ok p, m) → p.terminal = t →
      Echoes t m keys
  | typeKeys {m : Machine σ (Board Headless ε)} {typed : List UInt8} (keys : List UInt8) :
    Echoes t m typed →
      Echoes t { m with scheduler := { m.scheduler with world :=
        { m.scheduler.world with console := m.scheduler.world.console.queueInput keys } } } (typed ++ keys)
  /-- A program is run that leaves the terminal alone, but for echoing: it may ask for a stop, have
  other units do so later, or attach media. -/
  | call {m : Machine σ (Board Headless ε)} {typed : List UInt8} {p : Program (Board Headless ε)}
      {pops : Nat} {result : Result} {s : Scheduler σ (Board Headless ε)} :
    Echoes t m typed → p.Within t.relay → p.run pops m.scheduler = some (result, s) →
      Echoes t { m with scheduler := s } typed
  /-- The instruction of the processor echoes, and may ask for a stop at any tick. -/
  | run {m m' : Machine σ (Board Headless ε)} {typed : List UInt8} {pops slots : Nat}
      {instruction : Program (Board Headless ε)} {budget : Option Nat}
      {report : Except Status RunReport} :
    Echoes t m typed → instruction.Within t.relay →
      m.run pops slots instruction budget = some (report, m') → Echoes t m' typed

theorem Echoes.sound {t : Terminal} {typed : List UInt8} (echoes : m.Echoes t typed) :
    m.scheduler.Keeping t.relay (t.Echoing typed) := by
  induction echoes with
  | built built same => exact same ▸ built_echoing built
  | typeKeys keys _ ih => exact ⟨ih.1.of_same_slots rfl, ih.2.typeKeys keys⟩
  | call _ within ended ih => exact within.keeps bears_echoing _ _ ih _ _ ended
  | run _ within ran ih =>
    exact (run_keeps bears_echoing.custody (fun s here => ⟨here.1.of_same_slots rfl, here.2⟩)
      (dispatch_echoing _) (within.keeps bears_echoing _) ih ran).1

end Machine

end

/-- However long a machine of a description is run by a processor that echoes, and whenever it is stopped
and gets more keys: what the console has displayed, the characters still to be displayed, the echo of those
received and the echo of the keys still in the console are together the echo of all keys ever typed but for
interrupt characters. So the console never displays anything else. -/
theorem echo_conserves [MediaStore σ] {t : Terminal} {m : Machine σ (Board Headless ε)}
    {typed : List UInt8} (echoes : m.Echoes t typed) :
    let board := m.scheduler.world
    let record := board.terminal t.record
    board.console.output.toList ++ record.output ++ echoed record.input ++
        echoed (heard board.console.input) = echoed (heard typed) ∧
      board.console.output.toList <+: echoed (heard typed) := by
  have conserved := echoes.sound.2.conserved
  refine ⟨conserved, ?_⟩
  rw [← conserved, List.append_assoc, List.append_assoc]
  exact List.prefix_append ..

/-- Two keys are echoed in part when three more are typed, an interrupt among them, which stops the machine.
What has been displayed is the beginning of the whole echo, and all the rest is still there. -/
theorem echo_conserves_through_interrupt :
    ∃ (t : Terminal) (m : Machine MemoryImages (Board Headless Unit)),
      m.Echoes t [0x61, 0x0D, 0x62, interruptChar, 0x63] ∧
      m.scheduler.world.console = ⟨[0x63], #[0x61]⟩ ∧
      m.scheduler.world.terminal t.record = { input := [0x62], output := [0x0D, 0x0A] } ∧
      m.scheduler.world.console.output.toList <+: [0x61, 0x0D, 0x0A, 0x62, 0x63] := by
  let d : Description :=
    { time := { tickRate := 420 }, terminal := { pollTicks := 3, outputTicks := 2 } }
  let t := (Peripherals.plan d).terminal
  let later : List UInt8 := [0x62, interruptChar, 0x63]
  let typing (m : Machine MemoryImages (Board Headless Unit)) : Machine MemoryImages _ :=
    { m with scheduler := { m.scheduler with world :=
      { m.scheduler.world with console := m.scheduler.world.console.queueInput later } } }
  let built : Option (Except Status Peripherals × Machine MemoryImages (Board Headless Unit)) :=
    Machine.build 99 d ⟨[], []⟩ (.withInput [0x61, 0x0D]) () (.empty none)
  have builds : built.map (·.1) = some (.ok (Peripherals.plan d)) := by decide +kernel
  have course : (built.bind fun a => (a.2.run 99 0 (t.echo .done) (some 6)).bind fun b =>
      ((typing b.2).run 99 0 (t.echo .done) (some 9)).map fun c =>
        (c.2.scheduler.world.console, c.2.scheduler.world.terminal t.record)) =
      some (⟨[0x63], #[0x61]⟩, { input := [0x62], output := [0x0D, 0x0A] }) := by
    decide +kernel
  obtain ⟨⟨_, m⟩, ended, rfl⟩ := Option.map_eq_some_iff.1 builds
  rw [ended, Option.bind_some] at course
  obtain ⟨⟨report, m'⟩, ran, course⟩ := Option.bind_eq_some_iff.1 course
  obtain ⟨⟨report', m''⟩, ran', course⟩ := Option.map_eq_some_iff.1 course
  obtain ⟨console, record⟩ := Prod.mk.inj course
  have echoing : (t.echo .done : Program (Board Headless Unit)).Within t.relay :=
    within_echo fun result => .done result
  have first : m'.Echoes t [0x61, 0x0D] := .run (.built ended rfl) echoing ran
  have echoes : m''.Echoes t ([0x61, 0x0D] ++ later) := .run (first.typeKeys later) echoing ran'
  exact ⟨t, m'', echoes, console, record, (echo_conserves echoes).2⟩

end Peripheral
