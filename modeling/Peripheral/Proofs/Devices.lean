import Peripheral.Proofs.Assembly
import Peripheral.Proofs.Operating
import Peripheral.Proofs.Staff

/-!
# Devices that keep to a license

What the clock, the disk and the terminal of a machine do leaves the units of any other device alone.

* `LineClock.Licensed`, `SectorDisk.Licensed`, `Terminal.Licensed` : a license permits what the device
  does;
* `reset_within`, `action_within`, `submit_within`, `boot_within`, `poll_within`, `display_within` : **then
  its programs keep to the license**;
* `Bears.custody`, `Assembled.staffed` : so do the calls of a machine by itself, and a fresh machine;
* `Terminal.staff`, `Peripherals.spare_terminal`, `Assembled.staffed_terminal` : a license around the units
  of a terminal;
* `reset_staffed`, `exec_taking`, `slots_poll`, `slots_display` : the reset of a terminal, and what its
  units do when they run.
-/

namespace Peripheral
open Program

variable {κ ε : Type} {l : License (Board κ ε)}

theorem License.permits_call {u : UnitId} (other : l.staff u = none) {c : Call} (passive : c.Passive)
    (only : ∀ v, v ≠ u → c.Spares v) : l.calls c ∧ l.Spares c :=
  ⟨l.passive c passive, fun v _ there => only v (ne_of_staff other there).symm⟩

section
variable {u : UnitId}

theorem Program.Within.cancel {next : Unit → Program (Board κ ε)} (other : l.staff u = none)
    (rest : Within l (next ())) : Within l (Act.perform (.cancel u) next) :=
  have permitted := l.permits_call (c := .cancel u) other trivial fun _ => Ne.symm
  .call permitted.1 permitted.2 fun _ => rest

theorem Program.Within.activate {ticks : Int32} {next : Activation → Program (Board κ ε)}
    (other : l.staff u = none) (rest : ∀ a, Within l (next a)) :
    Within l (Act.perform (.activate u ticks) next) :=
  have permitted := l.permits_call (c := .activate u ticks) other trivial fun _ => Ne.symm
  .call permitted.1 permitted.2 rest

theorem Program.Within.view {next : UnitView → Program (Board κ ε)}
    (rest : ∀ unit, Within l (next unit)) : Within l (Act.perform (.unit u) next) :=
  .call (l.passive _ trivial) (fun _ _ _ => trivial) rest

theorem Program.Within.transfer {sectorSize : UInt64} {request : Request}
    {next : Outcome → Program (Board κ ε)} (rest : ∀ outcome, Within l (next outcome)) :
    Within l (Act.perform (.transfer u sectorSize request) next) :=
  .call (l.passive _ trivial) (fun _ _ _ => trivial) rest

end

/-! ## The clock -/

namespace LineClock

/-- The unit of a clock is none of those that the license protects, and its count may be changed. -/
structure Licensed (c : LineClock) (l : License (Board κ ε)) : Prop where
  unit : l.staff c.unit = none
  changes : ∀ f, l.changes fun b => b.modifyClock c.record f

variable {c : LineClock}

/-- A reset takes the unit out of the queue, forgets the count, and books an enabled clock. -/
theorem exec_reset {σ : Type} [MediaStore σ] (c : LineClock) (next : Result → Program (Board κ ε))
    (dispatch : Motion σ (Board κ ε)) (s : Scheduler σ (Board κ ε)) :
    (c.reset next).exec dispatch s = (next (.ok ())).exec dispatch
      (let t : Scheduler σ (Board κ ε) :=
        { s.cancel c.unit with world := (s.cancel c.unit).world.modifyClock c.record fun _ => 0 }
      if c.enabled then ((t.tell (.clockPeriod c.period)).activate c.unit c.period).2 else t) := by
  unfold reset
  cases c.enabled with
  | true => rfl
  | false => rfl

theorem Licensed.action_within (licensed : c.Licensed l) : Within l c.action :=
  .change (licensed.changes _) (.activate licensed.unit fun _ => .done _)

theorem Licensed.reset_within (licensed : c.Licensed l) : Within l (c.reset .done) := by
  refine .cancel licensed.unit (.change (licensed.changes _) ?_)
  cases c.enabled with
  | true => exact .tell _ (.activate licensed.unit fun _ => .done _)
  | false => exact .done _

end LineClock

/-! ## The disk -/

namespace SectorDisk

/-- No drive of a disk is a unit that the license protects, and its record may be changed. -/
structure Licensed (d : SectorDisk) (l : License (Board κ ε)) : Prop where
  units : ∀ u ∈ d.units, l.staff u = none
  changes : ∀ f, l.changes fun b => b.modifyDisk d.record f

variable {d : SectorDisk} {next : Result → Program (Board κ ε)}

theorem Licensed.submit_within (licensed : d.Licensed l) (drive : UInt64) (request : Request)
    {done : Outcome → Program (Board κ ε)} (completes : ∀ outcome, Within l (done outcome))
    (rest : ∀ result, Within l (next result)) : Within l (d.submit drive request done next) := by
  have counted : ∀ outcome, Within l (d.counted request done outcome) := fun outcome =>
    .change (licensed.changes _) (completes outcome)
  unfold submit
  cases found : d.unit drive with
  | error status => exact rest _
  | ok u =>
    have other : l.staff u = none := by
      refine licensed.units u ?_
      unfold SectorDisk.unit at found
      split at found
      · cases found
        exact List.mem_of_getElem? ‹_›
      · cases found
    refine .view fun unit => ?_
    dsimp only
    split
    · exact rest _
    · refine .tell _ ?_
      cases d.backend with
      | immediate sectorSize => exact .transfer fun outcome => .inline (counted outcome) rest
      | deferred sectorSize latency =>
        refine .view fun unit => ?_
        dsimp only
        split
        · exact rest _
        · exact .transfer fun outcome => .cancel other <| .park other counted <| .tell _ <|
            .activate other fun _ => rest _

theorem Licensed.reset_within (licensed : d.Licensed l) : Within l (d.reset .done) := by
  have others := licensed.units
  unfold reset
  generalize d.units = units at others
  induction units with
  | nil => exact .done _
  | cons u units ih =>
    have rest := ih fun v there => others v (List.mem_cons_of_mem u there)
    have other := others u List.mem_cons_self
    refine .cancel other (.view fun unit => ?_)
    dsimp only
    split
    · exact .activate other fun _ => rest
    · exact rest

theorem Licensed.boot_within (licensed : d.Licensed l) (u : UnitId) : Within l (d.boot u .done) := by
  unfold boot
  cases d.units.idxOf? u with
  | none => exact .done _
  | some number =>
    refine .tell _ (.change (licensed.changes _) (licensed.submit_within _ _ (fun outcome => ?_) .done))
    unfold keepBootSector
    split
    · exact .done _
    · exact .change (licensed.changes _) (.done _)

end SectorDisk

/-! ## The terminal -/

namespace Terminal

/-- The units of a terminal are none of those that the license protects, and terminals and the console may
be changed. -/
structure Licensed (t : Terminal) (l : License (Board κ ε)) : Prop where
  keyboard : l.staff t.keyboard = none
  printer : l.staff t.printer = none
  changes : ∀ f, (∀ b, ∃ terminals console, f b = { b with terminals, console }) → l.changes f

variable {t : Terminal}

theorem Licensed.reset_within (licensed : t.Licensed l) : Within l (t.reset .done) :=
  .cancel licensed.keyboard <| .cancel licensed.printer <|
    .change (licensed.changes _ fun _ => ⟨_, _, rfl⟩) <| .activate licensed.keyboard fun _ => .done _

variable [Console κ]

theorem Licensed.display_within (licensed : t.Licensed l) : Within l t.display := by
  refine .look fun b => ?_
  split
  · exact .done _
  · refine .change (licensed.changes _ fun _ => ⟨_, _, rfl⟩) ?_
    split
    · exact .done _
    · exact .activate licensed.printer fun _ => .done _

theorem Licensed.poll_within (licensed : t.Licensed l) : Within l t.poll := by
  refine .activate licensed.keyboard fun _ => .look fun b => ?_
  dsimp only
  refine .change (licensed.changes _ fun _ => ⟨_, _, rfl⟩) ?_
  split
  · exact .tell _ (.done _)
  · exact .done _

end Terminal

theorem Peripherals.boots_within {p : Peripherals} (disk : p.disk.Licensed l) :
    ∀ device ∈ [p.clock.device, p.disk.device, p.terminal.device], ∀ u, Within l (device.boot u) := by
  intro device there u
  simp only [List.mem_cons, List.not_mem_nil, or_false] at there
  rcases there with rfl | rfl | rfl
  · exact .done _
  · exact disk.boot_within u
  · exact .done _

/-- What others leave standing, the calls that a machine makes by itself do. -/
theorem License.Bears.custody {σ ω : Type} [MediaStore σ] {l : License ω} {I : Scheduler σ ω → Prop}
    (bears : l.Bears I) : Scheduler.Custody I := by
  intro s c custodial holds
  have quiet : c.Passive ∧ ∀ u, c.Spares u := by
    cases c with
    | attach | detach | tell => exact ⟨trivial, fun _ => trivial⟩
    | _ => exact custodial.elim
  exact bears.perform s c holds (l.passive c quiet.1) fun u _ _ => quiet.2 u

/-- In a fresh machine units do what their license says if they have to, and keep to it otherwise. -/
theorem Machine.Assembled.staffed {σ : Type} [Console κ] {d : Description} {console : κ} {extra : ε}
    {m : Machine σ (Board κ ε)} (assembled : m.Assembled d console extra)
    (own : ∀ u p, l.staff u = some p → u < 3 + d.disk.drives.toNat ∧ Peripherals.actionOf d u = some p)
    (others : ∀ u p, l.staff u = none → Peripherals.actionOf d u = some p → Within l p) :
    m.scheduler.Staffed l where
  inside u p there := assembled.size ▸ (own u p there).1
  action u p there := (assembled.action u).trans (own u p there).2
  bare u p _ := by
    refine ⟨assembled.hook u, assembled.parked u, ?_⟩
    rw [assembled.delay]
    decide +kernel
  others u other := by
    refine ⟨fun p there => others u p other ((assembled.action u).symm.trans there), fun k there => ?_⟩
    rw [assembled.parked] at there
    cases there
  hooks u hook there := by
    rw [assembled.hook] at there
    cases there

/-! ## The units of a terminal -/

theorem Board.present_congr {i : Nat} {b b' : Board κ ε} (same : b'.terminals[i]? = b.terminals[i]?)
    (present : i < b.terminals.size) : i < b'.terminals.size := by
  rw [Array.getElem?_eq_getElem present] at same
  exact (Array.getElem?_eq_some_iff.1 same).1

theorem Board.terminal_congr {i : Nat} {b b' : Board κ ε} (same : b'.terminals[i]? = b.terminals[i]?) :
    b'.terminal i = b.terminal i := by
  unfold Board.terminal
  rw [Array.getD_eq_getD_getElem?, Array.getD_eq_getD_getElem?, same]

section
variable [Console κ] {t : Terminal}

namespace Terminal

/-- What the units of a terminal do. -/
def staff (t : Terminal) (u : UnitId) : Option (Program (Board κ ε)) :=
  if u = t.keyboard then some t.poll else if u = t.printer then some t.display else none

theorem staff_none {u : UnitId} :
    (t.staff u : Option (Program (Board κ ε))) = none ↔ u ≠ t.keyboard ∧ u ≠ t.printer := by
  unfold staff
  split
  · simp_all
  · split <;> simp_all

theorem staff_some {u : UnitId} {p : Program (Board κ ε)} (there : t.staff u = some p) :
    u = t.keyboard ∧ p = t.poll ∨ u = t.printer ∧ p = t.display := by
  unfold staff at there
  split at there
  · exact .inl ⟨‹_›, (Option.some.inj there).symm⟩
  · split at there
    · exact .inr ⟨‹_›, (Option.some.inj there).symm⟩
    · cases there

theorem staff_keyboard : t.staff t.keyboard = some (t.poll : Program (Board κ ε)) := if_pos rfl

theorem staff_printer (apart : t.keyboard ≠ t.printer) :
    t.staff t.printer = some (t.display : Program (Board κ ε)) :=
  (if_neg apart.symm).trans (if_pos rfl)

end Terminal

theorem Terminal.reset_staffed {σ : Type} [MediaStore σ] {pops : Nat} {result : Result}
    {s s' : Scheduler σ (Board κ ε)} (staffed : s.Staffed l) (staff : ∀ u, l.staff u = t.staff u)
    (apart : t.keyboard ≠ t.printer) (ended : (t.reset .done).run pops s = some (result, s')) :
    s'.Staffed l ∧ s'.world = t.modify (fun _ => {}) s.world ∧ t.keyboard ∈ s'.agenda.units := by
  let cancelled := (s.cancel t.keyboard).cancel t.printer
  have first := staffed.cancel t.keyboard
  have world : cancelled.world = s.world :=
    (first.world_cancel ((staff _).trans (staff_printer apart))).trans
      (staffed.world_cancel ((staff _).trans staff_keyboard))
  have same : ({ cancelled with world := t.modify (fun _ => {}) cancelled.world }.activate t.keyboard
      t.pollTicks).2 = s' := congrArg Prod.snd (Option.some.inj ended)
  rw [← same, Scheduler.world_activate, ← world]
  refine ⟨?_, rfl, Scheduler.mem_units_activate t.keyboard t.pollTicks _⟩
  exact ((first.cancel t.printer).of_same_slots rfl).of_slots
    (Scheduler.slot_activate t.keyboard · t.pollTicks _) (Scheduler.size_activate t.keyboard _ _)

theorem Peripherals.spare_terminal (d : Description)
    (staff : ∀ u, l.staff u = (plan d).terminal.staff u)
    (clocks : ∀ i f, l.changes fun b => b.modifyClock i f)
    (disks : ∀ i f, l.changes fun b => b.modifyDisk i f) :
    (plan d).clock.Licensed l ∧ (plan d).disk.Licensed l := by
  refine ⟨⟨?_, clocks _⟩, ⟨fun u drive => ?_, disks _⟩⟩
  · rw [staff, Terminal.staff_none]
    exact ⟨Nat.ne_of_lt (Nat.add_pos_left Nat.zero_lt_one _), Nat.ne_of_lt (Nat.succ_pos _)⟩
  · have bound : u < 1 + d.disk.drives.toNat :=
      (List.mem_range'_1.1 (show u ∈ List.range' 1 d.disk.drives.toNat from drive)).2
    rw [staff, Terminal.staff_none]
    exact ⟨Nat.ne_of_lt bound, Nat.ne_of_lt (Nat.lt_succ_of_lt bound)⟩

theorem Machine.Assembled.staffed_terminal {σ : Type} {d : Description} {console : κ} {extra : ε}
    {m : Machine σ (Board κ ε)} (assembled : m.Assembled d console extra)
    (staff : ∀ u, l.staff u = (Peripherals.plan d).terminal.staff u)
    (clock : (Peripherals.plan d).clock.Licensed l) : m.scheduler.Staffed l := by
  refine assembled.staffed (fun u p there => ?_) fun u p other there => ?_
  · have acts := Peripherals.actionOf_terminal (κ := κ) (ε := ε) d
    rw [staff] at there
    rcases Terminal.staff_some there with ⟨rfl, rfl⟩ | ⟨rfl, rfl⟩
    · exact ⟨by show 1 + d.disk.drives.toNat < _; omega, acts.1⟩
    · exact ⟨by show 1 + d.disk.drives.toNat + 1 < _; omega, acts.2⟩
  · rw [staff] at other
    obtain ⟨keyboard, printer⟩ := Terminal.staff_none.1 other
    have number : (Peripherals.plan d).terminal.printer = 2 + d.disk.drives.toNat := by
      show 1 + d.disk.drives.toNat + 1 = _
      omega
    rw [number] at printer
    rw [Peripherals.actionOf, if_neg (show ¬u = 1 + d.disk.drives.toNat from keyboard), if_neg printer]
      at there
    split at there
    · exact Option.some.inj there ▸ clock.action_within
    · cases there

namespace Terminal

variable {σ : Type} [MediaStore σ] {dispatch : Motion σ (Board κ ε)} {result : Result}
  {s s' : Scheduler σ (Board κ ε)}

/-- The keyboard comes back after the poll time, and what it takes from the console is received. -/
theorem exec_taking {keys : List UInt8} {interrupted : Bool} {console : κ}
    (took : takeKeys (Console.waiting s.world.console) s.world.console = (keys, interrupted, console)) :
    t.poll.exec dispatch s =
      let after : Scheduler σ (Board κ ε) :=
        { (s.activate t.keyboard t.pollTicks).2 with
          world := { t.modify (fun r => { r with input := r.input ++ keys }) s.world with console } }
      some (if interrupted then (.error .stopped, after.tell .interruptCharacter) else (.ok (), after)) := by
  have world := Scheduler.world_activate t.keyboard t.pollTicks s
  simp only [poll, Program.exec, Scheduler.perform, world, took]
  cases interrupted <;> rfl

theorem slots_poll (ended : t.poll.exec dispatch s = some (result, s')) :
    (∀ u, s'.slot u = s.slot u) ∧ s'.slots.size = s.slots.size := by
  have slots := fun u => Scheduler.slot_activate t.keyboard u t.pollTicks s
  have size := Scheduler.size_activate t.keyboard t.pollTicks s
  rw [exec_taking rfl] at ended
  dsimp only at ended
  split at ended
  · cases ended
    exact ⟨slots, size⟩
  · cases ended
    exact ⟨slots, size⟩

theorem slots_display (ended : t.display.exec dispatch s = some (result, s')) :
    (∀ u, s'.slot u = s.slot u) ∧ s'.slots.size = s.slots.size := by
  simp only [Terminal.display, Program.exec] at ended
  cases pending : (s.world.terminal t.record).output with
  | nil =>
    rw [pending] at ended
    cases ended
    exact ⟨fun _ => rfl, rfl⟩
  | cons byte rest =>
    rw [pending] at ended
    cases rest with
    | nil =>
      cases ended
      exact ⟨fun _ => rfl, rfl⟩
    | cons =>
      cases ended
      exact ⟨fun u => Scheduler.slot_activate t.printer u _ _, Scheduler.size_activate t.printer _ _⟩

end Terminal

end

end Peripheral
