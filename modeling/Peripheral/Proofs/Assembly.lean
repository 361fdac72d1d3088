import Peripheral.Proofs.Callbacks
import Peripheral.Machine.Build

/-!
# The machine of a description before anything is attached

Every description assembles into the same kind of machine: a clock, the drives of a disk and the two
units of a terminal in this order, their three devices registered in this order, empty records, and an
idle agenda.

* `Scheduler.addActing`, `SectorDisk.exec_addDrives` : units added with an action, drives added;
* `Registry.relabelled_setOwner`, `Machine.register_relabelled`, `register_new` : registering a device changes
  nothing but the owners of its units and the journal, and puts it behind the others;
* `Machine.Assembled` : all that there is in a fresh machine;
* `Machine.assemble_cases`, `assembled` : **every description assembles into a fresh machine**;
* `ok_of_bind`, `of_demand` : what a description that is valid meets.
-/

namespace Peripheral

variable {σ ω κ ε : Type}

namespace Scheduler

def addActing (e : Endpoint) (action : Program ω) (s : Scheduler σ ω) : Scheduler σ ω :=
  (s.addUnit e).2.modifySlot s.slots.size fun slot => { slot with action := some action }

theorem size_addActing (e : Endpoint) (action : Program ω) (s : Scheduler σ ω) :
    (s.addActing e action).slots.size = s.slots.size + 1 := by
  unfold addActing
  rw [size_modifySlot]
  exact Array.size_push _

theorem slot_addActing (e : Endpoint) (action : Program ω) (s : Scheduler σ ω) (u : Nat) :
    (s.addActing e action).slot u =
      if u = s.slots.size then { endpoint := e, action := some action } else s.slot u := by
  unfold addActing
  rw [slot_modifySlot, slot_addUnit]
  by_cases new : u = s.slots.size
  · have inside : s.slots.size < (s.addUnit e).2.slots.size := by
      show _ < (s.slots.push _).size
      rw [Array.size_push]
      exact Nat.lt_succ_self _
    rw [if_pos ⟨new.symm, inside⟩, if_pos new, if_pos new]
  · rw [if_neg fun both => new both.1.symm, if_neg new, if_neg new]

end Scheduler

theorem SectorDisk.exec_addDrives [MediaStore σ] (settings : DiskSettings)
    (dispatch : Motion σ (Board κ ε)) (next : Unit → Program (Board κ ε)) (number count : Nat)
    (s : Scheduler σ (Board κ ε)) :
    ∃ slots, (addDrives settings number count next).exec dispatch s =
        (next ()).exec dispatch { s with slots } ∧
      slots.size = s.slots.size + count ∧
      ∀ u, ∃ e, slots.getD u default = { s.slot u with endpoint := e } := by
  induction count generalizing number s with
  | zero => exact ⟨s.slots, rfl, rfl, fun u => ⟨_, rfl⟩⟩
  | succ count ih =>
    obtain ⟨slots, ended, size, same⟩ := ih (number + 1) (s.addUnit (drive settings number)).2
    refine ⟨slots, ended, ?_, fun u => ?_⟩
    · rw [size]
      show (s.slots.push _).size + count = _
      rw [Array.size_push]
      omega
    · obtain ⟨e, there⟩ := same u
      refine ⟨e, there.trans ?_⟩
      rw [Scheduler.slot_addUnit]
      split
      · rename_i new
        rw [Scheduler.slot_of_size_le (Nat.le_of_eq new.symm)]
        rfl
      · rfl

/-- The same scheduler but for the owners of units and the journal. -/
structure Scheduler.Relabelled (s t : Scheduler σ ω) : Prop where
  agenda : t.agenda = s.agenda
  stop : t.stop = s.stop
  world : t.world = s.world
  media : t.media = s.media
  size : t.slots.size = s.slots.size
  slot : ∀ u, ∃ owner, t.slot u = { s.slot u with owner }

theorem Scheduler.Relabelled.trans {r s t : Scheduler σ ω} (first : r.Relabelled s)
    (second : s.Relabelled t) : r.Relabelled t where
  agenda := second.agenda.trans first.agenda
  stop := second.stop.trans first.stop
  world := second.world.trans first.world
  media := second.media.trans first.media
  size := second.size.trans first.size
  slot u := by
    obtain ⟨_, before⟩ := first.slot u
    obtain ⟨owner, after⟩ := second.slot u
    exact ⟨owner, after.trans (by rw [before])⟩

theorem Scheduler.Relabelled.callbacks {s t : Scheduler σ ω} (same : s.Relabelled t) (u : UnitId) :
    (t.slot u).callbacks = (s.slot u).callbacks := by
  obtain ⟨_, slot⟩ := same.slot u
  rw [slot]
  rfl

theorem Registry.relabelled_setOwner (id : Nat) (units : List UnitId) (s : Scheduler σ ω) :
    s.Relabelled (setOwner id units s) := by
  unfold setOwner
  induction units generalizing s with
  | nil => exact ⟨rfl, rfl, rfl, rfl, rfl, fun u => ⟨_, rfl⟩⟩
  | cons v units ih =>
    have first : s.Relabelled (s.modifySlot v fun slot => { slot with owner := some id }) := by
      refine ⟨rfl, rfl, rfl, rfl, Scheduler.size_modifySlot v _ s, fun u => ?_⟩
      rw [Scheduler.slot_modifySlot]
      split
      · exact ⟨_, rfl⟩
      · exact ⟨_, rfl⟩
    exact first.trans (ih _)

namespace Machine

/-- Registering a device changes no more than the owners of its units and the journal. -/
theorem register_relabelled (device : Device ω) (m : Machine σ ω) :
    m.scheduler.Relabelled (m.register device).2.scheduler := by
  unfold register Registry.register
  cases m.registry.findId? device.name with
  | some id => exact ⟨rfl, rfl, rfl, rfl, rfl, fun u => ⟨_, rfl⟩⟩
  | none =>
    have owned := Registry.relabelled_setOwner m.registry.devices.size device.units m.scheduler
    exact ⟨owned.agenda, owned.stop, owned.world, owned.media, owned.size, owned.slot⟩

theorem register_new (device : Device ω) {devices : List (Device ω)} {m : Machine σ ω}
    (there : m.registry.devices = devices.toArray)
    (new : ∀ other ∈ devices, sameName other.name device.name = false) :
    (m.register device).2.registry.devices = (devices ++ [device]).toArray := by
  have absent : m.registry.findId? device.name = none := by
    unfold Registry.findId?
    rw [there]
    exact List.findIdx?_eq_none_iff.2 new
  simp only [register, Registry.register, absent, there, List.push_toArray]

end Machine

section
variable [Console κ]

/-- What the units of a description do when they fire; drives do nothing by themselves. -/
def Peripherals.actionOf (d : Description) (u : Nat) : Option (Program (Board κ ε)) :=
  if u = 0 then some (plan d).clock.action
  else if u = 1 + d.disk.drives.toNat then some (plan d).terminal.poll
  else if u = 2 + d.disk.drives.toNat then some (plan d).terminal.display
  else none

theorem Peripherals.actionOf_terminal (d : Description) :
    actionOf d (plan d).terminal.keyboard = some ((plan d).terminal.poll : Program (Board κ ε)) ∧
      actionOf d (plan d).terminal.printer = some ((plan d).terminal.display : Program (Board κ ε)) := by
  have keyboard : (plan d).terminal.keyboard = 1 + d.disk.drives.toNat := rfl
  have printer : (plan d).terminal.printer = 2 + d.disk.drives.toNat := by
    show 1 + d.disk.drives.toNat + 1 = _
    omega
  unfold actionOf
  rw [keyboard, printer]
  exact ⟨by rw [if_neg (by omega), if_pos rfl], by rw [if_neg (by omega), if_neg (by omega), if_pos rfl]⟩

/-- All peripherals of a description are installed and nothing has happened since. -/
structure Peripherals.Installed (d : Description) (console : κ) (extra : ε)
    (s : Scheduler σ (Board κ ε)) : Prop where
  agenda : s.agenda = .start d.time.idleWait
  stop : s.stop = false
  world : s.world = { console, clocks := #[0], disks := #[{}], terminals := #[{}], extra }
  size : s.slots.size = 3 + d.disk.drives.toNat
  delay : ∀ u, (s.slot u).delay = 0
  hook : ∀ u, (s.slot u).hook = none
  parked : ∀ u, (s.slot u).parked = none
  action : ∀ u, (s.slot u).action = actionOf d u

namespace Peripherals

variable {d : Description} {console : κ} {extra : ε}

theorem Installed.relabel {s t : Scheduler σ (Board κ ε)} (installed : Installed d console extra s)
    (same : s.Relabelled t) : Installed d console extra t where
  agenda := same.agenda.trans installed.agenda
  stop := same.stop.trans installed.stop
  world := same.world.trans installed.world
  size := same.size.trans installed.size
  delay u := by
    obtain ⟨_, slot⟩ := same.slot u
    rw [slot]
    exact installed.delay u
  hook u := by
    obtain ⟨_, slot⟩ := same.slot u
    rw [slot]
    exact installed.hook u
  parked u := by
    obtain ⟨_, slot⟩ := same.slot u
    rw [slot]
    exact installed.parked u
  action u := by
    obtain ⟨_, slot⟩ := same.slot u
    rw [slot]
    exact installed.action u

theorem install_run [MediaStore σ] (pops : Nat) (d : Description) (media : σ) (console : κ) (extra : ε)
    (journal : Journal) :
    ∃ s : Scheduler σ (Board κ ε),
      (((plan d).install d) fun _ => .done (.ok ())).run pops
        (.start d.time.idleWait d.time.tickRate (.empty console extra) media journal) =
          some (.ok (), s) ∧ Installed d console extra s := by
  let start : Scheduler σ (Board κ ε) :=
    .start d.time.idleWait d.time.tickRate (.empty console extra) media journal
  let first := Scheduler.addActing { name := "CLK" } (plan d).clock.action
    { start with world := start.world.addClock }
  have first_size : first.slots.size = 1 := Scheduler.size_addActing _ _ _
  obtain ⟨slots, ended, size, same⟩ :=
    SectorDisk.exec_addDrives d.disk (Scheduler.processEvent pops)
      (fun _ => (plan d).terminal.install fun _ => .done (.ok ())) 0 d.disk.drives.toNat
      { first with world := first.world.addDisk }
  let second : Scheduler σ (Board κ ε) :=
    { first with world := first.world.addDisk.addTerminal, slots }
  have second_size : second.slots.size = 1 + d.disk.drives.toNat := by
    show slots.size = _
    rw [size, first_size]
  let third := Scheduler.addActing { name := "TTI" } (plan d).terminal.poll second
  have third_size : third.slots.size = 2 + d.disk.drives.toNat := by
    rw [Scheduler.size_addActing, second_size]
    omega
  let last := Scheduler.addActing { name := "TTO" } (plan d).terminal.display third
  have slot : ∀ u : Nat, ∃ e, last.slot u = { endpoint := e, action := actionOf d u } := by
    intro u
    obtain ⟨e, drives⟩ := same u
    unfold actionOf
    rw [Scheduler.slot_addActing, Scheduler.slot_addActing, second_size, third_size]
    by_cases printer : u = 2 + d.disk.drives.toNat
    · exact ⟨_, by rw [if_pos printer, if_neg (by omega), if_neg (by omega), if_pos printer]⟩
    by_cases keyboard : u = 1 + d.disk.drives.toNat
    · exact ⟨_, by rw [if_neg printer, if_pos keyboard, if_neg (by omega), if_pos keyboard]⟩
    rw [if_neg printer, if_neg keyboard, if_neg keyboard, if_neg printer]
    refine ⟨e, drives.trans ?_⟩
    show ({ first.slot u with endpoint := e } : Slot (Board κ ε)) = _
    rw [Scheduler.slot_addActing, show Array.size _ = 0 from rfl]
    by_cases clock : u = 0
    · rw [if_pos clock, if_pos clock]
    · rw [if_neg clock, if_neg clock]
      rfl
  refine ⟨last, ended, rfl, rfl, rfl, ?_, fun u => ?_, fun u => ?_, fun u => ?_, fun u => ?_⟩
  · rw [Scheduler.size_addActing, third_size]
    omega
  all_goals
    obtain ⟨e, there⟩ := slot u
    rw [there]

end Peripherals

namespace Machine

structure Assembled (d : Description) (console : κ) (extra : ε) (m : Machine σ (Board κ ε)) : Prop
    extends Peripherals.Installed d console extra m.scheduler where
  devices : m.registry.devices = #[(Peripherals.plan d).clock.device, (Peripherals.plan d).disk.device,
    (Peripherals.plan d).terminal.device]

variable {d : Description} {console : κ} {extra : ε}

theorem assembled [MediaStore σ] (pops : Nat) (d : Description) (media : σ) (console : κ) (extra : ε)
    (journal : Journal) :
    ∃ m : Machine σ (Board κ ε), assemble pops d media console extra journal = some m ∧
      m.Assembled d console extra := by
  obtain ⟨s, ran, installed⟩ :=
    Peripherals.install_run (ε := ε) pops d media console extra journal
  have apart : sameName "CLK" "DK" = false ∧ sameName "CLK" "TT" = false ∧
      sameName "DK" "TT" = false := by decide
  let p := Peripherals.plan d
  have clock := register_new p.clock.device (m := ofScheduler s) (Array.toList_eq_nil_iff.1 rfl) nofun
  have disk := register_new p.disk.device clock (List.forall_mem_singleton.2 apart.1)
  have terminal := register_new p.terminal.device disk
    (List.forall_mem_cons.2 ⟨apart.2.1, List.forall_mem_singleton.2 apart.2.2⟩)
  have same := (register_relabelled p.clock.device (ofScheduler s)).trans
    ((register_relabelled p.disk.device _).trans (register_relabelled p.terminal.device _))
  exact ⟨_, by simp only [assemble]; rw [ran], installed.relabel same, terminal⟩

theorem assembled_of_assemble [MediaStore σ] {pops : Nat} {media : σ} {journal : Journal}
    {m : Machine σ (Board κ ε)} (ended : assemble pops d media console extra journal = some m) :
    m.Assembled d console extra := by
  obtain ⟨bare, same, assembled⟩ := assembled pops d media console extra journal
  rw [same] at ended
  cases ended
  exact assembled

end Machine

end

/-! ## Descriptions that are valid -/

theorem ok_of_bind {first rest : Result} (met : (do first; rest) = .ok ()) :
    first = .ok () ∧ rest = .ok () := by
  cases first with
  | error status => cases met
  | ok => exact ⟨rfl, met⟩

theorem of_demand {condition : Bool} {fault : ArgumentFault} (met : demand condition fault = .ok ()) :
    condition = true := by
  unfold demand at met
  split at met
  · assumption
  · cases met

end Peripheral
