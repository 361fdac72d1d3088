import Peripheral.Machine.Basic
import Peripheral.Board.LineClock
import Peripheral.Board.SectorDisk
import Peripheral.Board.Terminal

/-!
# Building machines

A description becomes a machine with a clock, a disk and a terminal; its media are attached, all
devices are reset, and a device is booted if the description asks for it.

* `LineClock.device`, `SectorDisk.device`, `Terminal.device` : peripherals as devices;
* `Peripherals.plan` : the peripherals of a description, with their units;
* `Machine.build` : the machine of a description.
-/

namespace Peripheral

variable {κ ε : Type}

def LineClock.device (c : LineClock) : Device (Board κ ε) :=
  { name := "CLK", units := [c.unit], reset := c.reset .done }

def SectorDisk.device (d : SectorDisk) : Device (Board κ ε) :=
  { name := "DK", units := d.units, reset := d.reset .done, boot := fun u => d.boot u .done }

def Terminal.device (t : Terminal) : Device (Board κ ε) :=
  { name := "TT", units := [t.keyboard, t.printer], reset := t.reset .done }

structure Peripherals where
  clock : LineClock
  disk : SectorDisk
  terminal : Terminal
deriving DecidableEq, Repr, Inhabited

namespace Peripherals

/-- The peripherals of a description on an empty board. Units come in the order of the fields. -/
def plan (d : Description) : Peripherals :=
  { clock := .plan d.clock d.time.tickRate 0 0
    disk := .plan d.disk 0 1
    terminal := .plan d.terminal 0 (1 + d.disk.drives.toNat) }

def install [Console κ] (d : Description) (p : Peripherals) : Act (Board κ ε) Unit := do
  p.clock.install
  SectorDisk.install d.disk
  p.terminal.install

end Peripherals

namespace Machine

variable {σ : Type} [MediaStore σ]

def attachEach {ω : Type} : List AttachEntry → Machine σ ω → Result × Machine σ ω
  | [], m => (.ok (), m)
  | entry :: rest, m =>
    match m.attach entry.device entry.unit entry.path with
    | (.error status, m) => (.error status, m)
    | (.ok (), m) => attachEach rest m

/-- A machine with the peripherals of a description, before anything is attached. -/
def assemble [Console κ] (pops : Nat) (d : Description) (media : σ) (console : κ) (extra : ε)
    (journal : Journal) : Option (Machine σ (Board κ ε)) :=
  let start : Scheduler σ (Board κ ε) :=
    .start d.time.idleWait d.time.tickRate (.empty console extra) media journal
  let p := Peripherals.plan d
  match ((p.install d) fun _ => .done (.ok ())).run pops start with
  | none => none
  | some (_, s) =>
    let m := ofScheduler s
    let m := (m.register p.clock.device).2
    let m := (m.register p.disk.device).2
    some (m.register p.terminal.device).2

/-- Equip an assembled machine: attach its media, reset it, and boot it if asked to. -/
def equip {ω : Type} (pops : Nat) (d : Description) (m : Machine σ ω) :
    Option (Result × Machine σ ω) :=
  match m.attachEach d.attach with
  | (.error status, m) => some (.error status, m)
  | (.ok (), m) =>
    match m.resetAll pops with
    | none => none
    | some (.error status, m) => some (.error status, m)
    | some (.ok (), m) =>
      match d.boot with
      | none => some (.ok (), m)
      | some device => m.boot pops device 0

/-- The machine of a description, with its peripherals; the machine as far as it was built where
something failed. -/
def build [Console κ] (pops : Nat) (d : Description) (media : σ) (console : κ) (extra : ε)
    (journal : Journal) : Option (Except Status Peripherals × Machine σ (Board κ ε)) :=
  match d.validate with
  | .error status =>
    some (.error status, ofScheduler
      (.start d.time.idleWait d.time.tickRate (.empty console extra) media journal))
  | .ok () =>
    match assemble pops d media console extra journal with
    | none => none
    | some m => (m.equip pops d).map fun (result, m) => (result.map fun _ => .plan d, m)

end Machine

end Peripheral
