import Peripheral.Simulation.Dispatch

/-!
# Devices and their registry

A device is a named group of units with a reset and a boot. A registry numbers devices in the order
of registration; no two of them have names that differ in the case of ASCII letters only.

* `Registry.register` : add a device as the owner of its units;
* `Registry.findId?` : look a device up by name;
* `Registry.resetAll` : reset every device, up to the first failure.
-/

namespace Peripheral

/-- A named group of units. -/
structure Device (ω : Type) where
  name : String
  units : List UnitId
  reset : Program ω := .done (.ok ())
  boot : UnitId → Program ω := fun _ => .done (.error .noFunction)

/-- The devices registered, in order. -/
structure Registry (ω : Type) where
  devices : Array (Device ω)

/-- Whether two names differ in the case of ASCII letters at most. -/
def sameName (a b : String) : Bool :=
  a.toList.map Char.toLower == b.toList.map Char.toLower

namespace Registry

variable {σ ω : Type}

def empty : Registry ω := ⟨#[]⟩

def findId? (name : String) (r : Registry ω) : Option Nat :=
  r.devices.toList.findIdx? fun d => sameName d.name name

def find? (name : String) (r : Registry ω) : Option (Device ω) :=
  (r.findId? name).bind fun id => r.devices[id]?

def setOwner (id : Nat) (units : List UnitId) (s : Scheduler σ ω) : Scheduler σ ω :=
  units.foldl (fun s u => s.modifySlot u fun slot => { slot with owner := some id }) s

/-- Register a device as the owner of its units. A device whose name is taken is ignored, and the
place of the one there is given. -/
def register (device : Device ω) (r : Registry ω) (s : Scheduler σ ω) :
    Nat × Registry ω × Scheduler σ ω :=
  match r.findId? device.name with
  | some id => (id, r, s.tell (.alreadyRegistered device.name))
  | none =>
    let id := r.devices.size
    let s := setOwner id device.units s
    (id, ⟨r.devices.push device⟩, s.tell (.registered device.name device.units.length))

def deviceOf? (u : UnitId) (s : Scheduler σ ω) (r : Registry ω) : Option (Device ω) :=
  (s.slot u).owner.bind fun id => r.devices[id]?

def resetEach [MediaStore σ] (pops : Nat) : List (Device ω) → Motion σ ω
  | [], s => some (.ok (), s)
  | device :: rest, s =>
    match device.reset.run pops s with
    | none => none
    | some (.error status, s) => some (.error status, s)
    | some (.ok (), s) => resetEach pops rest s

def resetAll [MediaStore σ] (pops : Nat) (r : Registry ω) : Motion σ ω :=
  resetEach pops r.devices.toList

end Registry

end Peripheral
