import Peripheral.Board.Basic
import Peripheral.Description.Basic

/-!
# The sector disk

Every drive of a disk is a unit that holds a flat image of sectors of one size. Transfers complete
at once when the latency is zero and after it otherwise.

* `SectorDisk.submit` : ask for a transfer on a drive; its completion is counted;
* `SectorDisk.reset` : drives stop waiting, a finished transfer is still delivered;
* `SectorDisk.boot` : read sector 0 of a drive and keep it.
-/

namespace Peripheral

/-- A disk: its record on the board, its drives, and how transfers are carried out. -/
structure SectorDisk where
  record : Nat
  units : List UnitId
  sectorSize : UInt64
  backend : Backend
deriving DecidableEq, Repr, Inhabited

namespace DiskRecord

def count (request : Request) (outcome : Outcome) (r : DiskRecord) : DiskRecord :=
  match outcome.status, request with
  | .error _, _ => { r with errors := r.errors + 1 }
  | .ok (), .read _ _ => { r with reads := r.reads + 1 }
  | .ok (), .write _ _ => { r with writes := r.writes + 1 }

end DiskRecord

namespace SectorDisk

variable {κ ε : Type}

/-- The bytes of a drive, as many as can be counted. -/
def capacity (settings : DiskSettings) : UInt64 :=
  UInt64.ofNat (min (settings.sectors.toNat * settings.sectorSize.toNat) (Nat.pow 2 64 - 1))

def drive (settings : DiskSettings) (number : Nat) : Endpoint :=
  { name := "DK" ++ toString number
    can := { attachable := true, buffered := settings.buffered, readOnly := settings.readOnly }
    capacity := capacity settings }

/-- How the transfers of a disk complete. -/
def backendOf (settings : DiskSettings) : Backend :=
  if settings.latency > 0 then .deferred settings.sectorSize settings.latency
  else .immediate settings.sectorSize

def plan (settings : DiskSettings) (record : Nat) (first : UnitId) : SectorDisk :=
  { record, units := List.range' first settings.drives.toNat
    sectorSize := settings.sectorSize, backend := backendOf settings }

def addDrives (settings : DiskSettings) : Nat → Nat → Act (Board κ ε) Unit
  | _, 0 => return ()
  | number, count + 1 => do
    let _ ← Act.perform (.addUnit (drive settings number))
    addDrives settings (number + 1) count

def install (settings : DiskSettings) : Act (Board κ ε) Unit := do
  Act.change Board.addDisk
  addDrives settings 0 settings.drives.toNat

def unit (drive : UInt64) (d : SectorDisk) : Except Status UnitId :=
  match d.units[drive.toNat]? with
  | some u => .ok u
  | none => .error (.invalidArgument (.noDrive drive))

def summary (unit : String) : Request → Message
  | .read lba sectors => .diskRead unit lba sectors
  | .write lba data => .diskWrite unit lba data.size

/-- Count the outcome of a request, then complete it. -/
def counted (request : Request) (done : Outcome → Program (Board κ ε)) (d : SectorDisk)
    (outcome : Outcome) : Program (Board κ ε) :=
  .change (fun b => b.modifyDisk d.record (·.count request outcome)) (done outcome)

def submit (drive : UInt64) (request : Request) (done : Outcome → Program (Board κ ε))
    (d : SectorDisk) : Act (Board κ ε) Result :=
  match d.unit drive with
  | .error status => return .error status
  | .ok u => do
    let unit ← Act.perform (.unit u)
    if !unit.endpoint.isAttached then return .error .notAttached
    else
      Act.perform (.tell (summary unit.endpoint.name request))
      d.backend.submit u request (d.counted request done)

/-- Stop the waiting of drives. A finished transfer is still delivered, at once. -/
def resetDrives : List UnitId → Act (Board κ ε) Result
  | [] => return .ok ()
  | u :: rest => do
    Act.perform (.cancel u)
    let unit ← Act.perform (.unit u)
    if unit.ioPending then
      let _ ← Act.perform (.activate u 0)
    resetDrives rest

def reset (d : SectorDisk) : Act (Board κ ε) Result := resetDrives d.units

def keepBootSector (d : SectorDisk) (outcome : Outcome) : Program (Board κ ε) :=
  match outcome.status with
  | .error status => .done (.error status)
  | .ok () =>
    .change (fun b => b.modifyDisk d.record fun r => { r with bootSector := some outcome.data }) <|
    .done (.ok ())

/-- Boot from a unit, which must be one of the drives. -/
def boot (u : UnitId) (d : SectorDisk) : Act (Board κ ε) Result :=
  match d.units.idxOf? u with
  | none => return .error (.invalidArgument (.foreignUnit u))
  | some number => do
    Act.perform (.tell (.booting number))
    Act.change fun b => b.modifyDisk d.record fun r => { r with bootSector := none }
    d.submit (UInt64.ofNat number) (.read 0 1) d.keepBootSector

end SectorDisk

end Peripheral
