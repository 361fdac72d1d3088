import Peripheral.Storage.Endpoint

/-!
# Sector transfers

A request names sectors by their number; a transfer moves whole sectors between the medium of a unit
and memory and tells how it went.

* `Endpoint.span` : the byte offset of a request that lies inside the unit;
* `Endpoint.transfer` : carry out a request.
-/

namespace Peripheral

/-- A transfer asked for, from sector `lba` on. -/
inductive Request where
  | read (lba : UInt64) (sectors : UInt32)
  | write (lba : UInt64) (data : Bytes)
deriving DecidableEq, Repr, Inhabited

structure Outcome where
  status : Result
  /-- Sectors read; empty for writes. -/
  data : Bytes
  /-- Whole sectors moved. -/
  sectors : UInt32
deriving Inhabited

def Outcome.failed (status : Status) : Outcome := ⟨.error status, #[], 0⟩

namespace Endpoint

variable {σ : Type}

/-- The byte offset of a transfer of `bytes` bytes at sector `lba`. The whole span must lie inside
the capacity, if there is one, and inside the address space. -/
def span (sectorSize lba : UInt64) (bytes : Nat) (e : Endpoint) : Except Status UInt64 :=
  if sectorSize = 0 then .error (.invalidArgument .zeroSectorSize)
  else
    let offset := lba.toNat * sectorSize.toNat
    if Nat.pow 2 64 ≤ offset then .error (.nonExistentAddress (UInt64.ofNat (Nat.pow 2 64 - 1)))
    else
      let stop := offset + bytes
      if Nat.pow 2 64 ≤ stop then .error (.nonExistentAddress (UInt64.ofNat offset))
      else if e.capacity ≠ 0 ∧ e.capacity.toNat < stop then
        .error (.nonExistentAddress (UInt64.ofNat offset))
      else .ok (UInt64.ofNat offset)

def readSectors [MediaStore σ] (sectorSize lba : UInt64) (sectors : UInt32) (e : Endpoint)
    (store : σ) : Outcome × σ :=
  let bytes := sectorSize.toNat * sectors.toNat
  if Nat.pow 2 64 ≤ bytes then (.failed .noMemory, store)
  else
    match e.span sectorSize lba bytes with
    | .error status => (.failed status, store)
    | .ok offset =>
      if !Bytes.allocatable bytes then (.failed .noMemory, store)
      else
        match e.read offset bytes store with
        | (.ok reading, store) =>
          (⟨.ok (), reading.data, UInt32.ofNat (reading.count / sectorSize.toNat)⟩, store)
        | (.error status, store) => (⟨.error status, Bytes.zeros bytes, 0⟩, store)

def writeSectors [MediaStore σ] (sectorSize lba : UInt64) (data : Bytes) (e : Endpoint)
    (store : σ) : Outcome × Endpoint × σ :=
  if sectorSize = 0 ∨ data.size % sectorSize.toNat ≠ 0 then
    let fault := ArgumentFault.partialSector (UInt64.ofNat data.size) sectorSize
    (.failed (.invalidArgument fault), e, store)
  else
    match e.span sectorSize lba data.size with
    | .error status => (.failed status, e, store)
    | .ok offset =>
      match e.write offset data store with
      | (.ok (), e, store) =>
        (⟨.ok (), #[], UInt32.ofNat (data.size / sectorSize.toNat)⟩, e, store)
      | (.error status, e, store) => (.failed status, e, store)

/-- Move the data of a request between the medium and memory. -/
def transfer [MediaStore σ] (sectorSize : UInt64) (request : Request) (e : Endpoint) (store : σ) :
    Outcome × Endpoint × σ :=
  match request with
  | .read lba sectors =>
    let (outcome, store) := e.readSectors sectorSize lba sectors store
    (outcome, e, store)
  | .write lba data => e.writeSectors sectorSize lba data store

end Endpoint

end Peripheral
