import Peripheral.Storage.Media
import Peripheral.Journal

/-!
# Endpoints

The endpoint of a unit is what of it can be bound to a medium: its name and capabilities, its size,
and the medium it is attached to. A buffered endpoint works on a copy of the medium in memory, whose
bytes from the high-water mark on are still zero.

* `Endpoint.read`, `Endpoint.write` : move bytes;
* `Endpoint.attach`, `Endpoint.detach` : bind to a medium and let it go.
-/

namespace Peripheral

structure Capabilities where
  attachable : Bool := false
  /-- Copy the whole medium into memory when it is attached. -/
  buffered : Bool := false
  readOnly : Bool := false
deriving DecidableEq, Repr, Inhabited

/-- The copy of a medium in memory. -/
structure Buffer where
  data : Bytes
  /-- Bytes below it were read from the medium or written since. -/
  highWater : Nat
deriving DecidableEq, Repr, Inhabited

/-- The medium a unit is bound to. -/
structure Attachment where
  medium : Handle
  buffer : Option Buffer
  /-- The buffer was written since it was read. -/
  dirty : Bool
deriving DecidableEq, Repr, Inhabited

/-- The side of a unit that holds data. -/
structure Endpoint where
  name : String
  can : Capabilities := {}
  /-- Size in bytes; zero stands for the size of the medium. -/
  capacity : UInt64 := 0
  /-- Current offset into the medium. -/
  position : UInt64 := 0
  attachment : Option Attachment := none
deriving DecidableEq, Repr, Inhabited

/-- Bytes read: how many came from the medium, and the data filled up with zeros. -/
structure Reading where
  count : Nat
  data : Bytes
deriving DecidableEq, Repr, Inhabited

namespace Endpoint

variable {σ : Type}

def isAttached (e : Endpoint) : Bool := e.attachment.isSome

def mediumName? (e : Endpoint) : Option String := e.attachment.map fun a => a.medium.name

def buffer? (e : Endpoint) : Option Buffer := e.attachment.bind Attachment.buffer

def isDirty (e : Endpoint) : Bool := e.attachment.any Attachment.dirty

/-! ## Moving bytes -/

/-- Read `count` bytes from `offset` on; bytes past the end read as zero. -/
def read [MediaStore σ] (offset : UInt64) (count : Nat) (e : Endpoint) (store : σ) :
    Except Status Reading × σ :=
  match e.attachment with
  | none => (.error .notAttached, store)
  | some a =>
    match a.buffer with
    | some b =>
      if offset.toNat < b.data.size then
        let data := b.data.extract offset.toNat (offset.toNat + count)
        (.ok ⟨data.size, Bytes.padTo count data⟩, store)
      else (.error (.nonExistentAddress offset), store)
    | none =>
      if e.capacity ≠ 0 ∧ e.capacity ≤ offset then (.error (.nonExistentAddress offset), store)
      else
        let (answer, store) := MediaStore.read a.medium offset count store
        (answer.map fun data => ⟨data.size, Bytes.padTo count data⟩, store)

/-- Write `data` at `offset`. A buffered unit only touches memory and becomes dirty. -/
def write [MediaStore σ] (offset : UInt64) (data : Bytes) (e : Endpoint) (store : σ) :
    Result × Endpoint × σ :=
  let stop := offset.toNat + data.size
  if e.can.readOnly then (.error .readOnly, e, store)
  else
    match e.attachment with
    | none => (.error .notAttached, e, store)
    | some a =>
      if Nat.pow 2 64 ≤ stop then (.error (.nonExistentAddress offset), e, store)
      else if e.capacity ≠ 0 ∧ e.capacity.toNat < stop then
        (.error (.nonExistentAddress (UInt64.ofNat (stop - 1))), e, store)
      else
        match a.buffer with
        | some b =>
          if stop ≤ b.data.size then
            let b : Buffer := ⟨b.data.overwrite offset.toNat data, max b.highWater stop⟩
            let a : Attachment := { a with buffer := some b, dirty := true }
            (.ok (), { e with attachment := some a }, store)
          else (.error (.nonExistentAddress offset), e, store)
        | none =>
          let (answer, store) := MediaStore.write a.medium offset data store
          (answer, e, store)

/-! ## Attaching and detaching -/

/-- The size of the copy in memory: the capacity, or the size of the medium if there is none. -/
def bufferSize [MediaStore σ] (medium : Handle) (e : Endpoint) (store : σ) :
    Except Status Nat × σ :=
  if e.capacity = 0 then MediaStore.length medium store else (.ok e.capacity.toNat, store)

/-- Copy a medium into memory: the copy or the failure, and what is told of it. -/
def load [MediaStore σ] (medium : Handle) (e : Endpoint) (store : σ) :
    Except Status Buffer × σ × List Message :=
  match e.bufferSize medium store with
  | (.error status, store) => (.error status, store, [])
  | (.ok size, store) =>
    if Bytes.allocatable size then
      let (answer, store) := MediaStore.read medium 0 size store
      (answer.map fun data => ⟨Bytes.padTo size data, data.size⟩, store, [.buffering e.name])
    else (.error .noMemory, store, [])

/-- Bind a unit to the medium of a name. A buffered unit copies it into memory here, up to its
capacity. -/
def attach [MediaStore σ] (name : String) (e : Endpoint) (store : σ) :
    Result × Endpoint × σ × List Message :=
  if !e.can.attachable then (.error .notAttachable, e, store, [])
  else if e.isAttached then (.error .alreadyAttached, e, store, [])
  else
    match MediaStore.openMedium name e.can.readOnly store with
    | (.error status, store) => (.error status, e, store, [])
    | (.ok medium, store) =>
      if e.can.buffered then
        match e.load medium store with
        | (.error status, store, told) => (.error status, e, store, told)
        | (.ok buffer, store, told) =>
          let attachment : Attachment := ⟨medium, some buffer, false⟩
          (.ok (), { e with attachment := some attachment, position := 0 }, store, told)
      else
        let attachment : Attachment := ⟨medium, none, false⟩
        (.ok (), { e with attachment := some attachment, position := 0 }, store, [])

/-- Write the bytes below the high-water mark back to the medium. -/
def writeBack [MediaStore σ] (medium : Handle) (b : Buffer) (store : σ) : Result × σ :=
  match MediaStore.write medium 0 (b.data.extract 0 b.highWater) store with
  | (.ok (), store) => MediaStore.flush medium store
  | (.error status, store) => (.error status, store)

/-- Let the medium go. A dirty buffer is written back first; the unit ends up detached whether or
not that succeeds. -/
def detach [MediaStore σ] (e : Endpoint) (store : σ) : Result × Endpoint × σ × List Message :=
  if !e.can.attachable then (.error .notAttachable, e, store, [])
  else
    match e.attachment with
    | none => (.error .notAttached, e, store, [])
    | some a =>
      let freed := { e with attachment := none, position := 0 }
      match a.buffer with
      | none => (.ok (), freed, store, [])
      | some b =>
        if a.dirty && !e.can.readOnly && 0 < b.highWater then
          match writeBack a.medium b store with
          | (.ok (), store) => (.ok (), freed, store, [.writingBack e.name])
          | (.error status, store) =>
            (.error status, freed, store, [.writingBack e.name, .mediaFailure e.name status])
        else (.ok (), freed, store, [])

end Endpoint

end Peripheral
