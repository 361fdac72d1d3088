import Peripheral.Storage.Media

/-!
# Disk images held in memory

A name either has an image or does not; opening, reading and writing go to the image of that name.
Every write that reaches an image is counted.
-/

namespace Peripheral

/-- Images by name, and the writes that reached each of them. -/
structure MemoryImages where
  images : Named Bytes
  writes : Named Nat
deriving DecidableEq, Repr, Inhabited

namespace MemoryImages

def empty : MemoryImages := ⟨[], []⟩

def image? (name : String) (s : MemoryImages) : Option Bytes := s.images.find? name

def install (name : String) (data : Bytes) (s : MemoryImages) : MemoryImages :=
  { s with images := s.images.set name data }

def writeCount (name : String) (s : MemoryImages) : Nat := (s.writes.find? name).getD 0

/-- Any name with an image can be opened. -/
def openMedium (name : String) (readOnly : Bool) (s : MemoryImages) : Except Status Handle :=
  match s.image? name with
  | some _ => .ok { name, readOnly }
  | none => .error (.openFailed name .entityNotFound)

def behind (medium : Handle) (s : MemoryImages) : Except Status Bytes :=
  match s.image? medium.name with
  | some data => .ok data
  | none => .error (.io .entityNotFound)

def read (medium : Handle) (offset : UInt64) (count : Nat) (s : MemoryImages) :
    Except Status Bytes :=
  (s.behind medium).map fun data => data.extract offset.toNat (offset.toNat + count)

/-- Put `data` at `offset`; the image grows to the end of the write, also for an empty one. -/
def write (medium : Handle) (offset : UInt64) (data : Bytes) (s : MemoryImages) :
    Result × MemoryImages :=
  let stop := offset.toNat + data.size
  if Nat.pow 2 64 ≤ stop then (.error (.nonExistentAddress offset), s)
  else
    match s.behind medium with
    | .error status => (.error status, s)
    | .ok image =>
      if image.size < stop ∧ !Bytes.allocatable stop then (.error .noMemory, s)
      else
        (.ok (),
          { images := s.images.set medium.name (image.overwrite offset.toNat data)
            writes := s.writes.set medium.name (s.writeCount medium.name + 1) })

instance : MediaStore MemoryImages where
  openMedium name readOnly s := (s.openMedium name readOnly, s)
  length medium s := ((s.behind medium).map Array.size, s)
  read medium offset count s := (s.read medium offset count, s)
  write medium offset data s := s.write medium offset data
  flush _ s := (.ok (), s)
  contents? name s := s.image? name
  install name data s := s.install name data
  writeCount? name s := some (s.writeCount name)

end MemoryImages

end Peripheral
