import Peripheral.Status
import Peripheral.Storage.Bytes

/-!
# Media

A medium is a named resource that holds bytes: a disk image in memory, a file of the host. It is
opened by name, and every call on an opened medium may fail.

* `Handle` : an opened medium;
* `MediaStore` : what a collection of media offers.
-/

namespace Peripheral

/-- An opened medium: the name it was asked for by, and whether it may be written. -/
structure Handle where
  name : String
  readOnly : Bool
deriving DecidableEq, Repr, Inhabited

/-- A collection of media of type `σ`. Every call answers and gives the collection afterwards. -/
class MediaStore (σ : Type) where
  /-- Open a medium by name. -/
  openMedium (name : String) (readOnly : Bool) (store : σ) : Except Status Handle × σ
  /-- Its size in bytes. -/
  length (medium : Handle) (store : σ) : Except Status Nat × σ
  /-- Up to `count` bytes from `offset` on, fewer only at the end of the medium. -/
  read (medium : Handle) (offset : UInt64) (count : Nat) (store : σ) : Except Status Bytes × σ
  /-- Put all of `data` at `offset`, extending the medium if needed. -/
  write (medium : Handle) (offset : UInt64) (data : Bytes) (store : σ) : Result × σ
  /-- Push writes down to the resource. -/
  flush (medium : Handle) (store : σ) : Result × σ
  /-- The bytes held under a name. -/
  contents? (name : String) (store : σ) : Option Bytes
  /-- Hold `data` under a name, in place of what was there. -/
  install (name : String) (data : Bytes) (store : σ) : σ
  /-- Writes that reached a name, for a collection that counts them. -/
  writeCount? (name : String) (store : σ) : Option Nat

def MediaStore.isEmpty {σ : Type} [MediaStore σ] (medium : Handle) (store : σ) :
    Except Status Bool × σ :=
  let (size, store) := MediaStore.length medium store
  (size.map (· == 0), store)

/-! ## Tables by name -/

/-- Values under names, the first one of a name counting. -/
abbrev Named (α : Type) := List (String × α)

namespace Named

variable {α : Type}

def find? (name : String) : Named α → Option α
  | [] => none
  | (key, value) :: rest => if key = name then some value else find? name rest

/-- Put a value under a name, in place of the one there. -/
def set (name : String) (value : α) : Named α → Named α
  | [] => [(name, value)]
  | (key, old) :: rest =>
    if key = name then (key, value) :: rest else (key, old) :: set name value rest

theorem find?_set (name other : String) (value : α) (t : Named α) :
    find? other (set name value t) = if name = other then some value else find? other t := by
  induction t with
  | nil => simp [set, find?]
  | cons p t ih => grind [set, find?]

end Named

end Peripheral
