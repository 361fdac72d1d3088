import Peripheral.Console
import Peripheral.Simulation.Backend

/-!
# The board

The board is the world that the programs of devices act on: the console, what each clock, disk and
terminal remembers, and whatever else its owner keeps there. Devices of a kind are numbered in the
order of their installation.

* `Board.modifyClock`, `modifyDisk`, `modifyTerminal` : change what a device remembers;
* `Board.addClock`, `addDisk`, `addTerminal` : make room for a device.
-/

namespace Peripheral

/-- What a disk remembers. -/
structure DiskRecord where
  reads : Nat := 0
  writes : Nat := 0
  errors : Nat := 0
  /-- Sector 0 as read by the last boot. -/
  bootSector : Option Bytes := none
deriving DecidableEq, Repr, Inhabited

/-- What a terminal remembers: characters received and not read yet, and characters to display. -/
structure TerminalRecord where
  input : List UInt8 := []
  output : List UInt8 := []
deriving DecidableEq, Repr, Inhabited

/-- A console of type `κ`, the records of devices, and what an owner of type `ε` keeps. -/
structure Board (κ ε : Type) where
  console : κ
  /-- Interrupts of each clock since its reset. -/
  clocks : Array Nat
  disks : Array DiskRecord
  terminals : Array TerminalRecord
  extra : ε
deriving Repr, Inhabited

namespace Board

variable {κ ε : Type}

def empty (console : κ) (extra : ε) : Board κ ε :=
  { console, clocks := #[], disks := #[], terminals := #[], extra }

def clock (i : Nat) (b : Board κ ε) : Nat := b.clocks.getD i 0

def disk (i : Nat) (b : Board κ ε) : DiskRecord := b.disks.getD i {}

def terminal (i : Nat) (b : Board κ ε) : TerminalRecord := b.terminals.getD i {}

def modifyClock (i : Nat) (f : Nat → Nat) (b : Board κ ε) : Board κ ε :=
  { b with clocks := b.clocks.modify i f }

def modifyDisk (i : Nat) (f : DiskRecord → DiskRecord) (b : Board κ ε) : Board κ ε :=
  { b with disks := b.disks.modify i f }

def modifyTerminal (i : Nat) (f : TerminalRecord → TerminalRecord) (b : Board κ ε) : Board κ ε :=
  { b with terminals := b.terminals.modify i f }

def addClock (b : Board κ ε) : Board κ ε := { b with clocks := b.clocks.push 0 }

def addDisk (b : Board κ ε) : Board κ ε := { b with disks := b.disks.push {} }

def addTerminal (b : Board κ ε) : Board κ ε := { b with terminals := b.terminals.push {} }

end Board

end Peripheral
