import Peripheral.Status

/-!
# Machine descriptions

A description tells how a machine is equipped: its tick rate, its clock, disks and terminal, the
media to attach, how long to run and what to boot. Every setting has a default.

* `Description.validate` : the first thing that is wrong with a description.
-/

namespace Peripheral

structure TimeSettings where
  /-- Ticks to wait before an empty queue is looked at again. -/
  idleWait : Int32 := 1000000
  /-- Ticks in a second. -/
  tickRate : Float := 1000000
deriving DecidableEq, Repr, Inhabited

structure ClockSettings where
  enabled : Bool := true
  /-- Interrupts in a second. -/
  hz : UInt32 := 60
deriving DecidableEq, Repr, Inhabited

structure DiskSettings where
  drives : UInt64 := 1
  sectorSize : UInt64 := 512
  /-- Sectors of a drive. -/
  sectors : UInt64 := 2048
  /-- Copy the whole medium into memory when it is attached. -/
  buffered : Bool := false
  readOnly : Bool := false
  /-- Microseconds until a transfer completes. Zero completes it at once. -/
  latency : Float := 0
deriving DecidableEq, Repr, Inhabited

structure TerminalSettings where
  /-- Ticks between looks at the keyboard. -/
  pollTicks : Int32 := 10000
  /-- Ticks that a character spends on its way out. -/
  outputTicks : Int32 := 100
deriving DecidableEq, Repr, Inhabited

/-- A medium to attach, by device and number of the unit. -/
structure AttachEntry where
  device : String
  unit : UInt64 := 0
  path : String
deriving DecidableEq, Repr, Inhabited

/-- How a machine is equipped. -/
structure Description where
  time : TimeSettings := {}
  clock : ClockSettings := {}
  disk : DiskSettings := {}
  terminal : TerminalSettings := {}
  attach : List AttachEntry := []
  /-- Ticks to run; without them a run lasts until it is stopped. -/
  runTicks : Option UInt64 := none
  /-- The device to boot after attaching. -/
  boot : Option String := none
deriving DecidableEq, Repr, Inhabited

def demand (condition : Bool) (fault : ArgumentFault) : Result :=
  if condition then .ok () else .error (.invalidArgument fault)

/-- Waits are positive and the tick rate is a positive number. -/
def TimeSettings.validate (t : TimeSettings) : Result := do
  demand (0 < t.idleWait) (.idleWait t.idleWait)
  demand (t.tickRate.isFinite && 0 < t.tickRate) (.tickRate t.tickRate)

/-- Sectors have bytes, and the bytes of a drive can be counted. -/
def DiskSettings.validate (d : DiskSettings) : Result := do
  demand (d.sectorSize ≠ 0) .zeroConfiguredSectorSize
  demand (d.sectors.toNat * d.sectorSize.toNat < Nat.pow 2 64)
    (.oversizedDisk d.sectors d.sectorSize)

/-- The keyboard is looked at now and then. -/
def TerminalSettings.validate (t : TerminalSettings) : Result :=
  demand (0 < t.pollTicks && 0 ≤ t.outputTicks) .terminalTicks

/-- The first thing that is wrong with a description. -/
def Description.validate (d : Description) : Result := do
  d.time.validate
  d.disk.validate
  d.terminal.validate

end Peripheral
