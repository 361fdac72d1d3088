import Peripheral.Machine.Build

/-!
# Scripts

A script drives a machine and its parts by hand and shows what they answer. Its operations can be
run from outside and inside callbacks alike, so that actions, hooks and completions can be scripted
too.

* `Op` : an operation; `Command` : an operation or one on the whole machine;
* `Answer` : what an operation answers; `Event` : what callbacks show of themselves;
* `Bench` : the parts that a script has made, by number.
-/

namespace Peripheral.Session

/-- An operation of a script. Parts are named by their number. -/
inductive Op where
  -- units and callbacks
  | add (endpoint : Endpoint) (action : List (List Op)) (hook : List Bool)
  | setAction (u : UnitId) (action : List (List Op))
  | setHook (u : UnitId) (hook : List Bool)
  | fail (status : Status)
  -- queue and time
  | activate (u : UnitId) (ticks : Int32)
  | activateAbs (u : UnitId) (ticks : Int32)
  | notBefore (u : UnitId) (target : UInt32)
  | after (u : UnitId) (usecs : Float)
  | afterAbs (u : UnitId) (usecs : Float)
  | cancel (u : UnitId)
  | isActive (u : UnitId)
  | ioPending (u : UnitId)
  | time (u : UnitId)
  | usecs (u : UnitId)
  | delay (u : UnitId)
  | consume (ticks : Int32)
  | tick (count : Nat)
  | process
  | stop
  | stopRequested
  | takeStop
  | clock
  | counts
  -- media of units
  | unit (u : UnitId)
  | describe (u : UnitId)
  | setPosition (u : UnitId) (offset : UInt64)
  | setCapacity (u : UnitId) (bytes : UInt64)
  | attach (u : UnitId) (name : String)
  | detach (u : UnitId)
  | read (u : UnitId) (offset : UInt64) (count : Nat)
  | write (u : UnitId) (offset : UInt64) (data : Bytes)
  | buffer (u : UnitId)
  | transfer (u : UnitId) (sectorSize : UInt64) (request : Request)
  -- media by name and by handle
  | image (name : String)
  | addImage (name : String) (data : Bytes)
  | writes (name : String)
  | openMedium (name : String) (readOnly : Bool)
  | mediumLength (h : Nat)
  | mediumEmpty (h : Nat)
  | mediumFlush (h : Nat)
  | mediumRead (h : Nat) (offset : UInt64) (count : Nat)
  | mediumWrite (h : Nat) (offset : UInt64) (data : Bytes)
  -- backends
  | newBackend (backend : Backend)
  | submit (backend : Nat) (u : UnitId) (request : Request) (acts : List Op) (passStatus : Bool)
  -- console
  | type (keys : List UInt8)
  | key
  | display (bytes : List UInt8)
  | output
  -- devices
  | newClock (settings : ClockSettings)
  | newDisk (settings : DiskSettings)
  | newTerminal (settings : TerminalSettings)
  | deviceInfo (d : Nat)
  | deviceReset (d : Nat)
  | deviceBoot (d : Nat) (u : UnitId)
  | deviceAttach (d : Nat) (u : UnitId) (name : String)
  | deviceDetach (d : Nat) (u : UnitId)
  | bootSector (d : Nat)
  | clockCount (c : Nat)
  | diskSubmit (k : Nat) (drive : UInt64) (request : Request) (acts : List Op) (passStatus : Bool)
  | diskStats (k : Nat)
  | diskUnit (k : Nat) (drive : UInt64)
  | getChar (t : Nat)
  | putChars (t : Nat) (bytes : List UInt8)
  | busy (t : Nat)
deriving Inhabited

/-- A device whose reset and boot are scripted; with neither it does what devices do by default. -/
structure ScriptedDevice where
  name : String
  units : List UnitId
  reset : Option (List Op)
  boot : Option (List Op)
deriving Inhabited

inductive Processor where
  /-- It does nothing. -/
  | idle
  /-- It gives characters typed on the first terminal back to it. -/
  | echo
  /-- It runs the acts listed for the number of a call, then every so many calls some more. -/
  | scripted (listed : List (Nat × List Op)) (every : Nat × List Op)
deriving Inhabited

inductive Command where
  | op (op : Op)
  -- the machine
  | register (device : ScriptedDevice)
  | devices
  | find (name : String)
  | deviceOf (u : UnitId)
  | attach (device : String) (unit : UInt64) (name : String)
  | detach (device : String) (unit : UInt64)
  | detachAll
  | resetAll
  | boot (device : String) (unit : UInt64)
  | stop
  | image (name : String)
  | run (processor : Processor) (budget : Option Nat)
  -- a registry beside the machine's
  | sideRegister (device : ScriptedDevice)
  | sideDevices
  | sideFind (name : String)
  | sideResetAll
  | sideReset (name : String)
  | sideBoot (name : String) (u : UnitId)
deriving Inhabited

inductive Answer where
  | ok
  | failed (status : Status)
  | activation (a : Activation)
  | flag (b : Bool)
  | number (i : Int)
  | real (x : Float)
  | text (s : String)
  | bytes (data : Option Bytes)
  | byte (b : Option UInt8)
  | count (n : Option Nat)
  | ticks (count : Nat) (result : Result)
  | time (interval : Int32) (elapsed : Float) (wrapping : UInt32) (dispatching : Bool)
      (rate : Float)
  | counts (units queued : Nat)
  | unit (view : UnitView)
  | reading (r : Reading)
  | buffer (b : Buffer)
  | outcome (o : Outcome)
  | output (bytes : Bytes) (text : String)
  | clock (device number : Nat) (period : Int32)
  | disk (device number : Nat)
  | terminal (device number : Nat)
  | deviceInfo (name : String) (units : List UnitId)
  | device (device : Option (String × List UnitId))
  | deviceName (name : Option String)
  | devices (all : List (String × List UnitId))
  | stats (sectorSize : UInt64) (record : DiskRecord)
  | report (r : RunReport)
  | missing
deriving Inhabited

def Answer.ofResult : Result → Answer
  | .ok () => .ok
  | .error status => .failed status

def Answer.ofExcept {α : Type} (answer : α → Answer) : Except Status α → Answer
  | .ok a => answer a
  | .error status => .failed status

/-- What a callback shows of itself. -/
inductive Event where
  /-- The action of a unit starts. -/
  | fire (u : UnitId)
  /-- An act of a callback has been run. -/
  | act (answer : Answer)
  /-- A cancel hook was asked. -/
  | hook (u : UnitId) (swallowed : Bool)
  /-- A completion starts. -/
  | io (u : UnitId) (outcome : Outcome)
  /-- The reset of a device starts. -/
  | reset (device : String)
  /-- The boot of a device starts. -/
  | boot (device : String) (u : UnitId)
deriving Inhabited

/-- A peripheral made by a script. -/
inductive Part where
  | clock (c : LineClock)
  | disk (d : SectorDisk)
  | terminal (t : Terminal)
deriving Inhabited

/-- What a script has made, and what its callbacks have shown since its last step. -/
structure Bench where
  events : Array Event := #[]
  /-- How often each scripted callback was run. -/
  counters : Array Nat := #[]
  /-- The answer of the last operation run from outside. -/
  answer : Answer := .ok
  backends : Array Backend := #[]
  handles : Array Handle := #[]
  parts : Array Part := #[]
  clocks : Array LineClock := #[]
  disks : Array SectorDisk := #[]
  terminals : Array Terminal := #[]
deriving Inhabited

abbrev World := Board Headless Bench

end Peripheral.Session
