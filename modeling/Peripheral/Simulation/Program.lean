import Peripheral.Agenda
import Peripheral.Storage.Transfer

/-!
# Programs run by the scheduler

A unit's action, the completion of a transfer and the step of a processor are programs: trees of
calls to the scheduler, each followed by what happens on its answer. Programs also look at and
change a world of type `ω`, which holds all that devices remember between their calls.

* `Call`, `Call.Answer` : the calls on queue, units, media and journal that have a plain answer;
* `Program` : calls in sequence, installation of callbacks, and re-entrant dispatch;
* `Act` : programs in the making, as a monad; `Task` : those that may stop with a status;
* `Act.tick`, `Act.activateAbs`, … : operations composed of calls.
-/

namespace Peripheral

/-- What can be seen of a unit. -/
structure UnitView where
  endpoint : Endpoint
  /-- The device that declared the unit, by its place in the registry. -/
  owner : Option Nat
  /-- Microseconds still to elapse before the unit really fires. -/
  delay : Float
  /-- A finished transfer awaits delivery. -/
  ioPending : Bool
deriving Inhabited

/-- Calls that a program can make. -/
inductive Call where
  -- time and queue
  | agenda
  | rate
  | dispatching
  | consume (ticks : Int32)
  | activate (u : UnitId) (ticks : Int32)
  | activateAfter (u : UnitId) (usecs : Float)
  | cancel (u : UnitId)
  | activationTime (u : UnitId)
  | activationUsecs (u : UnitId)
  -- stop requests
  | requestStop
  | stopRequested
  | takeStop
  -- units
  | addUnit (endpoint : Endpoint)
  | unitCount
  | unit (u : UnitId)
  | setPosition (u : UnitId) (offset : UInt64)
  | setCapacity (u : UnitId) (bytes : UInt64)
  | attach (u : UnitId) (name : String)
  | detach (u : UnitId)
  | read (u : UnitId) (offset : UInt64) (count : Nat)
  | write (u : UnitId) (offset : UInt64) (data : Bytes)
  | transfer (u : UnitId) (sectorSize : UInt64) (request : Request)
  -- media
  | openMedium (name : String) (readOnly : Bool)
  | mediumLength (medium : Handle)
  | readMedium (medium : Handle) (offset : UInt64) (count : Nat)
  | writeMedium (medium : Handle) (offset : UInt64) (data : Bytes)
  | flushMedium (medium : Handle)
  | contents (name : String)
  | install (name : String) (data : Bytes)
  | writeCount (name : String)
  -- journal
  | tell (m : Message)
deriving Inhabited

abbrev Call.Answer : Call → Type
  | .agenda => Agenda
  | .rate => Float
  | .dispatching => Bool
  | .consume _ => Unit
  | .activate _ _ => Activation
  | .activateAfter _ _ => Activation
  | .cancel _ => Unit
  | .activationTime _ => Int32
  | .activationUsecs _ => Float
  | .requestStop => Unit
  | .stopRequested => Bool
  | .takeStop => Bool
  | .addUnit _ => UnitId
  | .unitCount => Nat
  | .unit _ => UnitView
  | .setPosition _ _ => Unit
  | .setCapacity _ _ => Unit
  | .attach _ _ => Result
  | .detach _ => Result
  | .read _ _ _ => Except Status Reading
  | .write _ _ _ => Result
  | .transfer _ _ _ => Outcome
  | .openMedium _ _ => Except Status Handle
  | .mediumLength _ => Except Status Nat
  | .readMedium _ _ _ => Except Status Bytes
  | .writeMedium _ _ _ => Result
  | .flushMedium _ => Result
  | .contents _ => Option Bytes
  | .install _ _ => Unit
  | .writeCount _ => Option Nat
  | .tell _ => Unit

/-- Asked before a cancellation touches the queue; `true` swallows it. It sees and changes nothing
but the world. -/
abbrev Hook (ω : Type) := ω → Bool × ω

/-- A callback: calls in sequence, ending in a result. -/
inductive Program (ω : Type) : Type where
  /-- End with a result. -/
  | done (result : Result)
  /-- Make a call and go on with its answer. -/
  | call (c : Call) (next : c.Answer → Program ω)
  /-- Look at the world. -/
  | look (next : ω → Program ω)
  /-- Change the world. -/
  | change (f : ω → ω) (next : Program ω)
  /-- Give a unit its action. -/
  | setAction (u : UnitId) (action : Program ω) (next : Program ω)
  /-- Give a unit its cancel hook. -/
  | setHook (u : UnitId) (hook : Hook ω) (next : Program ω)
  /-- Leave a finished transfer with a unit, to be delivered after a delay. -/
  | park (u : UnitId) (delay : Float) (outcome : Outcome) (deliver : Outcome → Program ω)
      (next : Program ω)
  /-- Fire the units that are due, from inside a callback. -/
  | dispatch (next : Result → Program ω)

instance {ω : Type} : Inhabited (Program ω) := ⟨.done (.ok ())⟩

/-- A program that has no rest yet: given what follows its answer, it is a program. -/
def Act (ω α : Type) : Type := (α → Program ω) → Program ω

namespace Act

variable {ω : Type}

instance : Monad (Act ω) where
  pure a := fun next => next a
  bind m f := fun next => m fun a => f a next

def perform (c : Call) : Act ω c.Answer := fun next => .call c next

def world : Act ω ω := fun next => .look next

def change (f : ω → ω) : Act ω Unit := fun next => .change f (next ())

/-- Change the world and keep an answer from it. -/
def update {α : Type} (f : ω → α × ω) : Act ω α := fun next =>
  .look fun w => .change (fun _ => (f w).2) (next (f w).1)

def setAction (u : UnitId) (action : Program ω) : Act ω Unit := fun next =>
  .setAction u action (next ())

def setHook (u : UnitId) (hook : Hook ω) : Act ω Unit := fun next => .setHook u hook (next ())

def park (u : UnitId) (delay : Float) (outcome : Outcome) (deliver : Outcome → Program ω) :
    Act ω Unit :=
  fun next => .park u delay outcome deliver (next ())

def dispatch : Act ω Result := fun next => .dispatch next

/-- Run a program inside another one and go on with its result. -/
def inline : Program ω → Act ω Result
  | .done result => fun next => next result
  | .call c rest => fun next => .call c fun answer => inline (rest answer) next
  | .look rest => fun next => .look fun w => inline (rest w) next
  | .change f rest => fun next => .change f (inline rest next)
  | .setAction u action rest => fun next => .setAction u action (inline rest next)
  | .setHook u hook rest => fun next => .setHook u hook (inline rest next)
  | .park u delay outcome deliver rest => fun next =>
    .park u delay outcome deliver (inline rest next)
  | .dispatch rest => fun next => .dispatch fun result => inline (rest result) next

/-! ## Operations composed of calls -/

/-- Run one instruction slot with no instruction in it: fire what is due, then spend a tick. -/
def tick : Act ω Result := do
  let agenda ← perform .agenda
  if agenda.interval ≤ 0 then
    match ← dispatch with
    | .error status => return .error status
    | .ok () =>
      perform (.consume 1)
      return .ok ()
  else
    perform (.consume 1)
    return .ok ()

/-- Schedule a unit, replacing its pending activation. -/
def activateAbs (u : UnitId) (ticks : Int32) : Act ω Activation := do
  perform (.cancel u)
  perform (.activate u ticks)

/-- Schedule a unit at an absolute tick modulo `2 ^ 32`; half of that range counts as past, and a
unit due in the past is due at once. -/
def activateNotBefore (u : UnitId) (target : UInt32) : Act ω Activation := do
  perform (.cancel u)
  let agenda ← perform .agenda
  let delta := target - agenda.elapsedWrapping
  if 0x80000000 ≤ delta then perform (.activate u 0)
  else activateAbs u delta.toInt32

/-- Schedule a unit after microseconds, replacing its pending activation. -/
def activateAfterAbs (u : UnitId) (usecs : Float) : Act ω Activation := do
  perform (.cancel u)
  perform (.activateAfter u usecs)

end Act

/-- A program in the making that may stop with a status. -/
abbrev Task (ω α : Type) := ExceptT Status (Act ω) α

namespace Task

variable {ω : Type}

def ofResult {α : Type} (m : Act ω (Except Status α)) : Task ω α := ExceptT.mk m

def program (t : Task ω Unit) : Program ω := t.run .done

end Task

end Peripheral
