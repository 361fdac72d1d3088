import Peripheral.Simulation.Program

/-!
# The scheduler

The scheduler holds the agenda, the units with their callbacks, the media that units are bound to,
the world that programs act on, and the journal.

* `Slot` : a unit and its callbacks;
* `Scheduler.activate`, `activateAfter`, `cancel` : change the queue;
* `Scheduler.attach`, `detach`, `read`, `write`, `transfer` : act on the medium of a unit;
* `Scheduler.perform` : answer a call of a program.
-/

namespace Peripheral

/-- A finished transfer that awaits delivery. -/
structure Parked (ω : Type) where
  outcome : Outcome
  deliver : Outcome → Program ω

/-- A unit with its callbacks. -/
structure Slot (ω : Type) where
  endpoint : Endpoint
  /-- The device that declared the unit, by its place in the registry. -/
  owner : Option Nat := none
  /-- Microseconds still to elapse before the unit really fires. -/
  delay : Float := 0
  action : Option (Program ω) := none
  hook : Option (Hook ω) := none
  parked : Option (Parked ω) := none

instance {ω : Type} : Inhabited (Slot ω) := ⟨{ endpoint := default }⟩

/-- The simulation clock and queue with all that they drive: media of type `σ` and a world of type
`ω`. -/
structure Scheduler (σ ω : Type) where
  agenda : Agenda
  slots : Array (Slot ω)
  /-- Ticks in a second, to turn microseconds into ticks. -/
  rate : Float
  /-- A stop was asked for and not taken yet. -/
  stop : Bool
  /-- Callbacks are being fired. -/
  dispatching : Bool
  world : ω
  media : σ
  journal : Journal

namespace Scheduler

variable {σ ω : Type}

def start (idleWait : Int32) (rate : Float) (world : ω) (media : σ) (journal : Journal) :
    Scheduler σ ω :=
  { agenda := .start idleWait, slots := #[], rate, stop := false, dispatching := false
    world, media, journal }

/-! ## Units -/

def slot (u : UnitId) (s : Scheduler σ ω) : Slot ω := s.slots.getD u default

def modifySlot (u : UnitId) (f : Slot ω → Slot ω) (s : Scheduler σ ω) : Scheduler σ ω :=
  { s with slots := s.slots.modify u f }

def nameOf (u : UnitId) (s : Scheduler σ ω) : String := (s.slot u).endpoint.name

def view (u : UnitId) (s : Scheduler σ ω) : UnitView :=
  let slot := s.slot u
  { endpoint := slot.endpoint, owner := slot.owner, delay := slot.delay
    ioPending := slot.parked.isSome }

/-- Add a unit; it is idle and has no callbacks. -/
def addUnit (e : Endpoint) (s : Scheduler σ ω) : UnitId × Scheduler σ ω :=
  (s.slots.size, { s with slots := s.slots.push { endpoint := e } })

def tell (m : Message) (s : Scheduler σ ω) : Scheduler σ ω :=
  { s with journal := s.journal.record m }

def tellAll (ms : List Message) (s : Scheduler σ ω) : Scheduler σ ω :=
  { s with journal := s.journal.recordAll ms }

/-! ## The queue -/

def isActive (u : UnitId) (s : Scheduler σ ω) : Bool := s.agenda.isActive u

/-- Microseconds as ticks. -/
def ticksOf (usecs : Float) (s : Scheduler σ ω) : Float := usecs * s.rate / 1000000

def consume (ticks : Int32) (s : Scheduler σ ω) : Scheduler σ ω :=
  { s with agenda := s.agenda.consume ticks }

/-- Schedule a unit `ticks` from now; one that is pending keeps its deadline. -/
def activate (u : UnitId) (ticks : Int32) (s : Scheduler σ ω) : Activation × Scheduler σ ω :=
  if s.isActive u then (.alreadyActive, s)
  else
    let s := s.tell (.activating (s.nameOf u) (max ticks 0))
    (.queued, { s with agenda := s.agenda.insert u ticks })

/-- The first leg of a delay in ticks, and the microseconds that remain after it: none unless the
delay is longer than a tick count can tell. -/
def legs (usecs : Float) (s : Scheduler σ ω) : Int32 × Float :=
  let usecs := Ticks.nonnegative usecs
  let ticks := s.ticksOf usecs
  let longest := Ticks.toFloat Ticks.top
  if ticks > longest then (Ticks.top, usecs - longest * 1000000 / s.rate)
  else (Ticks.ofFloat ticks, 0)

/-- Schedule a unit after microseconds; one that is pending keeps its deadline. What the first leg
does not cover is kept as the delay of the unit. -/
def activateAfter (u : UnitId) (usecs : Float) (s : Scheduler σ ω) :
    Activation × Scheduler σ ω :=
  if s.isActive u then (.alreadyActive, s)
  else
    let (ticks, remaining) := s.legs usecs
    let (activation, s) := s.activate u ticks
    (activation, s.modifySlot u fun slot => { slot with delay := remaining })

/-- Take a unit out of the queue, hook or no hook; an idle unit stays as it is. -/
def unqueue (u : UnitId) (s : Scheduler σ ω) : Scheduler σ ω :=
  if s.isActive u then
    let s := s.tell (.canceling (s.nameOf u))
    { s with agenda := s.agenda.remove u }.modifySlot u fun slot => { slot with delay := 0 }
  else s

/-- Remove a unit from the queue unless its hook swallows that. -/
def cancel (u : UnitId) (s : Scheduler σ ω) : Scheduler σ ω :=
  match (s.slot u).hook with
  | none => s.unqueue u
  | some hook =>
    let (swallowed, world) := hook s.world
    let s := { s with world }
    if swallowed then s else s.unqueue u

/-- One plus the ticks until a unit fires, or 0 if it is idle. -/
def activationTime (u : UnitId) (s : Scheduler σ ω) : Int32 :=
  let due := s.agenda.dueIn u
  if due = 0 then 0 else Ticks.addSat due (Ticks.ofFloat (s.ticksOf (s.slot u).delay))

/-- One plus the microseconds until a unit fires, or 0 if it is idle. -/
def activationUsecs (u : UnitId) (s : Scheduler σ ω) : Float :=
  let due := s.agenda.dueIn u
  if due = 0 then 0
  else 1 + (s.slot u).delay + Ticks.toFloat (due - 1) * 1000000 / s.rate

/-! ## Media -/

variable [MediaStore σ]

def setEndpoint (u : UnitId) (e : Endpoint) (s : Scheduler σ ω) : Scheduler σ ω :=
  s.modifySlot u fun slot => { slot with endpoint := e }

def attach (u : UnitId) (name : String) (s : Scheduler σ ω) : Result × Scheduler σ ω :=
  let (result, e, media, told) := (s.slot u).endpoint.attach name s.media
  (result, ({ s with media }.setEndpoint u e).tellAll told)

def detach (u : UnitId) (s : Scheduler σ ω) : Result × Scheduler σ ω :=
  let (result, e, media, told) := (s.slot u).endpoint.detach s.media
  (result, ({ s with media }.setEndpoint u e).tellAll told)

def read (u : UnitId) (offset : UInt64) (count : Nat) (s : Scheduler σ ω) :
    Except Status Reading × Scheduler σ ω :=
  let (answer, media) := (s.slot u).endpoint.read offset count s.media
  (answer, { s with media })

def write (u : UnitId) (offset : UInt64) (data : Bytes) (s : Scheduler σ ω) :
    Result × Scheduler σ ω :=
  let (result, e, media) := (s.slot u).endpoint.write offset data s.media
  (result, { s with media }.setEndpoint u e)

/-- Move sectors between the medium of a unit and memory. -/
def transfer (u : UnitId) (sectorSize : UInt64) (request : Request) (s : Scheduler σ ω) :
    Outcome × Scheduler σ ω :=
  let (outcome, e, media) := (s.slot u).endpoint.transfer sectorSize request s.media
  (outcome, { s with media }.setEndpoint u e)

/-- Keep the media a call leaves behind. -/
def onMedia {α : Type} (f : σ → α × σ) (s : Scheduler σ ω) : α × Scheduler σ ω :=
  let (answer, media) := f s.media
  (answer, { s with media })

/-! ## Calls -/

def perform (s : Scheduler σ ω) : (c : Call) → c.Answer × Scheduler σ ω
  | .agenda => (s.agenda, s)
  | .rate => (s.rate, s)
  | .dispatching => (s.dispatching, s)
  | .consume ticks => ((), s.consume ticks)
  | .activate u ticks => s.activate u ticks
  | .activateAfter u usecs => s.activateAfter u usecs
  | .cancel u => ((), s.cancel u)
  | .activationTime u => (s.activationTime u, s)
  | .activationUsecs u => (s.activationUsecs u, s)
  | .requestStop => ((), { s with stop := true })
  | .stopRequested => (s.stop, s)
  | .takeStop => (s.stop, { s with stop := false })
  | .addUnit e => s.addUnit e
  | .unitCount => (s.slots.size, s)
  | .unit u => (s.view u, s)
  | .setPosition u offset =>
    ((), s.modifySlot u fun slot =>
      { slot with endpoint := { slot.endpoint with position := offset } })
  | .setCapacity u bytes =>
    ((), s.modifySlot u fun slot =>
      { slot with endpoint := { slot.endpoint with capacity := bytes } })
  | .attach u name => s.attach u name
  | .detach u => s.detach u
  | .read u offset count => s.read u offset count
  | .write u offset data => s.write u offset data
  | .transfer u sectorSize request => s.transfer u sectorSize request
  | .openMedium name readOnly => s.onMedia (MediaStore.openMedium name readOnly)
  | .mediumLength medium => s.onMedia (MediaStore.length medium)
  | .readMedium medium offset count => s.onMedia (MediaStore.read medium offset count)
  | .writeMedium medium offset data => s.onMedia (MediaStore.write medium offset data)
  | .flushMedium medium => s.onMedia (MediaStore.flush medium)
  | .contents name => (MediaStore.contents? name s.media, s)
  | .install name data => ((), { s with media := MediaStore.install name data s.media })
  | .writeCount name => (MediaStore.writeCount? name s.media, s)
  | .tell m => ((), s.tell m)

end Scheduler

end Peripheral
