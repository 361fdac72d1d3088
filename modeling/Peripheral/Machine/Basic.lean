import Peripheral.Registry

/-!
# Machines

A machine is a scheduler with the devices registered on it. Units are named by their device and
their number in it.

* `Machine.attach`, `detach`, `boot` : act on a unit by name;
* `Machine.detachAll` : let every medium go, carrying on past failures;
* `Machine.run` : run a processor one instruction a tick.
-/

namespace Peripheral

/-- A scheduler with devices. -/
structure Machine (σ ω : Type) where
  scheduler : Scheduler σ ω
  registry : Registry ω

inductive RunEnd where
  /-- The tick budget ran out. -/
  | tickLimit
  /-- An expected stop. -/
  | stopped (status : Status)
deriving DecidableEq, Repr, Inhabited

structure RunReport where
  reason : RunEnd
  /-- Ticks of this run. -/
  ticks : Nat
  /-- Simulated time at the end. -/
  elapsed : Float
deriving DecidableEq, Repr, Inhabited

namespace Machine

variable {σ ω : Type}

def ofScheduler (scheduler : Scheduler σ ω) : Machine σ ω := ⟨scheduler, .empty⟩

def register (device : Device ω) (m : Machine σ ω) : Nat × Machine σ ω :=
  let (id, registry, scheduler) := m.registry.register device m.scheduler
  (id, ⟨scheduler, registry⟩)

/-- The device and the unit that a name and a number stand for. -/
def locate (device : String) (unit : UInt64) (m : Machine σ ω) :
    Except Status (Device ω × UnitId) :=
  match m.registry.find? device with
  | none => .error (.unknownDevice device)
  | some d =>
    match d.units[unit.toNat]? with
    | none => .error (.invalidArgument (.noUnit device unit))
    | some u => .ok (d, u)

/-- Keep the scheduler that an operation leaves behind. -/
def afterwards {α : Type} (m : Machine σ ω) (answer : α × Scheduler σ ω) : α × Machine σ ω :=
  (answer.1, { m with scheduler := answer.2 })

variable [MediaStore σ]

def attach (device : String) (unit : UInt64) (name : String) (m : Machine σ ω) :
    Result × Machine σ ω :=
  match m.locate device unit with
  | .error status => (.error status, m)
  | .ok (_, u) =>
    match m.scheduler.attach u name with
    | (.error status, s) => (.error status, { m with scheduler := s })
    | (.ok (), s) => (.ok (), { m with scheduler := s.tell (.attached (s.nameOf u) name) })

def detach (device : String) (unit : UInt64) (m : Machine σ ω) : Result × Machine σ ω :=
  match m.locate device unit with
  | .error status => (.error status, m)
  | .ok (_, u) => m.afterwards (m.scheduler.detach u)

/-- Let the media of units go, carrying on past failures; the first failure of all is kept. -/
def detachEach : List UnitId → Result → Scheduler σ ω → Result × Scheduler σ ω
  | [], first, s => (first, s)
  | u :: rest, first, s =>
    if (s.slot u).endpoint.isAttached then
      match s.detach u with
      | (.ok (), s) => detachEach rest first s
      | (.error status, s) =>
        let s := s.tell (.detachFailure (s.nameOf u) status)
        detachEach rest (if first.isOk then .error status else first) s
    else detachEach rest first s

def allUnits (m : Machine σ ω) : List UnitId := m.registry.devices.toList.flatMap Device.units

/-- Let every medium go, carrying on past failures. The result is the first failure. -/
def detachAll (m : Machine σ ω) : Result × Machine σ ω :=
  m.afterwards (detachEach m.allUnits (.ok ()) m.scheduler)

def resetAll (pops : Nat) (m : Machine σ ω) : Option (Result × Machine σ ω) :=
  (m.registry.resetAll pops m.scheduler).map m.afterwards

def boot (pops : Nat) (device : String) (unit : UInt64) (m : Machine σ ω) :
    Option (Result × Machine σ ω) :=
  match m.locate device unit with
  | .error status => some (.error status, m)
  | .ok (d, u) => ((d.boot u).run pops m.scheduler).map m.afterwards

/-! ## Running a processor -/

/-- One instruction slot: fire what is due, then execute an instruction. -/
def slotOf (pops : Nat) (instruction : Program ω) : Motion σ ω := fun s =>
  if s.agenda.interval ≤ 0 then
    match s.processEvent pops with
    | none => none
    | some (.error status, s) => some (.error status, s)
    | some (.ok (), s) => instruction.run pops s
  else instruction.run pops s

/-- How a run over a number of slots ended. -/
inductive Pause where
  /-- All slots were run. -/
  | exhausted
  /-- A slot ended in a status. -/
  | ended (status : Status)
deriving DecidableEq, Repr, Inhabited

/-- Run instruction slots, spending a tick after each; `ticks` counts those before. -/
def runSlots (pops : Nat) (instruction : Program ω) :
    Nat → Nat → Scheduler σ ω → Option (Pause × Nat × Scheduler σ ω)
  | 0, ticks, s => some (.exhausted, ticks, s)
  | slots + 1, ticks, s =>
    match slotOf pops instruction s with
    | none => none
    | some (.error status, s) => some (.ended status, ticks, s)
    | some (.ok (), s) => runSlots pops instruction slots (ticks + 1) (s.consume 1)

/-- What a run that paused comes to: an expected stop ends it well, another status does not. -/
def report (ticks : Nat) (s : Scheduler σ ω) : Pause → Except Status RunReport × Scheduler σ ω
  | .exhausted => (.ok ⟨.tickLimit, ticks, s.agenda.elapsed⟩, s)
  | .ended status =>
    if status.isExpectedStop then
      let s := s.tell (.runStopped ticks status)
      (.ok ⟨.stopped status, ticks, s.agenda.elapsed⟩, s)
    else (.error status, s)

/-- Run a processor one instruction a tick until it stops or `budget` ticks have passed. A run
without a budget has no answer if it does not stop within `slots` ticks. -/
def run (pops slots : Nat) (instruction : Program ω) (budget : Option Nat) (m : Machine σ ω) :
    Option (Except Status RunReport × Machine σ ω) :=
  match runSlots pops instruction (budget.getD slots) 0 m.scheduler with
  | none => none
  | some (pause, ticks, s) =>
    if budget.isNone && pause = .exhausted then none
    else some (m.afterwards (report ticks s pause))

end Machine

end Peripheral
