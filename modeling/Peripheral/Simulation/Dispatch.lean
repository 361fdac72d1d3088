import Peripheral.Simulation.Scheduler

/-!
# Dispatch

When the interval has run out, the units that are due fire in queue order until one ends with a
status other than OK, the queue is empty, the next unit lies in the future, or a stop is asked for.
Callbacks may dispatch in turn. A dispatch is bounded by the number of units it may take off the
queue one inside or after the other (`pops`); it has no answer when that does not suffice, and any
larger number gives the same answer as one that does.

* `Program.exec` : run a program, given what a dispatch does;
* `Scheduler.fire` : fire one unit;
* `Scheduler.drain` : fire what is due; `Scheduler.processEvent` : the whole of a dispatch;
* `Program.run`, `Scheduler.tick` : the entry points.
-/

namespace Peripheral

variable {σ ω : Type} [MediaStore σ]

/-- A step of the simulation that may run out of pops. -/
abbrev Motion (σ ω : Type) := Scheduler σ ω → Option (Result × Scheduler σ ω)

/-- Run a program; `dispatch` is what a dispatch from inside it does. -/
def Program.exec (dispatch : Motion σ ω) : Program ω → Motion σ ω
  | .done result, s => some (result, s)
  | .call c next, s =>
    let (answer, s) := s.perform c
    (next answer).exec dispatch s
  | .look next, s => (next s.world).exec dispatch s
  | .change f next, s => next.exec dispatch { s with world := f s.world }
  | .setAction u action next, s =>
    next.exec dispatch (s.modifySlot u fun slot => { slot with action := some action })
  | .setHook u hook next, s =>
    next.exec dispatch (s.modifySlot u fun slot => { slot with hook := some hook })
  | .park u delay outcome deliver next, s =>
    next.exec dispatch
      (s.modifySlot u fun slot => { slot with delay, parked := some ⟨outcome, deliver⟩ })
  | .dispatch next, s =>
    match dispatch s with
    | none => none
    | some (result, s) => (next result).exec dispatch s

namespace Scheduler

/-- Fire a unit that was taken off the queue: wait on if it has a delay left, else deliver its
finished transfer, else run its action. The action is out of the unit while it runs and goes back
unless another one was installed. -/
def fire (dispatch : Motion σ ω) (u : UnitId) : Motion σ ω := fun s =>
  let slot := s.slot u
  if slot.delay > 0 then
    let s := s.tell (.requeueing slot.endpoint.name slot.delay)
    let s := s.modifySlot u fun slot => { slot with delay := 0 }
    some (.ok (), (s.activateAfter u slot.delay).2)
  else
    match slot.parked with
    | some parked =>
      let s := s.tell (.completing slot.endpoint.name)
      let s := s.modifySlot u fun slot => { slot with parked := none }
      (parked.deliver parked.outcome).exec dispatch s
    | none =>
      let s := s.tell (.firing slot.endpoint.name)
      match slot.action with
      | none => some (.ok (), s)
      | some action =>
        let s := s.modifySlot u fun slot => { slot with action := none }
        match action.exec dispatch s with
        | none => none
        | some (result, s) =>
          some (result, s.modifySlot u fun slot =>
            { slot with action := slot.action.or (some action) })

/-- Tell of a status that is no expected stop. -/
def tellAnomaly (u : UnitId) (result : Result) (s : Scheduler σ ω) : Scheduler σ ω :=
  match result with
  | .ok () => s
  | .error status =>
    if status.isExpectedStop then s else s.tell (.anomaly (s.nameOf u) status)

/-- Whether the next unit is to fire in the same dispatch. -/
def goesOn (result : Result) (s : Scheduler σ ω) : Bool :=
  result.isOk && s.agenda.interval ≤ 0 && !s.agenda.queue.isEmpty && !s.stop

/-- The end of a dispatch: an empty queue is waited on anew, and a stop asked for meanwhile is
taken unless a callback failed. -/
def conclude (result : Result) (s : Scheduler σ ω) : Result × Scheduler σ ω :=
  let s :=
    match s.agenda.queue with
    | [] =>
      let agenda := s.agenda.rearm
      { s with agenda }.tell (.drained agenda.interval none)
    | e :: _ => s.tell (.drained s.agenda.interval (some (s.nameOf e.unit)))
  if result.isOk && s.stop then
    (.error .stopped, { s with stop := false, dispatching := false })
  else (result, { s with dispatching := false })

/-- A dispatch, given how the queue is drained. A stop asked for before is taken first. -/
def process (drain : Motion σ ω) : Motion σ ω := fun s =>
  if s.stop then some (.error .stopped, { s with stop := false })
  else
    let s := { s with agenda := s.agenda.settle }
    if s.agenda.queue.isEmpty then
      let agenda := s.agenda.rearm
      some (.ok (), { s with agenda }.tell (.queueEmpty agenda.interval))
    else
      match drain { s with dispatching := true } with
      | none => none
      | some (result, s) => some (s.conclude result)

/-- Fire units from the head of the queue as long as they are due. -/
def drain : Nat → Motion σ ω
  | 0, _ => none
  | pops + 1, s =>
    match s.agenda.pop? with
    | none => some (.ok (), s)
    | some (u, agenda) =>
      match fire (process (drain pops)) u { s with agenda } with
      | none => none
      | some (result, s) =>
        let s := s.tellAnomaly u result
        if s.goesOn result then drain pops s else some (result, s)

/-- Fire every unit that is due. -/
def processEvent (pops : Nat) : Motion σ ω := process (drain pops)

/-- Run one instruction slot with no instruction in it: fire what is due, then spend a tick. -/
def tick (pops : Nat) : Motion σ ω := fun s =>
  if s.agenda.interval ≤ 0 then
    match s.processEvent pops with
    | none => none
    | some (.error status, s) => some (.error status, s)
    | some (.ok (), s) => some (.ok (), s.consume 1)
  else some (.ok (), s.consume 1)

end Scheduler

def Program.run (pops : Nat) (p : Program ω) : Motion σ ω := p.exec (Scheduler.processEvent pops)

end Peripheral
