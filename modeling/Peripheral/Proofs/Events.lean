import Peripheral.Proofs.Chronicle

/-!
# Transfers in the course of a run

Between the changes of the agenda lie the moments at which a finished transfer is left with a unit and
those at which it is delivered.

* `Event` : a change of the agenda, a transfer left with a unit, or its delivery; `changesIn` : the
  changes among events;
* `Program.events`, `Scheduler.fireEvents`, `processEvents`, `drainEvents` : the events of the motions
  of the same names, in order; `Program.runEvents` : **those of a whole run**.
-/

namespace Peripheral

variable {σ ω : Type}

/-- What happens to the agenda and to transfers in the course of a run. -/
inductive Event where
  | changed (c : Change)
  /-- A finished transfer is left with a unit, to wait for so many ticks and the microseconds that they
  do not cover. -/
  | parked (u : UnitId) (ticks : Int32) (rest : Float)
  /-- The unit hands its finished transfer over. -/
  | delivered (u : UnitId)
deriving DecidableEq, Repr

def Event.change? : Event → Option Change
  | .changed c => some c
  | _ => none

def changesIn (l : List Event) : List Change := l.filterMap Event.change?

@[simp] theorem changesIn_nil : changesIn [] = [] := rfl

@[simp] theorem changesIn_append (l l' : List Event) :
    changesIn (l ++ l') = changesIn l ++ changesIn l' := List.filterMap_append

theorem changesIn_concat {e : Event} (quiet : e.change? = none) (l : List Event) :
    changesIn (l ++ [e]) = changesIn l := by
  unfold changesIn
  rw [List.filterMap_append, List.filterMap_cons_none quiet, List.filterMap_nil, List.append_nil]

/-- Events, in order, for each scheduler to start from. -/
abbrev Diary (σ ω : Type) := Scheduler σ ω → List Event

variable [MediaStore σ]

/-- The events of a program; `within` are those of a dispatch from inside it. -/
def Program.events (dispatch : Motion σ ω) (within : Diary σ ω) : Program ω → Diary σ ω
  | .done _, _ => []
  | .call c next, s =>
    let (answer, t) := s.perform c
    (s.changesOf c).map .changed ++ (next answer).events dispatch within t
  | .look next, s => (next s.world).events dispatch within s
  | .change f next, s => next.events dispatch within { s with world := f s.world }
  | .setAction u action next, s =>
    next.events dispatch within (s.modifySlot u fun slot => { slot with action := some action })
  | .setHook u hook next, s =>
    next.events dispatch within (s.modifySlot u fun slot => { slot with hook := some hook })
  | .park u delay outcome deliver next, s =>
    .parked u (s.legs delay).1 (s.legs delay).2 :: next.events dispatch within
      (s.modifySlot u fun slot => { slot with delay, parked := some ⟨outcome, deliver⟩ })
  | .dispatch next, s =>
    within s ++
      match dispatch s with
      | none => []
      | some (result, s) => (next result).events dispatch within s

namespace Scheduler

def fireEvents (dispatch : Motion σ ω) (within : Diary σ ω) (u : UnitId) : Diary σ ω := fun s =>
  let slot := s.slot u
  if slot.delay > 0 then (s.changesOf (.activateAfter u slot.delay)).map .changed
  else
    match slot.parked with
    | some parked =>
      let s := s.tell (.completing slot.endpoint.name)
      let s := s.modifySlot u fun slot => { slot with parked := none }
      .delivered u :: (parked.deliver parked.outcome).events dispatch within s
    | none =>
      match slot.action with
      | none => []
      | some action =>
        let s := s.tell (.firing slot.endpoint.name)
        let s := s.modifySlot u fun slot => { slot with action := none }
        action.events dispatch within s

/-- The events of a dispatch; `within` are those of draining the queue. -/
def processEvents (drain : Motion σ ω) (within : Diary σ ω) : Diary σ ω := fun s =>
  if s.stop then []
  else
    let s := { s with agenda := s.agenda.settle, dispatching := true }
    .changed .settled ::
      if s.agenda.queue.isEmpty then [.changed .rested]
      else
        within s ++
          match drain s with
          | none => []
          | some (_, s) => if s.agenda.queue.isEmpty then [.changed .rested] else []

def drainEvents : Nat → Diary σ ω
  | 0, _ => []
  | pops + 1, s =>
    match s.agenda.pop? with
    | none => []
    | some (u, agenda) =>
      let dispatch := process (drain pops)
      let within := processEvents (drain pops) (drainEvents pops)
      .changed (.popped u s.agenda.reference) :: (fireEvents dispatch within u { s with agenda } ++
        match fire dispatch u { s with agenda } with
        | none => []
        | some (result, s) =>
          let s := s.tellAnomaly u result
          if s.goesOn result then drainEvents pops s else [])

def dispatchEvents (pops : Nat) : Diary σ ω := processEvents (drain pops) (drainEvents pops)

end Scheduler

def Program.runEvents (pops : Nat) (p : Program ω) : Diary σ ω :=
  p.events (Scheduler.processEvent pops) (Scheduler.dispatchEvents pops)

end Peripheral
