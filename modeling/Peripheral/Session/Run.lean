import Peripheral.Session.Acts

/-!
# Running scripts

A session is a machine with a second registry beside its own. Every command gives a step: its
answer, what callbacks have shown meanwhile, and the queue afterwards.

* `Session.start` : a machine made by hand or from a description;
* `Session.command` : carry out a command; `Session.step` : with all that is to be seen of it;
* `Session.steps` : carry out a script.
-/

namespace Peripheral.Session

/-- What a script starts from. -/
structure Setup where
  /-- The machine as described; else one made by hand, with the time settings. -/
  build : Option Description := none
  time : TimeSettings := {}
  images : Named Bytes := []
  typed : List UInt8 := []
  level : Option Level := none
deriving Inhabited

/-- What is to be seen of a command. -/
structure Step where
  answer : Answer
  interval : Int32
  wrapping : UInt32
  elapsed : Float
  /-- Pending units in firing order, with one plus the ticks until they fire. -/
  queue : List (UnitId × Int32)
  events : List Event
deriving Inhabited

end Peripheral.Session

namespace Peripheral

/-- A machine that is driven by a script, and a registry beside it. -/
structure Session (σ : Type) where
  machine : Machine σ Session.World
  side : Registry Session.World

namespace Session

variable {σ : Type} [MediaStore σ]

/-! ## Scripted devices and processors -/

/-- A scripted reset or boot: show it, then run its acts. -/
def scripted (e : Event) (acts : Option (List Op)) : Program World :=
  Task.program do
    ExceptT.lift (emit e)
    actsOf (acts.getD [])

def deviceOf (d : ScriptedDevice) : Device World :=
  if d.reset.isNone && d.boot.isNone then { name := d.name, units := d.units }
  else
    { name := d.name, units := d.units
      reset := scripted (.reset d.name) d.reset
      boot := fun u => scripted (.boot d.name u) d.boot }

def actsOfAll : List (List Op) → Task World Unit
  | [] => return ()
  | acts :: rest => do
    actsOf acts
    actsOfAll rest

/-- A call of a scripted processor: the acts listed for its number, then those of every so many
calls. -/
def scriptedCall (listed : List (Nat × List Op)) (every : Nat × List Op) (counter : Nat) :
    Program World :=
  .look fun w =>
  let n := w.extra.counters.getD counter 0
  .change (onBench fun b => (countRun counter b).2) <|
  Task.program do
    actsOfAll ((listed.filter fun entry => entry.1 = n).map Prod.snd)
    if (n + 1) % every.1 = 0 then actsOf every.2

/-! ## Starting -/

def clear (s : Session σ) : Session σ :=
  { s with machine := { s.machine with scheduler := { s.machine.scheduler with
      world := onBench (fun b => { b with events := #[] }) s.machine.scheduler.world } } }

def benchOf (p : Peripherals) : Bench :=
  { clocks := #[p.clock], disks := #[p.disk], terminals := #[p.terminal] }

def start (pops : Nat) (setup : Setup) (media : σ) : Option (Except Status (Session σ)) :=
  let media := setup.images.foldl (fun m image => MediaStore.install image.1 image.2 m) media
  let console := Headless.withInput setup.typed
  let journal := Journal.empty setup.level
  match setup.build with
  | none =>
    let scheduler := Scheduler.start setup.time.idleWait setup.time.tickRate
      (.empty console {}) media journal
    some (.ok ⟨.ofScheduler scheduler, .empty⟩)
  | some d =>
    match Machine.build pops d media console ({} : Bench) journal with
    | none => none
    | some (.error status, _) => some (.error status)
    | some (.ok p, m) =>
      let world := onBench (fun _ => benchOf p) m.scheduler.world
      some (.ok ⟨{ m with scheduler := { m.scheduler with world } }, .empty⟩)

/-! ## Commands -/

def onScheduler (pops : Nat) (p : Program World) (s : Session σ) :
    Option (Result × Session σ) :=
  match p.run pops s.machine.scheduler with
  | none => none
  | some (result, scheduler) =>
    some (result, { s with machine := { s.machine with scheduler } })

/-- Run an operation and keep its answer on the bench. -/
def opProgram (op : Op) : Program World :=
  op.task.run fun result =>
    let answer := match result with
      | .ok answer => answer
      | .error status => .failed status
    .change (onBench fun b => { b with answer }) (.done (.ok ()))

def afterwards {α : Type} (s : Session σ) (answer : α → Answer) (r : α × Machine σ World) :
    Answer × Session σ :=
  (answer r.1, { s with machine := r.2 })

def infoOf (d : Device World) : String × List UnitId := (d.name, d.units)

def listing (r : Registry World) : List (String × List UnitId) := r.devices.toList.map infoOf

/-- The program of a processor, and the session with what it needs. -/
def processorProgram (p : Processor) (s : Session σ) : Program World × Session σ :=
  match p with
  | .idle => (.done (.ok ()), s)
  | .echo => ((s.machine.scheduler.world.extra.terminals.getD 0 default).echo .done, s)
  | .scripted listed every =>
    let scheduler := s.machine.scheduler
    let counter := scheduler.world.extra.counters.size
    let world := onBench (fun b => { b with counters := b.counters.push 0 }) scheduler.world
    (scriptedCall listed every counter,
      { s with machine := { s.machine with scheduler := { scheduler with world } } })

/-- Run a hook of a device found in the registry beside the machine's. -/
def onSide (pops : Nat) (name : String) (hook : Device World → Program World) (s : Session σ) :
    Option (Answer × Session σ) :=
  match s.side.find? name with
  | none => some (.missing, s)
  | some d => (s.onScheduler pops (hook d)).map fun (result, s) => (.ofResult result, s)

def command (pops slots : Nat) (c : Command) (s : Session σ) : Option (Answer × Session σ) :=
  let m := s.machine
  match c with
  | .op op =>
    (s.onScheduler pops (opProgram op)).map fun (_, s) =>
      (s.machine.scheduler.world.extra.answer, s)
  | .register d => some (s.afterwards (fun (id : Nat) => .number id) (m.register (deviceOf d)))
  | .devices => some (.devices (listing m.registry), s)
  | .find name => some (.device ((m.registry.find? name).map infoOf), s)
  | .deviceOf u => some (.deviceName ((m.registry.deviceOf? u m.scheduler).map Device.name), s)
  | .attach device unit name => some (s.afterwards .ofResult (m.attach device unit name))
  | .detach device unit => some (s.afterwards .ofResult (m.detach device unit))
  | .detachAll => some (s.afterwards .ofResult m.detachAll)
  | .resetAll => (m.resetAll pops).map (s.afterwards .ofResult)
  | .boot device unit => (m.boot pops device unit).map (s.afterwards .ofResult)
  | .stop => some (.ok, { s with machine := { m with scheduler := { m.scheduler with
      stop := true } } })
  | .image name =>
    let media := m.scheduler.media
    some (.bytes (if (MediaStore.writeCount? name media).isSome then
      MediaStore.contents? name media else none), s)
  | .run processor budget =>
    let (instruction, s) := processorProgram processor s
    (s.machine.run pops slots instruction budget).map (s.afterwards (.ofExcept .report))
  | .sideRegister d =>
    let (id, side, scheduler) := s.side.register (deviceOf d) m.scheduler
    some (.number id, { machine := { m with scheduler }, side })
  | .sideDevices => some (.devices (listing s.side), s)
  | .sideFind name => some (.device ((s.side.find? name).map infoOf), s)
  | .sideResetAll =>
    match s.side.resetAll pops m.scheduler with
    | none => none
    | some (result, scheduler) =>
      some (.ofResult result, { s with machine := { m with scheduler } })
  | .sideReset name => s.onSide pops name fun d => d.reset
  | .sideBoot name u => s.onSide pops name fun d => d.boot u

def observe (answer : Answer) (s : Session σ) : Step :=
  let scheduler := s.machine.scheduler
  { answer
    interval := scheduler.agenda.interval
    wrapping := scheduler.agenda.elapsedWrapping
    elapsed := scheduler.agenda.elapsed
    queue := scheduler.agenda.units.map fun u => (u, scheduler.activationTime u)
    events := scheduler.world.extra.events.toList }

def step (pops slots : Nat) (c : Command) (s : Session σ) : Option (Step × Session σ) :=
  (s.clear.command pops slots c).map fun (answer, s) => (s.observe answer, s)

def steps (pops slots : Nat) : List Command → Session σ → Option (List Step × Session σ)
  | [], s => some ([], s)
  | c :: rest, s =>
    match s.step pops slots c with
    | none => none
    | some (step, s) => (steps pops slots rest s).map fun (all, s) => (step :: all, s)

def addUnits (pops : Nat) : List Op → Session σ → Option (Session σ)
  | [], s => some s
  | op :: rest, s =>
    match s.onScheduler pops (opProgram op) with
    | none => none
    | some (_, s) => addUnits pops rest s

/-- A script from its setup on: its steps and the lines of the journal, or why the machine could not
be built. -/
def play (pops slots : Nat) (setup : Setup) (units : List Op) (script : List Command) (media : σ) :
    Option (Except Status (List Step × List String)) :=
  match start pops setup media with
  | none => none
  | some (.error status) => some (.error status)
  | some (.ok s) =>
    match s.addUnits pops units with
    | none => none
    | some s =>
      (s.steps pops slots script).map fun (steps, s) =>
        .ok (steps, s.machine.scheduler.journal.lines)

end Session

end Peripheral
