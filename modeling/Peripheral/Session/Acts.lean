import Peripheral.Session.Script

/-!
# What operations do

Every operation is a task on the scheduler that gives an answer. A list of operations is run one
after the other, and each answer is shown as an event.

* `Op.task` : what an operation does;
* `actsOf` : a list of operations as the body of a callback;
* `actionProgram`, `completion` : scripted callbacks.
-/

namespace Peripheral.Session

/-! ## The bench -/

def onBench (f : Bench → Bench) (w : World) : World := { w with extra := f w.extra }

def withEvent (e : Event) (b : Bench) : Bench := { b with events := b.events.push e }

def emit (e : Event) : Act World Unit := Act.change (onBench (withEvent e))

def newCounter : Act World Nat :=
  Act.update fun w =>
    (w.extra.counters.size, onBench (fun b => { b with counters := b.counters.push 0 }) w)

def countRun (c : Nat) (b : Bench) : Nat × Bench :=
  (b.counters.getD c 0, { b with counters := b.counters.modify c (· + 1) })

/-- The n-th of a list, the last one repeating. -/
def nth {α : Type} (n : Nat) (xs : List α) : Option α := xs[min n (xs.length - 1)]?

def answering {α : Type} (m : Act World α) (answer : α → Answer) : Task World Answer :=
  ExceptT.lift (do return answer (← m))

def doing (m : Act World Unit) : Task World Answer := answering m fun _ => .ok

/-! ## Callbacks -/

/-- The program of an action that runs the n-th body the n-th time. -/
def actionProgram (u : UnitId) (counter : Nat) (bodies : List (Task World Unit)) :
    Program World :=
  .look fun w =>
  let n := w.extra.counters.getD counter 0
  .change (onBench fun b => withEvent (.fire u) (countRun counter b).2) <|
  ((nth n bodies).getD (return ())).program

/-- A hook that gives the n-th answer the n-th time. -/
def hookOf (u : UnitId) (counter : Nat) (answers : List Bool) : Hook World := fun w =>
  let (n, bench) := countRun counter w.extra
  let swallowed := (nth n answers).getD false
  (swallowed, { w with extra := withEvent (.hook u swallowed) bench })

/-- A completion that runs a body and passes the status on, or ends well. -/
def completion (u : UnitId) (body : Task World Unit) (passStatus : Bool) (outcome : Outcome) :
    Program World :=
  Task.program do
    ExceptT.lift (emit (.io u outcome))
    body
    if passStatus then liftM outcome.status

def giveAction (u : UnitId) (bodies : List (Task World Unit)) : Act World Unit := do
  if !bodies.isEmpty then
    let counter ← newCounter
    Act.setAction u (actionProgram u counter bodies)

def giveHook (u : UnitId) (answers : List Bool) : Act World Unit := do
  if !answers.isEmpty then
    let counter ← newCounter
    Act.setHook u (hookOf u counter answers)

/-! ## Single operations -/

def tickTimes : Nat → Nat → Act World (Nat × Result)
  | 0, done => return (done, .ok ())
  | count + 1, done => do
    match ← Act.tick with
    | .ok () => tickTimes count (done + 1)
    | .error status => return (done, .error status)

/-- A reading of a medium into a buffer that holds other bytes before. -/
def readingOf (count : Nat) (data : Bytes) : Reading :=
  ⟨data.size, data ++ Array.replicate (count - data.size) 0xEE⟩

def linkText : Option Link → String
  | none => "None"
  | some .last => "Some(End)"
  | some (.next u) => "Some(Next(UnitId(" ++ toString u ++ ")))"

def unitText (u : UnitId) (view : UnitView) (agenda : Agenda) : String :=
  let medium := match view.endpoint.mediumName? with
    | none => "None"
    | some name => "Some(" ++ Text.quoted name ++ ")"
  "Unit \x7b name: " ++ Text.quoted view.endpoint.name ++
    ", time: " ++ toString (agenda.offsetOf u) ++ ", next: " ++ linkText (agenda.link? u) ++
    ", attached: " ++ medium ++ ", capacity: " ++ toString view.endpoint.capacity ++ " \x7d"

def bufferAnswer (view : UnitView) : Answer :=
  match view.endpoint.attachment with
  | none => .text "detached"
  | some a =>
    match a.buffer with
    | none => .text "unbuffered"
    | some b => .buffer b

def handleOf (h : Nat) : Act World Handle := do return (← Act.world).extra.handles.getD h default

def backendOf (n : Nat) : Act World Backend := do
  return (← Act.world).extra.backends.getD n default

def diskOf (k : Nat) : Act World SectorDisk := do return (← Act.world).extra.disks.getD k default

def terminalOf (t : Nat) : Act World Terminal := do
  return (← Act.world).extra.terminals.getD t default

def partOf (d : Nat) : Act World Part := do return (← Act.world).extra.parts.getD d default

def Part.info : Part → String × List UnitId
  | .clock c => ("CLK", [c.unit])
  | .disk d => ("DK", d.units)
  | .terminal t => ("TT", [t.keyboard, t.printer])

def Part.reset : Part → Act World Result
  | .clock c => c.reset
  | .disk d => d.reset
  | .terminal t => t.reset

def Part.boot (u : UnitId) : Part → Act World Result
  | .disk d => d.boot u
  | _ => return .error .noFunction

def Part.bootSector (w : World) : Part → Option Bytes
  | .disk d => (w.disk d.record).bootSector
  | _ => none

def newClock (settings : ClockSettings) : Act World Answer := do
  let rate ← Act.perform .rate
  let unit ← Act.perform .unitCount
  let w ← Act.world
  let clock := LineClock.plan settings rate w.clocks.size unit
  clock.install
  Act.change (onBench fun b =>
    { b with parts := b.parts.push (.clock clock), clocks := b.clocks.push clock })
  return .clock w.extra.parts.size w.extra.clocks.size clock.period

def newDisk (settings : DiskSettings) : Act World Answer := do
  let first ← Act.perform .unitCount
  let w ← Act.world
  let disk := SectorDisk.plan settings w.disks.size first
  SectorDisk.install settings
  Act.change (onBench fun b =>
    { b with parts := b.parts.push (.disk disk), disks := b.disks.push disk })
  return .disk w.extra.parts.size w.extra.disks.size

def newTerminal (settings : TerminalSettings) : Act World Answer := do
  let first ← Act.perform .unitCount
  let w ← Act.world
  let terminal := Terminal.plan settings w.terminals.size first
  terminal.install
  Act.change (onBench fun b =>
    { b with parts := b.parts.push (.terminal terminal), terminals := b.terminals.push terminal })
  return .terminal w.extra.parts.size w.extra.terminals.size

/-- Ask a disk for a transfer; `body` is run when it completes. -/
def diskSubmit (k : Nat) (drive : UInt64) (request : Request) (body : Task World Unit)
    (passStatus : Bool) : Act World Result := do
  let disk ← diskOf k
  let u := match disk.unit drive with
    | .ok u => u
    | .error _ => 0
  disk.submit drive request (completion u body passStatus)

/-! ## All operations -/

mutual

/-- What an operation does. -/
def Op.task : Op → Task World Answer
  | .add endpoint action hook =>
    answering (do
      let u ← Act.perform (.addUnit endpoint)
      giveAction u (bodiesOf action)
      giveHook u hook
      return u) fun u => .number u
  | .setAction u action => doing (giveAction u (bodiesOf action))
  | .setHook u hook => doing (giveHook u hook)
  | .fail status => throw status
  | .activate u ticks => answering (Act.perform (.activate u ticks)) .activation
  | .activateAbs u ticks => answering (Act.activateAbs u ticks) .activation
  | .notBefore u target => answering (Act.activateNotBefore u target) .activation
  | .after u usecs => answering (Act.perform (.activateAfter u usecs)) .activation
  | .afterAbs u usecs => answering (Act.activateAfterAbs u usecs) .activation
  | .cancel u => doing (Act.perform (.cancel u))
  | .isActive u => answering (Act.perform .agenda) fun a => .flag (a.isActive u)
  | .ioPending u => answering (Act.perform (.unit u)) fun v => .flag v.ioPending
  | .time u => answering (Act.perform (.activationTime u)) fun t => .number t.toInt
  | .usecs u => answering (Act.perform (.activationUsecs u)) .real
  | .delay u => answering (Act.perform (.unit u)) fun v => .real v.delay
  | .consume ticks => doing (Act.perform (.consume ticks))
  | .tick count => answering (tickTimes count 0) fun r => .ticks r.1 r.2
  | .process => answering Act.dispatch .ofResult
  | .stop => doing (Act.perform .requestStop)
  | .stopRequested => answering (Act.perform .stopRequested) .flag
  | .takeStop => answering (Act.perform .takeStop) .flag
  | .clock =>
    answering (do
      let a ← Act.perform .agenda
      let dispatching ← Act.perform .dispatching
      let rate ← Act.perform .rate
      return Answer.time a.interval a.elapsed a.elapsedWrapping dispatching rate) id
  | .counts =>
    answering (do
      let a ← Act.perform .agenda
      return Answer.counts (← Act.perform .unitCount) a.queue.length) id
  | .unit u => answering (Act.perform (.unit u)) .unit
  | .describe u =>
    answering (do
      let a ← Act.perform .agenda
      return Answer.text (unitText u (← Act.perform (.unit u)) a)) id
  | .setPosition u offset => doing (Act.perform (.setPosition u offset))
  | .setCapacity u bytes => doing (Act.perform (.setCapacity u bytes))
  | .attach u name => answering (Act.perform (.attach u name)) .ofResult
  | .detach u => answering (Act.perform (.detach u)) .ofResult
  | .read u offset count =>
    answering (Act.perform (.read u offset count)) (.ofExcept .reading)
  | .write u offset data => answering (Act.perform (.write u offset data)) .ofResult
  | .buffer u => answering (Act.perform (.unit u)) bufferAnswer
  | .transfer u sectorSize request =>
    answering (Act.perform (.transfer u sectorSize request)) .outcome
  | .image name => answering (Act.perform (.contents name)) .bytes
  | .addImage name data => doing (Act.perform (.install name data))
  | .writes name => answering (Act.perform (.writeCount name)) .count
  | .openMedium name readOnly =>
    answering (do
      match ← Act.perform (.openMedium name readOnly) with
      | .error status => return Answer.failed status
      | .ok handle =>
        let w ← Act.world
        Act.change (onBench fun b => { b with handles := b.handles.push handle })
        return Answer.number w.extra.handles.size) id
  | .mediumLength h =>
    answering (do Act.perform (.mediumLength (← handleOf h))) (.ofExcept fun n => .number n)
  | .mediumEmpty h =>
    answering (do Act.perform (.mediumLength (← handleOf h))) (.ofExcept fun n => .flag (n == 0))
  | .mediumFlush h => answering (do Act.perform (.flushMedium (← handleOf h))) .ofResult
  | .mediumRead h offset count =>
    answering (do Act.perform (.readMedium (← handleOf h) offset count))
      (.ofExcept fun data => .reading (readingOf count data))
  | .mediumWrite h offset data =>
    answering (do Act.perform (.writeMedium (← handleOf h) offset data)) .ofResult
  | .newBackend backend =>
    answering (Act.update fun w =>
      (w.extra.backends.size, onBench (fun b => { b with backends := b.backends.push backend }) w))
      fun n => .number n
  | .submit n u request acts passStatus =>
    answering (do
      let backend ← backendOf n
      backend.submit u request (completion u (actsOf acts) passStatus)) .ofResult
  | .type keys => doing (Act.change fun w => { w with console := w.console.queueInput keys })
  | .key =>
    answering (Act.update fun w =>
      let (key, console) := Console.getKey w.console
      (key, { w with console })) .byte
  | .display bytes =>
    doing (Act.change fun w =>
      { w with console := bytes.foldl (fun c byte => Console.write byte c) w.console })
  | .output => answering Act.world fun w => .output w.console.output w.console.outputText
  | .newClock settings => answering (newClock settings) id
  | .newDisk settings => answering (newDisk settings) id
  | .newTerminal settings => answering (newTerminal settings) id
  | .deviceInfo d => answering (partOf d) fun p => .deviceInfo p.info.1 p.info.2
  | .deviceReset d => answering (do (← partOf d).reset) .ofResult
  | .deviceBoot d u => answering (do (← partOf d).boot u) .ofResult
  | .deviceAttach _ u name => answering (Act.perform (.attach u name)) .ofResult
  | .deviceDetach _ u => answering (Act.perform (.detach u)) .ofResult
  | .bootSector d => answering (do return (← partOf d).bootSector (← Act.world)) .bytes
  | .clockCount c =>
    answering (do
      let w ← Act.world
      return w.clock (w.extra.clocks.getD c default).record) fun n => .number n
  | .diskSubmit k drive request acts passStatus =>
    answering (diskSubmit k drive request (actsOf acts) passStatus) .ofResult
  | .diskStats k =>
    answering (do
      let disk ← diskOf k
      return Answer.stats disk.sectorSize ((← Act.world).disk disk.record)) id
  | .diskUnit k drive =>
    answering (do return (← diskOf k).unit drive) (.ofExcept fun (u : Nat) => .number u)
  | .getChar t => answering (do (← terminalOf t).readChar) .byte
  | .putChars t bytes => doing (do (← terminalOf t).putChars bytes)
  | .busy t => answering (do return (← terminalOf t).isBusy (← Act.world)) .flag

def actsOf : List Op → Task World Unit
  | [] => return ()
  | op :: rest => do
    let answer ← op.task
    ExceptT.lift (emit (.act answer))
    actsOf rest

/-- Bodies of a callback, one for each time it is run. -/
def bodiesOf : List (List Op) → List (Task World Unit)
  | [] => []
  | acts :: rest => actsOf acts :: bodiesOf rest

end

end Peripheral.Session
