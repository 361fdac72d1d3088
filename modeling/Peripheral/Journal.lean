import Peripheral.Status

/-!
# The journal

What happens is told in messages of four levels. A journal keeps the messages of its threshold and
above, in order.

* `Message` : what is told, `Message.level`, `Message.text`;
* `Journal.record` : add a message;
* `Journal.lines` : the messages as text, each after the word for its level;
* `Journal.printed` : the same broken into lines for print.
-/

namespace Peripheral

/-- How much a message matters, the most urgent level first. -/
inductive Level where
  | error
  | warn
  | info
  | debug
deriving DecidableEq, Repr, Inhabited

def Level.word : Level → String
  | .error => "ERROR"
  | .warn => "WARN"
  | .info => "INFO"
  | .debug => "DEBUG"

def Level.rank : Level → Nat
  | .error => 0
  | .warn => 1
  | .info => 2
  | .debug => 3

/-- What the journal can tell. -/
inductive Message where
  -- scheduling
  | activating (unit : String) (ticks : Int32)
  | canceling (unit : String)
  | queueEmpty (interval : Int32)
  | drained (interval : Int32) (next : Option String)
  | requeueing (unit : String) (usecs : Float)
  | completing (unit : String)
  | firing (unit : String)
  | anomaly (unit : String) (status : Status)
  -- media
  | buffering (unit : String)
  | writingBack (unit : String)
  | mediaFailure (unit : String) (status : Status)
  | deferred (unit : String) (usecs : Float)
  -- devices
  | alreadyRegistered (device : String)
  | registered (device : String) (units : Nat)
  | clockPeriod (period : Int32)
  | diskRead (unit : String) (lba : UInt64) (sectors : UInt32)
  | diskWrite (unit : String) (lba : UInt64) (bytes : Nat)
  | booting (drive : Nat)
  | interruptCharacter
  -- machine
  | attached (unit : String) (name : String)
  | detachFailure (unit : String) (status : Status)
  | runStopped (ticks : Nat) (status : Status)
  | shutdownFailure (status : Status)
  | runEnded (summary : String)
deriving DecidableEq, Repr, Inhabited

namespace Message

def level : Message → Level
  | .anomaly _ _ => .error
  | .mediaFailure _ _ | .detachFailure _ _ | .shutdownFailure _ => .warn
  | .buffering _ | .writingBack _ | .booting _ | .attached _ _ | .runEnded _ => .info
  | _ => .debug

def text : Message → String
  | .activating unit ticks => s!"Activating {unit} delay={ticks}"
  | .canceling unit => "Canceling event for " ++ unit
  | .queueEmpty interval => s!"Queue empty, new interval = {interval}"
  | .drained interval none => s!"Processing queue complete, new interval = {interval}"
  | .drained interval (some next) =>
    s!"Processing queue complete, new interval = {interval} ({next})"
  | .requeueing unit usecs => "Requeueing " ++ unit ++ " after " ++ Decimal.whole usecs ++ " usecs"
  | .completing unit => "Completing I/O for " ++ unit
  | .firing unit => "Processing event for " ++ unit
  | .anomaly unit status =>
    "Unexpected internal error while processing event for " ++ unit ++ " which returned " ++
      toString status.code ++ " - " ++ status.message
  | .buffering unit => unit ++ ": buffering file in memory"
  | .writingBack unit => unit ++ ": writing buffer to file"
  | .mediaFailure unit status => unit ++ ": I/O error - " ++ status.message
  | .deferred unit usecs => unit ++ ": completion deferred " ++ Decimal.whole usecs ++ " usecs"
  | .alreadyRegistered device => device ++ " already registered"
  | .registered device units => s!"Registered {device} with {units} units"
  | .clockPeriod period => s!"CLK: period {period} ticks"
  | .diskRead unit lba sectors => s!"{unit}: read lba={lba} sectors={sectors}"
  | .diskWrite unit lba bytes => s!"{unit}: write lba={lba} bytes={bytes}"
  | .booting drive => s!"Booting from DK{drive}"
  | .interruptCharacter => "TTI: interrupt character"
  | .attached unit name => unit ++ " attached to " ++ name
  | .detachFailure unit status => unit ++ ": detach failed - " ++ status.message
  | .runStopped ticks status => s!"Simulation stopped after {ticks} ticks: " ++ status.message
  | .shutdownFailure status => "Detach failed: " ++ status.message
  | .runEnded summary => "Simulation ended: " ++ summary

def line (m : Message) : String := m.level.word ++ " " ++ m.text

/-- A message in print: the lines of its text after the first are indented. -/
def printed (m : Message) : List String :=
  match m.line.splitOn "\n" with
  | [] => []
  | first :: rest => first :: rest.map ("    " ++ ·)

end Message

/-- The messages kept so far. Without a threshold none is kept. -/
structure Journal where
  threshold : Option Level
  messages : Array Message
deriving Repr, Inhabited

namespace Journal

def empty (threshold : Option Level) : Journal := ⟨threshold, #[]⟩

def keeps (j : Journal) (level : Level) : Bool :=
  match j.threshold with
  | none => false
  | some threshold => level.rank ≤ threshold.rank

def record (m : Message) (j : Journal) : Journal :=
  if j.keeps m.level then { j with messages := j.messages.push m } else j

def recordAll (ms : List Message) (j : Journal) : Journal := ms.foldl (fun j m => j.record m) j

def lines (j : Journal) : List String := j.messages.toList.map Message.line

def printed (j : Journal) : List String := j.messages.toList.flatMap Message.printed

end Journal

end Peripheral
