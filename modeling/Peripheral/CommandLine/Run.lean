import Peripheral.CommandLine.Arguments
import Peripheral.Description.Reader
import Peripheral.Machine.Build
import Peripheral.Storage.HostFiles

/-!
# The command line program

A machine is described, equipped and run with a processor that echoes what is typed; at the end all
media are detached.

* `CommandLine.describe` : the description that arguments ask for;
* `CommandLine.run` : the whole program against the files of a directory.
-/

namespace Peripheral.CommandLine

structure Transcript where
  exit : Nat
  stdout : Bytes := #[]
  /-- The lines on standard error. -/
  stderr : List String := []
  files : HostFiles
deriving Inhabited

/-- The description that arguments ask for; they go before what a file says. -/
def describe (a : Arguments) (fs : HostFiles) : Except Status Description := do
  let d ← match a.description with
    | none => pure ({} : Description)
    | some path => Description.ofText (← fs.readText path)
  let d := { d with
    attach := d.attach ++ a.attach
    runTicks := a.ticks.or d.runTicks
    boot := a.boot.or d.boot }
  d.validate
  return d

/-- How a run ended, for a reader of the journal. -/
def summary (r : RunReport) : String :=
  let reason := match r.reason with
    | .tickLimit => "TickLimit"
    | .stopped status => "Stopped(" ++ Text.quoted status.message ++ ")"
  reason ++ " after " ++ toString r.ticks ++ " ticks (simulated time " ++
    Decimal.plain r.elapsed ++ ")"

def failureLines (status : Status) : List String :=
  "" :: ("Error: " ++ status.message ++ " (status " ++ toString status.code ++ ")").splitOn "\n"

def conclude {κ : Type} (result : Except Status RunReport)
    (m : Machine HostFiles (Board κ Unit)) (shown : κ → Bytes) : Transcript :=
  let s := m.scheduler
  let stdout := shown s.world.console
  match result with
  | .ok report =>
    { exit := 0, stdout, files := s.media
      stderr := (s.tell (.runEnded (summary report))).journal.printed }
  | .error status =>
    { exit := 0, stdout, files := s.media, stderr := s.journal.printed ++ failureLines status }

/-- Run a built machine until it stops, and detach all media. -/
def operate (pops slots : Nat) (d : Description) (p : Peripherals)
    (m : Machine HostFiles (Board KeyChannel Unit)) : Option Transcript :=
  match m.run pops slots (p.terminal.echo .done) (d.runTicks.map UInt64.toNat) with
  | none => none
  | some (result, m) =>
    match m.detachAll with
    | (.ok (), m) => some (conclude result m KeyChannel.shown)
    | (.error status, m) =>
      let m := { m with scheduler := m.scheduler.tell (.shutdownFailure status) }
      some (conclude result m KeyChannel.shown)

/-- Run the program. Refused arguments exit with 2, a description that cannot be used with 1. There
is no answer if the machine does not stop within `slots` ticks. -/
def run (pops slots : Nat) (words : List String) (fs : HostFiles) : Option Transcript :=
  match Arguments.read? words with
  | none => some { exit := 2, files := fs }
  | some a =>
    match describe a fs with
    | .error status =>
      let stderr := match a.description with
        | none => []
        | some path => ("Failed to load " ++ path ++ ": " ++ status.message).splitOn "\n"
      some { exit := 1, stderr, files := fs }
    | .ok d =>
      let journal := Journal.empty (some (if a.trace then .debug else .info))
      match Machine.build pops d fs KeyChannel.empty () journal with
      | none => none
      | some (.error status, m) => some (conclude (.error status) m KeyChannel.shown)
      | some (.ok p, m) => operate pops slots d p m

end Peripheral.CommandLine
