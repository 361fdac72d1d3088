import Peripheral.CommandLine.Run

/-!
# The program

Reads the files that the arguments name, runs the machine against them, writes back those that
changed, and prints what the run told.
-/

namespace Peripheral.CommandLine

/-- The paths that a command line may touch: the description and the media it attaches. -/
def pathsOf (a : Arguments) (d : Except Status Description) : List String :=
  a.description.toList ++ a.attach.map AttachEntry.path ++
    match d with
    | .ok d => d.attach.map AttachEntry.path
    | .error _ => []

def load (fs : HostFiles) (path : String) : IO HostFiles :=
  try
    let data ← IO.FS.readBinFile path
    return (fs.makeWay path).install path data.data
  catch _ => return fs

def store (before after : HostFiles) (paths : List String) : IO Unit :=
  for path in paths do
    match before.contents? path, after.contents? path with
    | some old, some new => if old ≠ new then IO.FS.writeBinFile path ⟨new⟩
    | _, _ => pure ()

/-- Ticks and pops that a run without a budget may take. -/
def patience : Nat := Nat.pow 2 62

/-- Run the program on the files of the host. -/
def runHost (words : List String) : IO UInt32 := do
  let empty := HostFiles.empty none
  let some a := Arguments.read? words | return 2
  let described ← a.description.toList.foldlM load empty
  let paths := pathsOf a (describe a described)
  let fs ← paths.foldlM load described
  match run patience patience words fs with
  | none => return 1
  | some t =>
    store fs t.files paths
    (← IO.getStdout).write ⟨t.stdout⟩
    for line in t.stderr do IO.eprintln line
    return UInt32.ofNat t.exit

end Peripheral.CommandLine

def main (args : List String) : IO UInt32 := Peripheral.CommandLine.runHost args
