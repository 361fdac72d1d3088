import Peripheral.Board.Basic
import Peripheral.Description.Basic

/-!
# The console terminal

A terminal has two units. TTI looks at the keyboard now and then and takes all keys typed; the
interrupt character among them stops the simulation and leaves the keys after it. TTO displays the
characters put to it one at a time.

* `Terminal.readChar`, `Terminal.putChar` : what a processor does with a terminal;
* `Terminal.poll`, `Terminal.display` : what the two units do when they fire.
-/

namespace Peripheral

/-- A terminal: its record on the board, its two units and their pace. -/
structure Terminal where
  record : Nat
  keyboard : UnitId
  printer : UnitId
  pollTicks : Int32
  outputTicks : Int32
deriving DecidableEq, Repr, Inhabited

namespace Terminal

variable {κ ε : Type}

/-- Typing this key stops the simulation. -/
def interruptChar : UInt8 := 0x05

def modify (f : TerminalRecord → TerminalRecord) (t : Terminal) (b : Board κ ε) : Board κ ε :=
  b.modifyTerminal t.record f

def readChar (t : Terminal) : Act (Board κ ε) (Option UInt8) :=
  Act.update fun b =>
    let (byte, input) := takeKey (b.terminal t.record).input
    (byte, t.modify (fun r => { r with input }) b)

def putChar (byte : UInt8) (t : Terminal) : Act (Board κ ε) Unit := do
  Act.change (t.modify fun r => { r with output := r.output ++ [byte] })
  let _ ← Act.perform (.activate t.printer t.outputTicks)
  return ()

def putChars (t : Terminal) : List UInt8 → Act (Board κ ε) Unit
  | [] => return ()
  | byte :: rest => do
    t.putChar byte
    t.putChars rest

def isBusy (t : Terminal) (b : Board κ ε) : Bool := !(b.terminal t.record).output.isEmpty

/-! ## What the units do -/

def display [Console κ] (t : Terminal) : Program (Board κ ε) :=
  .look fun b =>
  match (b.terminal t.record).output with
  | [] => .done (.ok ())
  | byte :: rest =>
    .change (fun b => { t.modify (fun r => { r with output := rest }) b with
      console := Console.write byte b.console }) <|
    if rest.isEmpty then .done (.ok ())
    else .call (.activate t.printer t.outputTicks) fun _ => .done (.ok ())

/-- Keys taken from a console: those up to the interrupt character, whether that was met, and the
console afterwards. At most `fuel` keys are taken. -/
def takeKeys [Console κ] : Nat → κ → List UInt8 × Bool × κ
  | 0, console => ([], false, console)
  | fuel + 1, console =>
    match Console.getKey console with
    | (none, console) => ([], false, console)
    | (some key, console) =>
      if key = interruptChar then ([], true, console)
      else
        let (keys, interrupted, console) := takeKeys fuel console
        (key :: keys, interrupted, console)

/-- Comes back after the poll time, and takes all keys typed. -/
def poll [Console κ] (t : Terminal) : Program (Board κ ε) :=
  .call (.activate t.keyboard t.pollTicks) fun _ =>
  .look fun b =>
  let (keys, interrupted, console) := takeKeys (Console.waiting b.console) b.console
  .change (fun b => { t.modify (fun r => { r with input := r.input ++ keys }) b with console }) <|
  if interrupted then .call (.tell .interruptCharacter) fun _ => .done (.error .stopped)
  else .done (.ok ())

def plan (settings : TerminalSettings) (record : Nat) (first : UnitId) : Terminal :=
  { record, keyboard := first, printer := first + 1, pollTicks := settings.pollTicks
    outputTicks := settings.outputTicks }

def install [Console κ] (t : Terminal) : Act (Board κ ε) Unit := do
  Act.change Board.addTerminal
  let keyboard ← Act.perform (.addUnit { name := "TTI" })
  Act.setAction keyboard t.poll
  let printer ← Act.perform (.addUnit { name := "TTO" })
  Act.setAction printer t.display

/-- Forget all characters and look at the keyboard a poll time from now. -/
def reset (t : Terminal) : Act (Board κ ε) Result := do
  Act.perform (.cancel t.keyboard)
  Act.perform (.cancel t.printer)
  Act.change (t.modify fun _ => {})
  let _ ← Act.perform (.activate t.keyboard t.pollTicks)
  return .ok ()

/-- Give every character typed back to the display, a return with a line feed after it. -/
def echo (t : Terminal) : Act (Board κ ε) Result := do
  match ← t.readChar with
  | none => return .ok ()
  | some byte =>
    t.putChars (if byte = 0x0D then [byte, 0x0A] else [byte])
    return .ok ()

end Terminal

end Peripheral
