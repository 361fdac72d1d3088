import Peripheral.Board.Basic
import Peripheral.Description.Basic

/-!
# The line-time clock

A clock fires a number of times per simulated second and counts how often it did.
-/

namespace Peripheral

/-- A clock: its record on the board, its unit, and the ticks between interrupts. -/
structure LineClock where
  record : Nat
  unit : UnitId
  period : Int32
  enabled : Bool
deriving DecidableEq, Repr, Inhabited

namespace LineClock

variable {κ ε : Type}

/-- Ticks between interrupts: at least one, and no more than a tick count can tell. -/
def periodOf (tickRate : Float) (hz : UInt32) : Int32 :=
  let period := tickRate / Float.ofNat (max hz 1).toNat
  if period < 1 then 1
  else if Ticks.toFloat Ticks.top < period then Ticks.top
  else Ticks.ofFloat period

/-- What the clock does when it fires: count, and fire again a period later. -/
def action (c : LineClock) : Program (Board κ ε) :=
  .change (fun b => b.modifyClock c.record (· + 1)) <|
  .call (.activate c.unit c.period) fun _ => .done (.ok ())

def plan (settings : ClockSettings) (tickRate : Float) (record : Nat) (unit : UnitId) :
    LineClock :=
  { record, unit, period := periodOf tickRate settings.hz, enabled := settings.enabled }

def install (c : LineClock) : Act (Board κ ε) Unit := do
  Act.change Board.addClock
  let unit ← Act.perform (.addUnit { name := "CLK" })
  Act.setAction unit c.action

/-- Start counting anew; an enabled clock is due a period from now. -/
def reset (c : LineClock) : Act (Board κ ε) Result := do
  Act.perform (.cancel c.unit)
  Act.change fun b => b.modifyClock c.record fun _ => 0
  if c.enabled then
    Act.perform (.tell (.clockPeriod c.period))
    let _ ← Act.perform (.activate c.unit c.period)
  return .ok ()

end LineClock

end Peripheral
