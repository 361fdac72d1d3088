import Peripheral.Simulation.Program

/-!
# Backends

A backend carries out a transfer and sees to it that its completion runs once, after the data has
moved: at once, or after a delay, with one transfer per unit in flight.
-/

namespace Peripheral

/-- How transfers complete. -/
inductive Backend where
  /-- Before the request returns. -/
  | immediate (sectorSize : UInt64)
  /-- After a latency in microseconds. The data moves when the transfer is asked for. -/
  | deferred (sectorSize : UInt64) (latency : Float)
deriving DecidableEq, Repr, Inhabited

namespace Backend

variable {ω : Type}

/-- Ask for a transfer on a unit; `done` is run on its outcome. -/
def submit (b : Backend) (u : UnitId) (request : Request) (done : Outcome → Program ω) :
    Act ω Result :=
  match b with
  | .immediate sectorSize => do
    let outcome ← Act.perform (.transfer u sectorSize request)
    Act.inline (done outcome)
  | .deferred sectorSize latency => do
    let unit ← Act.perform (.unit u)
    if unit.ioPending then
      return .error (.internal (.transferInFlight unit.endpoint.name))
    else
      let outcome ← Act.perform (.transfer u sectorSize request)
      Act.perform (.cancel u)
      Act.park u (Ticks.nonnegative latency) outcome done
      Act.perform (.tell (.deferred unit.endpoint.name latency))
      let _ ← Act.perform (.activate u 0)
      return .ok ()

end Backend

end Peripheral
