import Peripheral.Machine.Build
import Peripheral.Proofs.Submission

/-!
# Programs that make calls of one kind

What a program may ask of the scheduler is a predicate on calls. All calls that it makes by itself meet the
predicate, and so do those of the callbacks that it installs. Transfers are asked of backends, and dispatches
may be asked for anywhere.

* `Program.Asks P` : such programs;
* `Scheduler.Upholds P` : what each step of such a program leaves standing, **so does the whole program** if
  dispatches from inside it do (`Asks.keeps`);
* `Call.Routine` : the calls that devices live on;
* `LineClock.action_asks`, `reset_asks`, `submit_asks`, `boot_asks`, `poll_asks`, `display_asks` : **the
  programs of devices make no others**;
* `Peripherals.install_asks` : installing them takes new units as well.
-/

namespace Peripheral

variable {σ ω : Type}

/-- All calls of the program itself and of all callbacks that it installs meet `P`. -/
inductive Program.Asks (P : Call → Prop) : Program ω → Prop
  | done (result : Result) : Asks P (.done result)
  | call {c : Call} {next : c.Answer → Program ω} :
    P c → (∀ answer, Asks P (next answer)) → Asks P (.call c next)
  | look {next : ω → Program ω} : (∀ w, Asks P (next w)) → Asks P (.look next)
  | change {f : ω → ω} {next : Program ω} : Asks P next → Asks P (.change f next)
  | setAction {u : UnitId} {action next : Program ω} :
    Asks P action → Asks P next → Asks P (.setAction u action next)
  | setHook {u : UnitId} {hook : Hook ω} {next : Program ω} : Asks P next → Asks P (.setHook u hook next)
  | submit {b : Backend} {u : UnitId} {request : Request} {done : Outcome → Program ω}
      {next : Result → Program ω} :
    (∀ outcome, Asks P (done outcome)) → (∀ result, Asks P (next result)) →
      Asks P (b.submit u request done next)
  | dispatch {next : Result → Program ω} :
    (∀ result, Asks P (next result)) → Asks P (.dispatch next)

section
variable [MediaStore σ] {P : Call → Prop} {I : Scheduler σ ω → Prop}
open Scheduler

/-- What each step of a program whose calls meet `P` leaves standing. -/
structure Scheduler.Upholds (P : Call → Prop) (I : Scheduler σ ω → Prop) : Prop where
  perform : ∀ s c, P c → I s → I (s.perform c).2
  change : ∀ s world, I s → I { s with world }
  setAction : ∀ s u p, p.Asks P → I s → I (s.modifySlot u fun slot => { slot with action := some p })
  setHook : ∀ s u hook, I s → I (s.modifySlot u fun slot => { slot with hook := some hook })
  transfer : ∀ s u sectorSize request, I s → I (s.transfer u sectorSize request).2
  defer : ∀ s u sectorSize latency request done, (∀ outcome, (done outcome).Asks P) → I s →
    I (s.defer u sectorSize latency request done)

/-- Programs leave standing what their steps do, if dispatches from inside them do. -/
theorem Program.Asks.keeps {p : Program ω} (asks : p.Asks P) (upholds : Upholds P I)
    {dispatch : Motion σ ω} (keeps : dispatch.Keeps I) : Motion.Keeps I (p.exec dispatch) := by
  -- A transfer is one step here although a backend makes several calls for it.
  induction asks with
  | done result =>
    rintro s here _ _ ⟨⟩
    exact here
  | call permitted _ ih =>
    exact fun s here result t ended => ih _ _ (upholds.perform s _ permitted here) result t ended
  | look _ ih => exact fun s here result t ended => ih s.world s here result t ended
  | @change f _ _ ih =>
    exact fun s here result t ended => ih _ (upholds.change s (f s.world) here) result t ended
  | @setAction u action _ meets _ _ ih =>
    exact fun s here result t ended => ih _ (upholds.setAction s u action meets here) result t ended
  | @setHook u hook _ _ ih =>
    exact fun s here result t ended => ih _ (upholds.setHook s u hook here) result t ended
  | @submit b u request done next completes _ ih ih' =>
    intro s here result t ended
    cases b with
    | immediate sectorSize =>
      rw [exec_submit_immediate] at ended
      have moved := upholds.transfer s u sectorSize request here
      split at ended
      · cases ended
      · rename_i completed
        exact ih' _ _ (ih _ _ moved _ _ completed) _ _ ended
    | deferred sectorSize latency =>
      rw [exec_submit_deferred] at ended
      split at ended
      · exact ih' _ s here _ _ ended
      · exact ih' _ _ (upholds.defer s u sectorSize latency request done completes here) _ _ ended
  | dispatch _ ih =>
    intro s here result t ended
    rw [Program.exec] at ended
    split at ended
    · cases ended
    · rename_i dispatched
      exact ih _ _ (keeps s here _ _ dispatched) _ _ ended

end

/-! ## Devices -/

def Call.Routine : Call → Prop
  | .activate _ _ | .cancel _ | .unit _ | .tell _ => True
  | _ => False

section
variable {κ ε : Type} {P : Call → Prop} (routine : ∀ c : Call, c.Routine → P c)
  {next : Result → Program (Board κ ε)}
include routine

namespace LineClock

theorem action_asks (c : LineClock) : (c.action : Program (Board κ ε)).Asks P :=
  .change (.call (routine _ trivial) fun _ => .done _)

theorem reset_asks (c : LineClock) : (c.reset .done : Program (Board κ ε)).Asks P := by
  refine .call (c := .cancel c.unit) (routine _ trivial) fun _ => .change ?_
  cases c.enabled with
  | true =>
    exact .call (c := .tell _) (routine _ trivial) fun _ =>
      .call (c := .activate _ _) (routine _ trivial) fun _ => .done _
  | false => exact .done _

end LineClock

namespace SectorDisk

theorem submit_asks (d : SectorDisk) (drive : UInt64) (request : Request)
    {done : Outcome → Program (Board κ ε)} (completes : ∀ outcome, (done outcome).Asks P)
    (rest : ∀ result, (next result).Asks P) : (d.submit drive request done next).Asks P := by
  unfold submit
  cases d.unit drive with
  | error status => exact rest _
  | ok u =>
    refine .call (c := .unit u) (routine _ trivial) fun unit => ?_
    dsimp only
    split
    · exact rest _
    · exact .call (c := .tell _) (routine _ trivial) fun _ =>
        .submit (fun outcome => .change (completes outcome)) rest

theorem reset_asks (d : SectorDisk) : (d.reset .done : Program (Board κ ε)).Asks P := by
  unfold reset
  generalize d.units = units
  induction units with
  | nil => exact .done _
  | cons u units ih =>
    refine .call (c := .cancel u) (routine _ trivial) fun _ =>
      .call (c := .unit u) (routine _ trivial) fun unit => ?_
    dsimp only
    split
    · exact .call (c := .activate u 0) (routine _ trivial) fun _ => ih
    · exact ih

theorem boot_asks (d : SectorDisk) (u : UnitId) : (d.boot u .done : Program (Board κ ε)).Asks P := by
  unfold boot
  cases d.units.idxOf? u with
  | none => exact .done _
  | some number =>
    refine .call (c := .tell _) (routine _ trivial) fun _ => .change
      (d.submit_asks routine _ _ (fun outcome => ?_) .done)
    unfold keepBootSector
    split
    · exact .done _
    · exact .change (.done _)

end SectorDisk

namespace Terminal

theorem reset_asks (t : Terminal) : (t.reset .done : Program (Board κ ε)).Asks P :=
  .call (c := .cancel _) (routine _ trivial) fun _ => .call (c := .cancel _) (routine _ trivial) fun _ =>
    .change <| .call (c := .activate _ _) (routine _ trivial) fun _ => .done _

variable [Console κ]

theorem display_asks (t : Terminal) : (t.display : Program (Board κ ε)).Asks P := by
  refine .look fun b => ?_
  split
  · exact .done _
  · refine .change ?_
    split
    · exact .done _
    · exact .call (routine _ trivial) fun _ => .done _

theorem poll_asks (t : Terminal) : (t.poll : Program (Board κ ε)).Asks P := by
  refine .call (routine _ trivial) fun _ => .look fun b => .change ?_
  split
  · exact .call (routine _ trivial) fun _ => .done _
  · exact .done _

end Terminal

theorem Peripherals.devices_ask {p : Peripherals} {r : Registry (Board κ ε)}
    (devices : r.devices = #[p.clock.device, p.disk.device, p.terminal.device]) :
    ∀ device ∈ r.devices.toList, device.reset.Asks P ∧ ∀ u, (device.boot u).Asks P := by
  intro device there
  rw [devices] at there
  simp only [List.mem_cons, List.not_mem_nil, or_false] at there
  rcases there with rfl | rfl | rfl
  · exact ⟨p.clock.reset_asks routine, fun _ => .done _⟩
  · exact ⟨p.disk.reset_asks routine, p.disk.boot_asks routine⟩
  · exact ⟨p.terminal.reset_asks routine, fun _ => .done _⟩

end

end Peripheral
