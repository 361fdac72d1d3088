import Peripheral.Proofs.Asking
import Peripheral.Proofs.Operating
import Peripheral.Proofs.Submission

/-!
# What endpoints and media keep

What is said of endpoints and media alone does not depend on time, on the queue or on callbacks. If calls of one
kind keep it, so does everything else that happens, as long as programs and callbacks make no other calls.

* `Scheduler.Static I` : `I` is about endpoints and media only;
* `Scheduler.Guards Q I` : `I` holds, and all callbacks meet `Q`. If running them keeps that, so do firings and
  dispatches (`fire_guards`, `processEvent_guards`);
* `Call.Internal` : the calls that dispatches, backends and machines make by themselves;
* `Scheduler.Endures P I` : such an `I` that calls meeting `P` keep;
* `Scheduler.Minds P I` : `I` holds, and callbacks make such calls only (`upholds_minds`, `custody_minds`);
* `processEvent_minds`, `Machine.run_minds` : **dispatches and runs keep it**.
-/

namespace Peripheral

variable {σ ω : Type} [MediaStore σ]

namespace Scheduler

/-! ## Callbacks of one kind over endpoints and media -/

def Static (I : Scheduler σ ω → Prop) : Prop :=
  ∀ s t : Scheduler σ ω, t.media = s.media → (∀ u, (t.slot u).endpoint = (s.slot u).endpoint) → I s → I t

structure Guards (Q : Program ω → Prop) (I : Scheduler σ ω → Prop) (s : Scheduler σ ω) : Prop where
  holds : I s
  carries : s.Carries Q

section
variable {Q : Program ω → Prop} {I : Scheduler σ ω → Prop} {s t : Scheduler σ ω} (static : Static I)
include static

omit [MediaStore σ] in
theorem Guards.of_slots (here : s.Guards Q I) (media : t.media = s.media) (slots : t.slots = s.slots) :
    t.Guards Q I :=
  ⟨static s t media (fun u => by rw [slot_of_slots slots]) here.holds, here.carries.of_slots slots⟩

omit [MediaStore σ] in
theorem Guards.modifySlot (here : s.Guards Q I) {u : UnitId} {f : Slot ω → Slot ω}
    (carries : (s.modifySlot u f).Carries Q) (endpoint : ∀ slot, (f slot).endpoint = slot.endpoint) :
    (s.modifySlot u f).Guards Q I :=
  ⟨static s _ rfl (fun v => field_modifySlot Slot.endpoint u v f s endpoint) here.holds, carries⟩

omit [MediaStore σ] in
theorem steady_guards : Steady (Guards Q I : Scheduler σ ω → Prop) where
  tell _ _ here := here.of_slots static rfl rfl
  stop _ _ here := here.of_slots static rfl rfl
  dispatching _ _ here := here.of_slots static rfl rfl
  settle _ here := here.of_slots static rfl rfl
  rearm _ here _ := here.of_slots static rfl rfl

theorem fire_guards {dispatch : Motion σ ω} (keeps : ∀ p, Q p → Motion.Keeps (Guards Q I) (p.exec dispatch))
    (u : UnitId) : Motion.Keeps (Guards Q I) (fire dispatch u) := by
  intro s here result t fired
  have steady := steady_guards (Q := Q) static
  cases fired_of_fire fired with
  | waits =>
    have told := steady.tell s (.requeueing (s.slot u).endpoint.name (s.slot u).delay) here
    have carries := told.carries.modifySlot (u := u) (f := fun slot => { slot with delay := 0 })
      fun _ slot => ⟨slot.action, slot.parked⟩
    have freed := told.modifySlot static carries fun _ => rfl
    refine ⟨static _ _ (media_activateAfter u _ _) (fun v => ?_) freed.holds,
      freed.carries.perform (.activateAfter u (s.slot u).delay)⟩
    rw [slot_activateAfter]
    split <;> rfl
  | @handsOver k _ _ _ parked ended =>
    have told := steady.tell s (.completing (s.slot u).endpoint.name) here
    exact keeps _ ((here.carries u).parked k parked k.outcome) _
      (told.modifySlot static (told.carries.takeParked u) fun _ => rfl) _ _ ended
  | rests => exact steady.tell _ _ here
  | @acts action _ last _ _ installed ended =>
    have meets := (here.carries u).action action installed
    have told := steady.tell s (.firing (s.slot u).endpoint.name) here
    have left : last.Guards Q I :=
      keeps action meets _ (told.modifySlot static (told.carries.takeAction u) fun _ => rfl) _ _ ended
    exact left.modifySlot static (left.carries.putBack u meets) fun _ => rfl

/-- What running any of the callbacks keeps, a dispatch keeps. -/
theorem processEvent_guards
    (keeps : ∀ dispatch : Motion σ ω, dispatch.Keeps (Guards Q I) →
      ∀ p, Q p → Motion.Keeps (Guards Q I) (p.exec dispatch)) (pops : Nat) :
    Motion.Keeps (Guards Q I) (processEvent pops : Motion σ ω) := by
  have steady := steady_guards (Q := Q) static
  refine process_keeps steady (fun _ => id) (fun s => steady.stop s false) steady.settle (drain_keeps steady ?_ pops)
  exact fun dispatch inner u agenda s here _ =>
    fire_guards static (keeps dispatch inner) u { s with agenda } (here.of_slots static rfl rfl)

end

end Scheduler

/-! ## Calls of one kind -/

/-- The calls that dispatches, backends and machines make by themselves. -/
def Call.Internal : Call → Prop
  | .consume _ | .activate _ _ | .activateAfter _ _ | .cancel _ | .transfer _ _ _ | .tell _ | .attach _ _
  | .detach _ => True
  | _ => False

namespace Scheduler

/-- `I` is about endpoints and media only, and calls that meet `P` keep it. -/
structure Endures (P : Call → Prop) (I : Scheduler σ ω → Prop) : Prop where
  permits : ∀ c : Call, c.Internal → P c
  perform : ∀ s c, P c → I s → I (s.perform c).2
  aside : ∀ s t : Scheduler σ ω, t.media = s.media →
    (∀ u, (t.slot u).endpoint = (s.slot u).endpoint) → I s → I t

/-- `I` holds, and all callbacks make calls that meet `P` only. -/
structure Minds (P : Call → Prop) (I : Scheduler σ ω → Prop) (s : Scheduler σ ω) : Prop where
  holds : I s
  asks : s.Carries (Program.Asks P)

variable {P : Call → Prop} {I : Scheduler σ ω → Prop} {s t : Scheduler σ ω} (endures : Endures P I)
include endures

theorem Minds.perform (here : s.Minds P I) {c : Call} (permitted : P c) : (s.perform c).2.Minds P I :=
  ⟨endures.perform s c permitted here.holds, here.asks.perform c⟩

omit [MediaStore σ] endures in
theorem minds_eq : Minds P I = (Guards (Program.Asks P) I : Scheduler σ ω → Prop) :=
  funext fun _ => propext ⟨fun here => ⟨here.holds, here.asks⟩, fun here => ⟨here.holds, here.carries⟩⟩

theorem Minds.of_slots (here : s.Minds P I) (media : t.media = s.media) (slots : t.slots = s.slots) :
    t.Minds P I := by
  rw [minds_eq] at here ⊢
  exact here.of_slots endures.aside media slots

theorem Minds.modifySlot (here : s.Minds P I) {u : UnitId} {f : Slot ω → Slot ω}
    (asks : (s.modifySlot u f).Carries (Program.Asks P))
    (endpoint : ∀ slot, (f slot).endpoint = slot.endpoint) : (s.modifySlot u f).Minds P I := by
  rw [minds_eq] at here ⊢
  exact here.modifySlot endures.aside asks endpoint

theorem Minds.defer (here : s.Minds P I) {done : Outcome → Program ω}
    (completes : ∀ outcome, (done outcome).Asks P) (u : UnitId) (sectorSize : UInt64) (latency : Float)
    (request : Request) : (s.defer u sectorSize latency request done).Minds P I := by
  have moved := (here.perform endures (endures.permits (.transfer u sectorSize request) trivial)).perform endures
    (endures.permits (.cancel u) trivial)
  have left := moved.modifySlot endures (moved.asks.park u (Ticks.nonnegative latency)
    (s.transfer u sectorSize request).1 completes) fun _ => rfl
  have told := left.perform endures (endures.permits (.tell (.deferred (s.nameOf u) latency)) trivial)
  exact told.perform endures (endures.permits (.activate u 0) trivial)

theorem upholds_minds : Upholds P (Minds P I) where
  perform _ _ permitted here := here.perform endures permitted
  change _ _ here := here.of_slots endures rfl rfl
  setAction _ u _ asks here := here.modifySlot endures (here.asks.setAction u asks) fun _ => rfl
  setHook _ _ _ here :=
    here.modifySlot endures (here.asks.modifySlot fun _ slot => ⟨slot.action, slot.parked⟩) fun _ => rfl
  transfer _ u sectorSize request here :=
    here.perform endures (endures.permits (.transfer u sectorSize request) trivial)
  defer _ u sectorSize latency request _ completes here :=
    here.defer endures completes u sectorSize latency request

theorem processEvent_minds (pops : Nat) : Motion.Keeps (Minds P I) (processEvent pops : Motion σ ω) := by
  have asks := fun (dispatch : Motion σ ω) (keeps : dispatch.Keeps (Minds P I)) (p : Program ω)
    (meets : p.Asks P) => meets.keeps (upholds_minds endures) keeps
  rw [minds_eq] at asks ⊢
  exact processEvent_guards endures.aside asks pops

theorem tick_minds (pops : Nat) : Motion.Keeps (Minds P I) (tick pops : Motion σ ω) :=
  tick_keeps (fun _ here => here.perform endures (endures.permits (.consume 1) trivial))
    (processEvent_minds endures pops)

theorem custody_minds : Custody (Minds P I) := by
  intro s c custodial here
  refine here.perform endures (endures.permits c ?_)
  cases c with
  | attach | detach | tell => trivial
  | _ => exact custodial.elim

end Scheduler

section
variable {P : Call → Prop} {I : Scheduler σ ω → Prop} (endures : Scheduler.Endures P I)
include endures
open Scheduler

theorem Program.Asks.run_minds {p : Program ω} (asks : p.Asks P) (pops : Nat) :
    Motion.Keeps (Minds P I) (p.run pops : Motion σ ω) :=
  asks.keeps (upholds_minds endures) (processEvent_minds endures pops)

theorem Machine.run_minds {m m' : Machine σ ω} {instruction : Program ω} {pops slots : Nat}
    {budget : Option Nat} {report : Except Status RunReport} (asks : instruction.Asks P)
    (here : m.scheduler.Minds P I)
    (ran : m.run pops slots instruction budget = some (report, m')) : m'.scheduler.Minds P I :=
  (run_keeps (custody_minds endures)
    (fun _ here => here.perform endures (endures.permits (.consume 1) trivial))
    (processEvent_minds endures pops) (asks.run_minds endures pops) here ran).1

end

end Peripheral
