import Peripheral.Proofs.Assembly
import Peripheral.Proofs.Rounds
import Peripheral.Proofs.Submission
import Peripheral.Storage.MemoryImages

/-!
# What the units are set to do

An action is out of its unit while it runs. Meanwhile the unit may be given another one, also by a
dispatch from inside the action that fires the unit again, and the action may fail or ask for a stop. The
installations of a motion are the actions that it gives to units, in order and at any depth.

* `Installation`, `givenTo` : an action that is given to a unit; those that one unit is given;
* `Program.installations`, `Firing.installations`, `Scheduler.processInstallations`,
  `drainInstallations` : the installations of the motions; `Program.runInstallations` : those of a run;
* `Scheduler.Refitted` : every unit has the latest action that it was given, or else the one that it had
  before (`Refitted.trans`, `Refitted.putBack`, `refitted_perform`);
* `Motion.RefitsBy` : units are refitted by the installations of the motion (`exec_refitsBy`,
  `refitted_fire`, `drain_refitsBy`, `run_refitsBy`);
* `Scheduler.Equipped` : the schedulers that come up outside of callbacks, with the installations so far;
* `no_unit_loses_its_action` : **a unit has an action if and only if it was given one, and every firing
  leaves it with the latest that it was given meanwhile, or else with the one that it had**.
-/

namespace Peripheral

variable {σ ω : Type}

structure Installation (ω : Type) where
  unit : UnitId
  action : Program ω

def givenTo (u : UnitId) (log : List (Installation ω)) : List (Program ω) :=
  log.filterMap fun i => if i.unit = u then some i.action else none

/-- Installations, in order, for each scheduler to start from. -/
abbrev Installations (σ ω : Type) := Scheduler σ ω → List (Installation ω)

theorem givenTo_append (u : UnitId) (log more : List (Installation ω)) :
    givenTo u (log ++ more) = givenTo u log ++ givenTo u more := List.filterMap_append

theorem givenTo_ne_nil {u : UnitId} {log : List (Installation ω)} :
    givenTo u log ≠ [] ↔ ∃ i ∈ log, i.unit = u := by
  simp [givenTo, List.filterMap_eq_nil_iff]

/-! ## Installations of motions -/

section
variable [MediaStore σ]

/-- The installations of a program; `within` are those of a dispatch from inside it. There is nothing to
install on a unit that does not exist. -/
def Program.installations (dispatch : Motion σ ω) (within : Installations σ ω) :
    Program ω → Installations σ ω
  | .done _, _ => []
  | .call c next, s =>
    let (answer, t) := s.perform c
    (next answer).installations dispatch within t
  | .look next, s => (next s.world).installations dispatch within s
  | .change f next, s => next.installations dispatch within { s with world := f s.world }
  | .setAction u action next, s =>
    (if u < s.slots.size then [⟨u, action⟩] else []) ++
      next.installations dispatch within (s.modifySlot u fun slot => { slot with action := some action })
  | .setHook u hook next, s =>
    next.installations dispatch within (s.modifySlot u fun slot => { slot with hook := some hook })
  | .park u delay outcome deliver next, s =>
    next.installations dispatch within
      (s.modifySlot u fun slot => { slot with delay, parked := some ⟨outcome, deliver⟩ })
  | .dispatch next, s =>
    within s ++
      match dispatch s with
      | none => []
      | some (result, s) => (next result).installations dispatch within s

/-- The installations of a firing, which are those of the callback that it runs. -/
def Firing.installationsWith (within : Installations σ ω) (f : Firing σ ω) : List (Installation ω) :=
  match f.callback? with
  | none => []
  | some (p, s) => p.installations (Scheduler.processEvent f.pops) within s

namespace Scheduler

omit [MediaStore σ] in
def processInstallations (within : Installations σ ω) : Installations σ ω := fun s =>
  if s.stop then []
  else
    let s := { s with agenda := s.agenda.settle }
    if s.agenda.queue.isEmpty then [] else within { s with dispatching := true }

def drainInstallations : Nat → Installations σ ω
  | 0, _ => []
  | pops + 1, s =>
    match s.agenda.pop? with
    | none => []
    | some (u, agenda) =>
      let f : Firing σ ω := ⟨pops, u, { s with agenda }⟩
      f.installationsWith (processInstallations (drainInstallations pops)) ++
        match f.fire with
        | none => []
        | some (result, t) =>
          let t := t.tellAnomaly u result
          if t.goesOn result then drainInstallations pops t else []

def dispatchInstallations (pops : Nat) : Installations σ ω :=
  processInstallations (drainInstallations pops)

end Scheduler

/-- The installations that are made when a unit fires, those of dispatches from inside it included. -/
def Firing.installations (f : Firing σ ω) : List (Installation ω) :=
  f.installationsWith (Scheduler.dispatchInstallations f.pops)

def Program.runInstallations (pops : Nat) (p : Program ω) : Installations σ ω :=
  p.installations (Scheduler.processEvent pops) (Scheduler.dispatchInstallations pops)

end

/-! ## Units after their installations -/

namespace Scheduler

/-- Every unit has the latest action that it was given, or else the one that it had before. Units are
added, never taken away. -/
structure Refitted (log : List (Installation ω)) (s t : Scheduler σ ω) : Prop where
  action : ∀ u, (t.slot u).action = (givenTo u log).getLast?.or (s.slot u).action
  size : s.slots.size ≤ t.slots.size

variable {s t v : Scheduler σ ω} {log more : List (Installation ω)}

theorem refitted_of_actions (same : ∀ u, (t.slot u).action = (s.slot u).action)
    (size : s.slots.size ≤ t.slots.size) : Refitted [] s t :=
  ⟨same, size⟩

theorem refitted_of_slots (same : t.slots = s.slots) : Refitted [] s t :=
  refitted_of_actions (fun u => congrArg Slot.action (slot_of_slots same u))
    (Nat.le_of_eq (congrArg Array.size same.symm))

theorem refitted_modifySlot (u : UnitId) (f : Slot ω → Slot ω) (s : Scheduler σ ω)
    (keeps : ∀ slot, (f slot).action = slot.action) : Refitted [] s (s.modifySlot u f) :=
  refitted_of_actions (fun v => field_modifySlot Slot.action u v f s keeps)
    (Nat.le_of_eq (size_modifySlot u f s).symm)

/-- The later one of two actions counts. -/
theorem Refitted.trans (first : Refitted log s t) (second : Refitted more t v) :
    Refitted (log ++ more) s v where
  action u := by
    rw [givenTo_append, List.getLast?_append, Option.or_assoc, ← first.action u]
    exact second.action u
  size := Nat.le_trans first.size second.size

theorem Refitted.behind (second : Refitted more t v) (first : Refitted [] s t) : Refitted more s v :=
  first.trans second

theorem Refitted.before (first : Refitted log s t) (second : Refitted [] t v) : Refitted log s v := by
  have both := first.trans second
  rwa [List.append_nil] at both

theorem refitted_setAction (u : UnitId) (action : Program ω) (s : Scheduler σ ω) :
    Refitted (if u < s.slots.size then [⟨u, action⟩] else []) s
      (s.modifySlot u fun slot => { slot with action := some action }) := by
  refine ⟨fun v => ?_, Nat.le_of_eq (size_modifySlot u _ s).symm⟩
  rw [slot_modifySlot]
  by_cases inside : u < s.slots.size
  · rw [if_pos inside]
    by_cases same : u = v
    · rw [if_pos ⟨same, inside⟩]
      simp [givenTo, same]
    · rw [if_neg fun both => same both.1]
      simp [givenTo, same]
  · rw [if_neg inside, if_neg fun both => inside both.2]
    rfl

/-- An action that is taken out of its unit and put back afterwards gives way to those installed
meanwhile. -/
theorem Refitted.putBack {u : UnitId} {action : Program ω}
    (installed : (s.slot u).action = some action)
    (ran : Refitted log (s.modifySlot u fun slot => { slot with action := none }) t) :
    Refitted log s (t.modifySlot u fun slot => { slot with action := slot.action.or (some action) }) := by
  have inside : u < s.slots.size := by
    refine Nat.lt_of_not_le fun outside => ?_
    rw [slot_of_size_le outside] at installed
    cases installed
  have size : s.slots.size ≤ t.slots.size := size_modifySlot u _ s ▸ ran.size
  refine ⟨fun v => ?_, (size_modifySlot u _ t).symm ▸ size⟩
  have after := ran.action v
  by_cases same : u = v
  · subst same
    rw [slot_modifySlot_self inside] at after
    rw [slot_modifySlot_self (Nat.lt_of_lt_of_le inside size), installed]
    dsimp only at after ⊢
    rw [after, Option.or_none]
  · rw [slot_modifySlot_of_ne same] at after
    rwa [slot_modifySlot_of_ne same]

variable [MediaStore σ]

theorem refitted_perform (s : Scheduler σ ω) (c : Call) : Refitted [] s (s.perform c).2 :=
  refitted_of_actions (fun u => congrArg (·.1) (callbacks_perform s c u)) (size_perform s c)

end Scheduler

/-- Wherever the motion ends, units are refitted by its installations. -/
def Motion.RefitsBy (m : Motion σ ω) (c : Installations σ ω) : Prop :=
  ∀ s result t, m s = some (result, t) → Scheduler.Refitted (c s) s t

section
open Scheduler
variable [MediaStore σ]

/-- By induction on the program; a dispatch from inside it comes in by its own installations. -/
theorem Program.exec_refitsBy {dispatch : Motion σ ω} {within : Installations σ ω}
    (h : dispatch.RefitsBy within) (p : Program ω) :
    Motion.RefitsBy (p.exec dispatch) (p.installations dispatch within) := by
  induction p with
  | done result =>
    rintro s _ _ ⟨⟩
    exact refitted_of_slots rfl
  | call c next ih =>
    intro s result t ended
    exact (ih _ _ result t ended).behind (refitted_perform s c)
  | look next ih => exact fun s => ih s.world s
  | change f next ih =>
    intro s result t ended
    exact (ih _ result t ended).behind (refitted_of_slots rfl)
  | setAction u action next _ ih =>
    intro s result t ended
    exact (refitted_setAction u action s).trans (ih _ result t ended)
  | setHook u hook next ih =>
    intro s result t ended
    exact (ih _ result t ended).behind (refitted_modifySlot u _ s fun _ => rfl)
  | park u delay outcome deliver next _ ih =>
    intro s result t ended
    exact (ih _ result t ended).behind (refitted_modifySlot u _ s fun _ => rfl)
  | dispatch next ih =>
    intro s result t ended
    rw [Program.exec] at ended
    rw [Program.installations]
    cases inner : dispatch s with
    | none =>
      rw [inner] at ended
      cases ended
    | some answer =>
      rw [inner] at ended
      exact (h s _ _ inner).trans (ih _ _ result t ended)

theorem Firing.refitted_fire {f : Firing σ ω} {within : Installations σ ω}
    (h : (processEvent f.pops : Motion σ ω).RefitsBy within) {result : Result} {t : Scheduler σ ω}
    (fired : f.fire = some (result, t)) : Refitted (f.installationsWith within) f.scheduler t := by
  obtain ⟨pops, u, s⟩ := f
  unfold installationsWith callback?
  dsimp only
  have told : ∀ m, Refitted [] s (s.tell m) := fun m => refitted_of_slots rfl
  cases fired_of_fire fired with
  | waits due =>
    rw [if_pos due]
    have freed := (told (.requeueing (s.slot u).endpoint.name (s.slot u).delay)).before
      (refitted_modifySlot u (fun slot => { slot with delay := 0 }) _ fun _ => rfl)
    exact freed.before (refitted_perform _ (.activateAfter u (s.slot u).delay))
  | handsOver due parked ended =>
    rw [if_neg due, parked]
    exact (Program.exec_refitsBy h _ _ _ _ ended).behind
      ((told _).before (refitted_modifySlot u _ _ fun _ => rfl))
  | rests due parked absent =>
    rw [if_neg due, parked, absent]
    exact told _
  | acts due parked installed ended =>
    rw [if_neg due, parked, installed]
    have ran := Program.exec_refitsBy h _ _ _ _ ended
    exact (Refitted.putBack (s := s.tell (.firing (s.slot u).endpoint.name)) installed ran).behind (told _)

namespace Scheduler

omit [MediaStore σ] in
theorem steady_refitted (log : List (Installation ω)) (s : Scheduler σ ω) : Steady (Refitted log s) where
  tell _ _ here := here.before (refitted_of_slots rfl)
  stop _ _ here := here.before (refitted_of_slots rfl)
  dispatching _ _ here := here.before (refitted_of_slots rfl)
  settle _ here := here.before (refitted_of_slots rfl)
  rearm _ here _ := here.before (refitted_of_slots rfl)

omit [MediaStore σ] in
theorem process_refitsBy {drain : Motion σ ω} {within : Installations σ ω} (h : drain.RefitsBy within) :
    Motion.RefitsBy (process drain) (processInstallations within) := by
  intro s result t ended
  unfold process at ended
  unfold processInstallations
  split at ended
  · rename_i asked
    rw [if_pos asked]
    cases ended
    exact refitted_of_slots rfl
  · rename_i clear
    rw [if_neg clear]
    dsimp only at ended ⊢
    split at ended
    · rename_i empty
      rw [if_pos empty]
      cases ended
      exact refitted_of_slots rfl
    · rename_i pending
      rw [if_neg pending]
      split at ended
      · cases ended
      · rename_i result' last drained
        have concluded := (steady_refitted _ _).conclude (h _ _ _ drained) result'
        rw [Option.some.inj ended] at concluded
        exact concluded.behind (refitted_of_slots rfl)

/-- By induction on the pops: what is dispatched inside of the first firing and what is drained after it have
fewer of them. -/
theorem drain_refitsBy (pops : Nat) : Motion.RefitsBy (drain pops : Motion σ ω) (drainInstallations pops) := by
  induction pops with
  | zero =>
    intro s result t ended
    cases ended
  | succ pops ih =>
    intro s result t ended
    rw [drain] at ended
    rw [drainInstallations]
    cases popped : s.agenda.pop? with
    | none =>
      rw [popped] at ended
      cases ended
      exact refitted_of_slots rfl
    | some head =>
      obtain ⟨u, agenda⟩ := head
      let f : Firing σ ω := ⟨pops, u, { s with agenda }⟩
      simp only [popped] at ended
      cases fired : f.fire with
      | none =>
        rw [show fire (process (drain pops)) u { s with agenda } = none from fired] at ended
        cases ended
      | some answer =>
        obtain ⟨result', last⟩ := answer
        rw [show fire (process (drain pops)) u { s with agenda } = some (result', last) from fired] at ended
        have left : Refitted (f.installationsWith (processInstallations (drainInstallations pops))) s
            (last.tellAnomaly u result') := by
          have during := Firing.refitted_fire (process_refitsBy ih) fired
          exact ((steady_refitted _ _).tellAnomaly during u result').behind (refitted_of_slots rfl)
        dsimp only at ended ⊢
        rw [fired]
        dsimp only
        split at ended
        · rename_i on
          rw [if_pos on]
          exact left.trans (ih _ _ _ ended)
        · rename_i off
          rw [if_neg off]
          cases ended
          exact left.trans (refitted_of_slots rfl)

theorem processEvent_refitsBy (pops : Nat) :
    Motion.RefitsBy (processEvent pops : Motion σ ω) (dispatchInstallations pops) :=
  process_refitsBy (drain_refitsBy pops)

end Scheduler

theorem Program.run_refitsBy (pops : Nat) (p : Program ω) :
    Motion.RefitsBy (p.run pops : Motion σ ω) (p.runInstallations pops) :=
  exec_refitsBy (processEvent_refitsBy pops) p

/-! ## Schedulers that come up -/

/-- Schedulers that come up outside of callbacks, with the installations so far. -/
inductive Scheduler.Equipped : List (Installation ω) → Scheduler σ ω → Prop
  /-- There are no units. -/
  | start {s : Scheduler σ ω} : s.slots = #[] → Equipped [] s
  /-- A unit that comes with an action is added. -/
  | adding {log : List (Installation ω)} {s : Scheduler σ ω} (e : Endpoint) (action : Program ω) :
    Equipped log s → Equipped (log ++ [⟨s.slots.size, action⟩]) (s.addActing e action)
  /-- A program is run; it may add units, give them actions and dispatch. A tick and a dispatch are such
  runs (`tick_eq_run`, `processEvent_eq_run`). -/
  | run {log : List (Installation ω)} {s t : Scheduler σ ω} {p : Program ω} {pops : Nat} {result : Result} :
    Equipped log s → p.run pops s = some (result, t) → Equipped (log ++ p.runInstallations pops s) t
  /-- All but the actions may be changed from outside. -/
  | aside {log : List (Installation ω)} {s t : Scheduler σ ω} :
    Equipped log s → (∀ u, (t.slot u).action = (s.slot u).action) → t.slots.size = s.slots.size →
      Equipped log t

theorem Scheduler.Equipped.action {log : List (Installation ω)} {s : Scheduler σ ω} (equipped : s.Equipped log)
    (u : UnitId) : (s.slot u).action = (givenTo u log).getLast? := by
  induction equipped with
  | start empty => exact congrArg (·.1) (callbacks_of_empty empty u)
  | @adding log s e action _ ih =>
    rw [slot_addActing, givenTo_append, List.getLast?_append, ← ih]
    by_cases new : u = s.slots.size
    · simp [givenTo, new]
    · simp [givenTo, new, Ne.symm new]
  | run _ ended ih =>
    rw [givenTo_append, List.getLast?_append, ← ih]
    exact (Program.run_refitsBy _ _ _ _ _ ended).action u
  | aside _ same _ ih => exact (same u).trans ih

/-- Outside of callbacks a unit has an action exactly if it was given one, which is then the latest. Whatever
is done when a unit is fired, each unit is left with the latest action that it was given meanwhile, at any
depth, or else with the one that it had before, the unit itself included. -/
theorem no_unit_loses_its_action {log : List (Installation ω)} {s : Scheduler σ ω} (equipped : s.Equipped log)
    (u : UnitId) :
    ((s.slot u).action.isSome ↔ ∃ i ∈ log, i.unit = u) ∧ (s.slot u).action = (givenTo u log).getLast? ∧
      ∀ (f : Firing σ ω) (result : Result) (t : Scheduler σ ω), f.fire = some (result, t) →
        (t.slot u).action = (givenTo u f.installations).getLast?.or (f.scheduler.slot u).action := by
  refine ⟨?_, equipped.action u, fun f result t fired => ?_⟩
  · rw [equipped.action u, List.getLast?_isSome, givenTo_ne_nil]
  · exact (Firing.refitted_fire (Scheduler.processEvent_refitsBy f.pops) fired).action u

end

/-- An action that counts its firings. -/
def tally : Program Nat := .change (· + 1) (.done (.ok ()))

/-- An action that gives its unit another one, has that fire inside of its own firing, and then fails. -/
def handOver : Program Nat :=
  .setAction 0 tally (.call (.activate 0 0) fun _ => .dispatch fun _ => .done (.error .noMemory))

/-- A unit with that action, just taken off the queue. -/
def handingOver : Firing MemoryImages Nat :=
  ⟨2, 0, Scheduler.addActing { name := "A" } handOver (.start 100 1 0 default (.empty none))⟩

/-- The other action has counted by the time that the first one fails, and it is the one that stays, also
when all that happens in a dispatch. -/
theorem failing_unit_keeps_its_replacement :
    handingOver.scheduler.Equipped [⟨0, handOver⟩] ∧
      (handingOver.scheduler.slot 0).action = some handOver ∧
      (∃ t, handingOver.fire = some (.error .noMemory, t) ∧ t.world = 1 ∧
        (t.slot 0).action = some tally) ∧
      ∃ t : Scheduler MemoryImages Nat, t.Equipped [⟨0, handOver⟩, ⟨0, tally⟩] ∧ t.world = 1 ∧
        (t.slot 0).action = some tally := by
  have equipped : handingOver.scheduler.Equipped [⟨0, handOver⟩] :=
    Scheduler.Equipped.adding (s := .start 100 1 0 default (.empty none)) _ handOver (.start rfl)
  obtain ⟨-, installed, fires⟩ := no_unit_loses_its_action equipped 0
  refine ⟨equipped, installed, ?_, ?_⟩
  · have ended : ∃ t, handingOver.fire = some (.error .noMemory, t) ∧ t.world = 1 := ⟨_, rfl, rfl⟩
    obtain ⟨t, fired, counted⟩ := ended
    have last := fires handingOver _ t fired
    have during : handingOver.installations = [⟨0, tally⟩] := rfl
    rw [during] at last
    exact ⟨t, fired, counted, last⟩
  · let start : Program Nat := .call (.activate 0 0) fun _ => .dispatch .done
    have ended : ∃ t, start.run 3 handingOver.scheduler = some (.error .noMemory, t) ∧ t.world = 1 :=
      ⟨_, rfl, rfl⟩
    obtain ⟨t, ran, counted⟩ := ended
    have during : start.runInstallations 3 handingOver.scheduler = [⟨0, tally⟩] := rfl
    have later := equipped.run ran
    rw [during] at later
    exact ⟨t, later, counted, (no_unit_loses_its_action later 0).2.1⟩

end Peripheral
