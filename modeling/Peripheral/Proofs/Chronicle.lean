import Peripheral.Proofs.Changes
import Peripheral.Simulation.Dispatch

/-!
# What a run does to the agenda

Beside each motion of the scheduler stands a chronicle: the changes that the motion makes to the
agenda, in order. A chronicle reaches as far as the motion gets, also where the pops run out, so its
prefixes are the moments of a run, those inside callbacks included.

* `Scheduler.changesOf` : the changes that a call makes;
* `Program.changes`, `Scheduler.fireChanges`, `processChanges`, `drainChanges` : the chronicles of
  the motions of the same names; `Program.runChanges` : that of a whole run;
* `Motion.RecordedBy` : all changes of a chronicle are possible, and together they give the agenda
  that the motion leaves behind;
* `Program.run_recordedBy` : **the chronicle of a run records it**.
-/

namespace Peripheral

variable {σ ω : Type}

/-- Changes of the agenda, in order, for each scheduler to start from. -/
abbrev Chronicle (σ ω : Type) := Scheduler σ ω → List Change

/-! ## Calls -/

namespace Scheduler

def swallows (u : UnitId) (s : Scheduler σ ω) : Bool :=
  match (s.slot u).hook with
  | none => false
  | some hook => (hook s.world).1

/-- The changes that a call makes to the agenda. -/
def changesOf (s : Scheduler σ ω) : Call → List Change
  | .consume ticks => [.spent ticks]
  | .activate u ticks => if s.isActive u then [] else [.queued u ticks]
  | .activateAfter u usecs => if s.isActive u then [] else [.queued u (s.legs usecs).1]
  | .cancel u => if s.isActive u && !s.swallows u then [.removed u] else []
  | _ => []

@[simp] theorem agenda_modifySlot (u : UnitId) (f : Slot ω → Slot ω) (s : Scheduler σ ω) :
    (s.modifySlot u f).agenda = s.agenda := rfl

@[simp] theorem agenda_tell (m : Message) (s : Scheduler σ ω) : (s.tell m).agenda = s.agenda := rfl

@[simp] theorem isActive_iff {u : UnitId} {s : Scheduler σ ω} :
    s.isActive u ↔ u ∈ s.agenda.units := by
  rw [isActive, Agenda.isActive_iff]

theorem agenda_activate (u : UnitId) (ticks : Int32) (s : Scheduler σ ω) :
    (s.activate u ticks).2.agenda = s.agenda.after (s.changesOf (.activate u ticks)) := by
  simp only [activate, changesOf]
  split <;> rfl

theorem agenda_activateAfter (u : UnitId) (usecs : Float) (s : Scheduler σ ω) :
    (s.activateAfter u usecs).2.agenda = s.agenda.after (s.changesOf (.activateAfter u usecs)) := by
  simp only [activateAfter, changesOf]
  split
  · rfl
  · rename_i idle
    simp [activate, idle, Change.apply]

theorem agenda_unqueue (u : UnitId) (s : Scheduler σ ω) :
    (s.unqueue u).agenda = s.agenda.remove u := by
  unfold unqueue
  split
  · rfl
  · rename_i idle
    rw [Agenda.remove_of_idle (by simpa using idle)]

/-- Past its hook a cancellation removes the unit, which does nothing to an idle one. -/
theorem agenda_cancel (u : UnitId) (s : Scheduler σ ω) :
    (s.cancel u).agenda = if s.swallows u then s.agenda else s.agenda.remove u := by
  unfold cancel swallows
  cases hook : (s.slot u).hook with
  | none => exact agenda_unqueue u s
  | some hook =>
    dsimp only
    split
    · rfl
    · exact agenda_unqueue u _

variable [MediaStore σ]

theorem agenda_perform (s : Scheduler σ ω) (c : Call) :
    (s.perform c).2.agenda = s.agenda.after (s.changesOf c) := by
  cases c with
  | activate u ticks => exact agenda_activate u ticks s
  | activateAfter u usecs => exact agenda_activateAfter u usecs s
  | cancel u =>
    simp only [perform, changesOf, agenda_cancel]
    by_cases swallowed : s.swallows u
    · simp [swallowed]
    · by_cases active : s.isActive u
      · simp [swallowed, active, Change.apply]
      · simp [swallowed, active, Agenda.remove_of_idle (by simpa using active)]
  | _ => rfl

omit [MediaStore σ] in
theorem possible_changesOf (s : Scheduler σ ω) (c : Call) :
    Trail Change.Possible s.agenda (s.changesOf c) := by
  cases c with
  | consume ticks => exact ⟨trivial, trivial⟩
  | activate u ticks =>
    simp only [changesOf]
    split
    · trivial
    · rename_i idle
      rw [isActive_iff] at idle
      exact ⟨idle, trivial⟩
  | activateAfter u usecs =>
    simp only [changesOf]
    split
    · trivial
    · rename_i idle
      rw [isActive_iff] at idle
      exact ⟨idle, trivial⟩
  | cancel u =>
    simp only [changesOf]
    split
    · rename_i removes
      rw [Bool.and_eq_true, isActive_iff] at removes
      exact ⟨removes.1, trivial⟩
    · trivial
  | _ => trivial

end Scheduler

/-! ## Programs and dispatches -/

variable [MediaStore σ]

/-- The changes that a program makes; `within` are those that a dispatch from inside it makes. -/
def Program.changes (dispatch : Motion σ ω) (within : Chronicle σ ω) : Program ω → Chronicle σ ω
  | .done _, _ => []
  | .call c next, s =>
    let (answer, t) := s.perform c
    s.changesOf c ++ (next answer).changes dispatch within t
  | .look next, s => (next s.world).changes dispatch within s
  | .change f next, s => next.changes dispatch within { s with world := f s.world }
  | .setAction u action next, s =>
    next.changes dispatch within (s.modifySlot u fun slot => { slot with action := some action })
  | .setHook u hook next, s =>
    next.changes dispatch within (s.modifySlot u fun slot => { slot with hook := some hook })
  | .park u delay outcome deliver next, s =>
    next.changes dispatch within
      (s.modifySlot u fun slot => { slot with delay, parked := some ⟨outcome, deliver⟩ })
  | .dispatch next, s =>
    within s ++
      match dispatch s with
      | none => []
      | some (result, s) => (next result).changes dispatch within s

namespace Scheduler

def fireChanges (dispatch : Motion σ ω) (within : Chronicle σ ω) (u : UnitId) : Chronicle σ ω :=
  fun s =>
  let slot := s.slot u
  if slot.delay > 0 then s.changesOf (.activateAfter u slot.delay)
  else
    match slot.parked with
    | some parked =>
      let s := s.tell (.completing slot.endpoint.name)
      let s := s.modifySlot u fun slot => { slot with parked := none }
      (parked.deliver parked.outcome).changes dispatch within s
    | none =>
      match slot.action with
      | none => []
      | some action =>
        let s := s.tell (.firing slot.endpoint.name)
        let s := s.modifySlot u fun slot => { slot with action := none }
        action.changes dispatch within s

/-- The changes that a dispatch makes; `within` are those that draining the queue makes. -/
def processChanges (drain : Motion σ ω) (within : Chronicle σ ω) : Chronicle σ ω := fun s =>
  if s.stop then []
  else
    let s := { s with agenda := s.agenda.settle, dispatching := true }
    .settled ::
      if s.agenda.queue.isEmpty then [.rested]
      else
        within s ++
          match drain s with
          | none => []
          | some (_, s) => if s.agenda.queue.isEmpty then [.rested] else []

def drainChanges : Nat → Chronicle σ ω
  | 0, _ => []
  | pops + 1, s =>
    match s.agenda.pop? with
    | none => []
    | some (u, agenda) =>
      let dispatch := process (drain pops)
      let within := processChanges (drain pops) (drainChanges pops)
      .popped u s.agenda.reference :: (fireChanges dispatch within u { s with agenda } ++
        match fire dispatch u { s with agenda } with
        | none => []
        | some (result, s) =>
          let s := s.tellAnomaly u result
          if s.goesOn result then drainChanges pops s else [])

def processEventChanges (pops : Nat) : Chronicle σ ω :=
  processChanges (drain pops) (drainChanges pops)

end Scheduler

def Program.runChanges (pops : Nat) (p : Program ω) : Chronicle σ ω :=
  p.changes (Scheduler.processEvent pops) (Scheduler.processEventChanges pops)

/-! ## Chronicles record -/

omit [MediaStore σ] in
/-- All changes of a chronicle are possible, and together they give the agenda that the motion
leaves behind. -/
structure Motion.RecordedBy (m : Motion σ ω) (c : Chronicle σ ω) : Prop where
  possible : ∀ s, Trail Change.Possible s.agenda (c s)
  agenda : ∀ s result t, m s = some (result, t) → t.agenda = s.agenda.after (c s)

omit [MediaStore σ] in
theorem Motion.RecordedBy.trail {m : Motion σ ω} {c : Chronicle σ ω} (h : m.RecordedBy c)
    {s : Scheduler σ ω} {a : Agenda} (agenda : s.agenda = a) : Trail Change.Possible a (c s) :=
  agenda ▸ h.possible s

omit [MediaStore σ] in
theorem Motion.RecordedBy.after {m : Motion σ ω} {c : Chronicle σ ω} (h : m.RecordedBy c)
    {s t : Scheduler σ ω} {result : Result} {a : Agenda} {past : List Change}
    (agenda : s.agenda = a.after past) (ended : m s = some (result, t)) :
    t.agenda = a.after (past ++ c s) := by
  rw [Agenda.after_append, ← agenda]
  exact h.agenda s result t ended

theorem Program.exec_recordedBy {dispatch : Motion σ ω} {within : Chronicle σ ω}
    (h : dispatch.RecordedBy within) (p : Program ω) :
    Motion.RecordedBy (p.exec dispatch) (p.changes dispatch within) := by
  induction p with
  | done result =>
    refine ⟨fun s => trivial, fun s result t ended => ?_⟩
    simp only [Program.exec, Option.some.injEq, Prod.mk.injEq] at ended
    rw [← ended.2]
    rfl
  | call c next ih =>
    refine ⟨fun s => ?_, fun s result t ended => ?_⟩
    · rw [Program.changes, Trail.append, ← s.agenda_perform]
      exact ⟨s.possible_changesOf c, (ih _).possible _⟩
    · rw [Program.changes, Agenda.after_append, ← s.agenda_perform]
      exact (ih _).agenda _ result t ended
  | look next ih => exact ⟨fun s => (ih _).possible s, fun s => (ih _).agenda s⟩
  | change f next ih => exact ⟨fun s => ih.trail rfl, fun s => ih.agenda _⟩
  | setAction u action next _ ih => exact ⟨fun s => ih.trail rfl, fun s => ih.agenda _⟩
  | setHook u hook next ih => exact ⟨fun s => ih.trail rfl, fun s => ih.agenda _⟩
  | park u delay outcome deliver next _ ih => exact ⟨fun s => ih.trail rfl, fun s => ih.agenda _⟩
  | dispatch next ih =>
    refine ⟨fun s => ?_, fun s result t ended => ?_⟩
    · rw [Program.changes, Trail.append]
      refine ⟨h.possible s, ?_⟩
      cases inner : dispatch s with
      | none => trivial
      | some answer =>
        rw [← h.agenda s _ _ inner]
        exact (ih _).possible _
    · simp only [Program.exec] at ended
      rw [Program.changes, Agenda.after_append]
      cases inner : dispatch s with
      | none => simp [inner] at ended
      | some answer =>
        rw [inner] at ended
        rw [← h.agenda s _ _ inner]
        exact (ih _).agenda _ _ _ ended

namespace Scheduler

theorem fire_recordedBy {dispatch : Motion σ ω} {within : Chronicle σ ω}
    (h : dispatch.RecordedBy within) (u : UnitId) :
    Motion.RecordedBy (fire dispatch u) (fireChanges dispatch within u) := by
  refine ⟨fun s => ?_, fun s result t fired => ?_⟩
  · simp only [fireChanges]
    split
    · exact s.possible_changesOf _
    · split
      · exact (Program.exec_recordedBy h _).trail rfl
      · split
        · trivial
        · exact (Program.exec_recordedBy h _).trail rfl
  · simp only [fire] at fired
    simp only [fireChanges]
    split
    · rename_i waiting
      simp only [if_pos waiting, Option.some.injEq, Prod.mk.injEq] at fired
      rw [← fired.2]
      exact agenda_activateAfter u _ _
    · rename_i due
      rw [if_neg due] at fired
      split
      · rename_i parked there
        rw [there] at fired
        exact (Program.exec_recordedBy h _).agenda _ _ _ fired
      · rename_i none_parked
        rw [none_parked] at fired
        split
        · rename_i inert
          simp only [inert, Option.some.injEq, Prod.mk.injEq] at fired
          rw [← fired.2]
          rfl
        · rename_i action there
          simp only [there] at fired
          split at fired
          · simp at fired
          · rename_i result' t' ended
            simp only [Option.some.injEq, Prod.mk.injEq] at fired
            rw [← fired.2]
            exact (Program.exec_recordedBy h _).agenda _ _ _ ended

omit [MediaStore σ] in
/-- At its end a dispatch waits anew on a queue that has become empty, and does no more to the
agenda. -/
theorem agenda_conclude (result : Result) (s : Scheduler σ ω) :
    (s.conclude result).2.agenda =
      s.agenda.after (if s.agenda.queue.isEmpty then [.rested] else []) := by
  simp only [conclude]
  cases queue : s.agenda.queue with
  | nil => dsimp only; split <;> rfl
  | cons e rest => dsimp only; split <;> rfl

omit [MediaStore σ] in
theorem process_recordedBy {drain : Motion σ ω} {within : Chronicle σ ω}
    (h : drain.RecordedBy within) :
    Motion.RecordedBy (process drain) (processChanges drain within) := by
  refine ⟨fun s => ?_, fun s result t ended => ?_⟩
  · simp only [processChanges]
    split
    · trivial
    · refine ⟨trivial, ?_⟩
      split
      · rename_i empty
        exact ⟨List.isEmpty_iff.1 empty, trivial⟩
      · rw [Trail.append]
        refine ⟨h.trail rfl, ?_⟩
        split
        · trivial
        · rename_i result' t' drained
          change Trail _ (s.agenda.settle.after _) _
          rw [← h.agenda _ _ _ drained]
          split
          · rename_i empty
            exact ⟨List.isEmpty_iff.1 empty, trivial⟩
          · trivial
  · simp only [process] at ended
    simp only [processChanges]
    split
    · rename_i asked
      simp only [if_pos asked, Option.some.injEq, Prod.mk.injEq] at ended
      rw [← ended.2]
      rfl
    · rename_i clear
      rw [if_neg clear] at ended
      rw [Agenda.after_cons]
      split
      · rename_i empty
        simp only [if_pos empty, Option.some.injEq, Prod.mk.injEq] at ended
        rw [← ended.2]
        rfl
      · rename_i pending
        rw [if_neg pending] at ended
        cases drained : drain { s with agenda := s.agenda.settle, dispatching := true } with
        | none => simp [drained] at ended
        | some answer =>
          obtain ⟨result', t'⟩ := answer
          simp only [drained, Option.some.injEq] at ended
          have left := h.agenda _ _ _ drained
          have right := agenda_conclude result' t'
          rw [ended] at right
          dsimp only at left right ⊢
          rw [Agenda.after_append, right, left]
          rfl

omit [MediaStore σ] in
@[simp] theorem agenda_tellAnomaly (u : UnitId) (result : Result) (s : Scheduler σ ω) :
    (s.tellAnomaly u result).agenda = s.agenda := by
  unfold tellAnomaly
  split
  · rfl
  · split <;> rfl

omit [MediaStore σ] in
theorem popped_of_pop? {u : UnitId} {rest : Agenda} {a : Agenda} (h : a.pop? = some (u, rest)) :
    (Change.popped u a.reference).Possible a ∧ (Change.popped u a.reference).apply a = rest := by
  refine ⟨?_, by simp [Change.apply, h]⟩
  have units := Agenda.units_of_pop? h
  cases queue : a.queue with
  | nil => simp [Agenda.units, queue] at units
  | cons e tail =>
    simp only [Agenda.units, queue, List.map_cons, List.cons.injEq] at units
    exact ⟨tail, by rw [queue, Agenda.reference, queue, ← units.1]⟩

theorem drain_recordedBy (pops : Nat) :
    Motion.RecordedBy (drain pops : Motion σ ω) (drainChanges pops) := by
  induction pops with
  | zero => exact ⟨fun s => trivial, fun s result t ended => by simp [drain] at ended⟩
  | succ pops ih =>
    have fired := fun u => fire_recordedBy (process_recordedBy ih) u
    refine ⟨fun s => ?_, fun s result t ended => ?_⟩
    · rw [drainChanges]
      split
      · trivial
      · rename_i u agenda popped
        obtain ⟨possible, rest⟩ := popped_of_pop? popped
        rw [Trail.cons_iff, rest, Trail.append]
        refine ⟨possible, (fired u).trail rfl, ?_⟩
        split
        · trivial
        · rename_i result' t' done
          rw [← (fired u).agenda _ _ _ done]
          dsimp only
          split
          · have more := ih.possible (t'.tellAnomaly u result')
            rwa [agenda_tellAnomaly] at more
          · trivial
    · rw [drain] at ended
      rw [drainChanges]
      split
      · rename_i empty
        simp only [empty, Option.some.injEq, Prod.mk.injEq] at ended
        rw [← ended.2]
        rfl
      · rename_i u agenda popped
        obtain ⟨-, rest⟩ := popped_of_pop? popped
        simp only [popped] at ended
        rw [Agenda.after_cons, rest, Agenda.after_append]
        cases done : fire (process (drain pops)) u { s with agenda } with
        | none => simp [done] at ended
        | some answer =>
          obtain ⟨result', t'⟩ := answer
          have left := (fired u).agenda _ _ _ done
          dsimp only at left
          rw [← left]
          simp only [done] at ended
          dsimp only
          split at ended
          · rename_i on
            rw [if_pos on, ih.agenda _ _ _ ended, agenda_tellAnomaly]
          · rename_i off
            simp only [Option.some.injEq, Prod.mk.injEq] at ended
            rw [if_neg off, ← ended.2, agenda_tellAnomaly]
            rfl

theorem processEvent_recordedBy (pops : Nat) :
    Motion.RecordedBy (processEvent pops : Motion σ ω) (processEventChanges pops) :=
  process_recordedBy (drain_recordedBy pops)

end Scheduler

theorem Program.run_recordedBy (pops : Nat) (p : Program ω) :
    Motion.RecordedBy (p.run pops : Motion σ ω) (p.runChanges pops) :=
  Program.exec_recordedBy (Scheduler.processEvent_recordedBy pops) p

end Peripheral
