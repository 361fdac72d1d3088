import Peripheral.Proofs.Chronicle

/-!
# The course of a simulation

A scheduler starts with an empty agenda at time 0; from then on programs are run on it, and between
them its surroundings may change all but the agenda. The changes made so far tell the whole of the
agenda.

* `Scheduler.Course` : the schedulers that come up, each with the changes of its agenda so far
  (`Course.agenda`, `Course.possible`);
* `Moment` : the changes up to a moment, also one inside a callback or in a run that never ends;
* `tick_eq_run`, `processEvent_eq_run` : **a tick and a dispatch are runs of programs**, so they make
  part of every course.
-/

namespace Peripheral

variable {σ ω : Type} [MediaStore σ]

/-- Schedulers that come up in the course of a simulation, with the changes of the agenda so far. -/
inductive Scheduler.Course (idleWait : Int32) : Scheduler σ ω → List Change → Prop
  /-- The agenda is empty and time is 0. -/
  | start {s : Scheduler σ ω} : s.agenda = .start idleWait → Course idleWait s []
  /-- All but the agenda may be changed from outside. -/
  | aside {s t : Scheduler σ ω} {h : List Change} :
    Course idleWait s h → t.agenda = s.agenda → Course idleWait t h
  /-- A program is run. -/
  | run {s t : Scheduler σ ω} {h : List Change} {p : Program ω} {pops : Nat} {result : Result} :
    Course idleWait s h → p.run pops s = some (result, t) →
      Course idleWait t (h ++ p.runChanges pops s)

/-- The changes up to a moment of a simulation. It may lie anywhere in the run of a program, and the
run need not come to an end. -/
def Moment (σ ω : Type) [MediaStore σ] (idleWait : Int32) (m : List Change) : Prop :=
  ∃ (s : Scheduler σ ω) (h : List Change) (p : Program ω) (pops : Nat),
    s.Course idleWait h ∧ m <+: h ++ p.runChanges pops s

namespace Scheduler.Course

variable {idleWait : Int32} {s : Scheduler σ ω} {h : List Change}

theorem agenda (course : s.Course idleWait h) : s.agenda = (Agenda.start idleWait).after h := by
  induction course with
  | start empty => exact empty
  | aside _ same ih => rw [same, ih]
  | run _ ended ih => exact (Program.run_recordedBy _ _).after ih ended

theorem possible (course : s.Course idleWait h) :
    Trail Change.Possible (Agenda.start idleWait) h := by
  induction course with
  | start empty => trivial
  | aside _ same ih => exact ih
  | run course ended ih =>
    rw [Trail.append, ← course.agenda]
    exact ⟨ih, (Program.run_recordedBy _ _).possible _⟩

theorem moment (course : s.Course idleWait h) : Moment σ ω idleWait h :=
  ⟨s, h, .done (.ok ()), 0, course, List.prefix_append ..⟩

end Scheduler.Course

theorem Moment.possible {idleWait : Int32} {m : List Change} (moment : Moment σ ω idleWait m) :
    Trail Change.Possible (Agenda.start idleWait) m := by
  obtain ⟨s, h, p, pops, course, before⟩ := moment
  refine Trail.of_isPrefix (Trail.append.2 ⟨course.possible, ?_⟩) before
  rw [← course.agenda]
  exact (Program.run_recordedBy _ _).possible _

theorem Moment.nodup {idleWait : Int32} {m : List Change} (moment : Moment σ ω idleWait m) :
    ((Agenda.start idleWait).after m).units.Nodup :=
  nodup_after moment.possible List.nodup_nil

namespace Scheduler

/-- A dispatch is the run of a program. -/
theorem processEvent_eq_run (pops : Nat) (s : Scheduler σ ω) :
    s.processEvent pops = (Program.dispatch .done).run pops s := by
  unfold Program.run
  rw [Program.exec]
  cases s.processEvent pops with
  | none => rfl
  | some answer => rfl

theorem tick_program : (Act.tick .done : Program ω) =
    .call .agenda fun agenda =>
      if agenda.interval ≤ 0 then
        .dispatch fun
          | .error status => .done (.error status)
          | .ok () => .call (.consume 1) fun _ => .done (.ok ())
      else .call (.consume 1) fun _ => .done (.ok ()) := by
  refine congrArg (Program.call .agenda) (funext fun agenda => ?_)
  by_cases due : agenda.interval ≤ 0
  · rw [if_pos due]
    show (if agenda.interval ≤ 0 then _ else _ : Act ω Result) .done = _
    rw [if_pos due]
    refine congrArg Program.dispatch (funext fun result => ?_)
    cases result <;> rfl
  · rw [if_neg due]
    show (if agenda.interval ≤ 0 then _ else _ : Act ω Result) .done = _
    rw [if_neg due]
    rfl

theorem tick_eq_run (pops : Nat) (s : Scheduler σ ω) :
    s.tick pops = (Act.tick .done).run pops s := by
  unfold tick Program.run
  rw [tick_program, Program.exec]
  dsimp only [perform]
  split
  · rw [Program.exec]
    cases s.processEvent pops with
    | none => rfl
    | some answer =>
      obtain ⟨result, t⟩ := answer
      cases result <;> rfl
  · rfl

end Scheduler

end Peripheral
