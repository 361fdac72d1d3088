import Peripheral.Proofs.Budgets
import Peripheral.Proofs.Clearing
import Peripheral.Proofs.Reachable
import Peripheral.Proofs.Turns

/-!
# Runs that never overflow

Offsets are differences of deadlines, and deadlines may be as far away as a tick count can tell. They stay in
range as long as nothing is overdue when the queue is changed. Ticks see to that by themselves. A machine that
runs spends a tick after its instruction without a look at the queue, which is as good where the instruction
books nothing for less than a tick.

* `Agenda.Timely.of_later`, `timely_of_putsOff` : what puts units off leaves the head in the future;
* `Machine.ownChanges`, `BooksAhead`, `RunsAhead` : what an instruction changes by itself in a slot, and that it
  books nothing for less than a tick there, or in all slots of a run;
* `Scheduler.Timed` : the schedulers that come up where time passes by ticks and by such runs (`Timed.sound`,
  `Timed.run`, `Machine.run_timed`);
* `tick_counts_never_overflow` : **no sum or difference of tick counts leaves their range**, and no sum is held
  inside it.
-/

namespace Peripheral
open Ticks

/-! ## Units that are put off -/

section
variable {a : Agenda} {k : Int}

theorem Agenda.Timely.of_later (timely : a.Timely 0) (later : ∀ x ∈ a.remaining, k ≤ x.2) : a.Timely k := by
  refine { timely with soonest := fun pending => ?_ }
  cases queue : a.queue with
  | nil => exact absurd queue pending
  | cons e rest => exact later (e.unit, a.interval.toInt) (by simp [Agenda.remaining, queue])

theorem Agenda.Timely.later (timely : a.Timely k) : ∀ x ∈ a.remaining, k ≤ x.2 := fun x there =>
  Int.le_trans (timely.soonest (queue_ne_nil_of_mem there)) (timely.ordered.interval_le x there)

/-- A unit that is put off, or taken out, leaves all others in the future. -/
theorem timely_putsOff {c : Change} (nodup : a.units.Nodup) (possible : c.Possible a) (putsOff : c.PutsOff)
    (timely : a.Timely 1) : (c.apply a).Timely 1 := by
  have ahead : a.Timely 0 := timely.mono (by omega)
  cases c with
  | queued u ticks =>
    have off : 1 ≤ (max ticks 0).toInt := by
      have least : 1 ≤ ticks.toInt := putsOff
      rw [toInt_max_zero]
      omega
    refine (timely_insert ahead).1.of_later fun x there => ?_
    rw [(remaining_insert (ahead.fits ticks)).2, book, List.mem_append, List.mem_cons] at there
    rcases there with early | rfl | late
    · exact timely.later x (List.takeWhile_subset _ early)
    · exact off
    · exact timely.later x (List.dropWhile_subset _ late)
  | removed u =>
    refine (timely_remove ahead nodup possible).1.of_later fun x there => ?_
    rw [remaining_remove nodup (ahead.unlinkExact u)] at there
    exact timely.later x (List.mem_filter.1 there).1
  | spent | settled | popped | rested => exact putsOff.elim

theorem timely_of_putsOff {h : List Change} (nodup : a.units.Nodup) (possible : Trail Change.Possible a h)
    (putsOff : ∀ c ∈ h, c.PutsOff) (timely : a.Timely 1) : (a.after h).Timely 1 := by
  induction h generalizing a with
  | nil => exact timely
  | cons c h ih =>
    have first := timely_putsOff nodup possible.1 (putsOff c List.mem_cons_self) timely
    exact ih (Change.nodup_apply possible.1 nodup) possible.2
      (fun d there => putsOff d (List.mem_cons_of_mem c there)) first

end

/-! ## Instructions that book ahead -/

variable {σ ω : Type} [MediaStore σ]

namespace Machine

variable {pops slots : Nat} {instruction : Program ω} {s t : Scheduler σ ω}

/-- The changes that the instruction of a slot makes by itself, after the dispatch that may come before it. -/
def ownChanges (pops : Nat) (instruction : Program ω) : Chronicle σ ω := fun s =>
  match fireDue pops s with
  | some (.ok (), t) => instruction.runChanges pops t
  | _ => []

/-- An instruction books units in a slot for a tick or more only. -/
def BooksAhead (pops : Nat) (instruction : Program ω) (s : Scheduler σ ω) : Prop :=
  ∀ c ∈ ownChanges pops instruction s, c.PutsOff

instance : Decidable (BooksAhead pops instruction s) :=
  inferInstanceAs (Decidable (∀ c ∈ ownChanges pops instruction s, c.PutsOff))

/-- So it does in all slots of a run. -/
def RunsAhead (pops : Nat) (instruction : Program ω) : Nat → Scheduler σ ω → Prop
  | 0, _ => True
  | slots + 1, s =>
    BooksAhead pops instruction s ∧
      ∀ t, slotOf pops instruction s = some (.ok (), t) → RunsAhead pops instruction slots (t.consume 1)

theorem fireDue_timely (calm : s.Calm) (nodup : s.agenda.units.Nodup) (timely : s.agenda.Timely 0)
    (fired : fireDue pops s = some (.ok (), t)) :
    t.Calm ∧ t.agenda.units.Nodup ∧ t.agenda.Timely 1 := by
  unfold fireDue at fired
  split at fired
  · rename_i due
    have records := Scheduler.processEvent_recordedBy (σ := σ) (ω := ω) pops
    obtain ⟨-, ends⟩ := Scheduler.processEvent_inTime (Int.le_refl 0) pops calm nodup timely
      (Int32.le_iff_toInt_le.1 due)
    obtain ⟨quiet, -, ahead⟩ := ends _ _ fired
    have unique := nodup_after (records.possible s) nodup
    rw [← records.agenda _ _ _ fired] at unique
    exact ⟨quiet, unique, ahead rfl⟩
  · rename_i ahead
    cases fired
    rw [Int32.le_iff_toInt_le, Int.not_le] at ahead
    exact ⟨calm, nodup, { timely with soonest := fun _ => ahead }⟩

theorem slotOf_timely (passive : instruction.Passive) (calm : s.Calm) (nodup : s.agenda.units.Nodup)
    (timely : s.agenda.Timely 0) (ahead : BooksAhead pops instruction s)
    (ended : slotOf pops instruction s = some (.ok (), t)) : t.Calm ∧ t.agenda.Timely 1 := by
  rw [slotOf_eq] at ended
  unfold BooksAhead ownChanges at ahead
  split at ended
  · rename_i u fired
    rw [fired] at ahead
    obtain ⟨quiet, unique, future⟩ := fireDue_timely calm nodup timely fired
    have records := Program.run_recordedBy (σ := σ) pops instruction
    obtain ⟨-, -, ends⟩ := passive.run pops quiet unique (future.mono (by omega))
    refine ⟨(ends _ _ ended).1, ?_⟩
    rw [records.agenda _ _ _ ended]
    exact timely_of_putsOff unique (records.possible u) ahead future
  · rename_i failed
    exact absurd ended (failed t)

end Machine

/-! ## Timed runs -/

/-- Schedulers that come up where time passes by ticks and by runs of machines whose instructions book ahead,
with the changes of the agenda so far. -/
inductive Scheduler.Timed (idleWait : Int32) : Scheduler σ ω → List Change → Prop
  /-- The agenda is empty and time is 0. -/
  | start {s : Scheduler σ ω} : s.agenda = .start idleWait → s.Calm → Timed idleWait s []
  /-- All but the agenda may be changed from outside. -/
  | aside {s t : Scheduler σ ω} {h : List Change} :
    Timed idleWait s h → t.agenda = s.agenda → t.Calm → Timed idleWait t h
  /-- A passive program books units for any number of ticks, and cancels them. -/
  | between {s t : Scheduler σ ω} {h : List Change} {p : Program ω} {pops : Nat} {result : Result} :
    Timed idleWait s h → p.Passive → p.run pops s = some (result, t) →
      Timed idleWait t (h ++ p.runChanges pops s)
  /-- A tick succeeds or fails. -/
  | tick {s t : Scheduler σ ω} {h : List Change} {pops : Nat} {result : Result} :
    Timed idleWait s h → s.tick pops = some (result, t) → Timed idleWait t (h ++ s.tickChanges pops)
  /-- A slot ends well, and a tick is spent. -/
  | slot {s t : Scheduler σ ω} {h : List Change} {instruction : Program ω} {pops : Nat} :
    Timed idleWait s h → instruction.Passive → Machine.BooksAhead pops instruction s →
      Machine.slotOf pops instruction s = some (.ok (), t) →
        Timed idleWait (t.consume 1) (h ++ Machine.slotChanges pops instruction s ++ [.spent 1])
  /-- A slot ends in a status. -/
  | ended {s t : Scheduler σ ω} {h : List Change} {instruction : Program ω} {pops : Nat}
      {status : Status} :
    Timed idleWait s h → instruction.Passive →
      Machine.slotOf pops instruction s = some (.error status, t) →
        Timed idleWait t (h ++ Machine.slotChanges pops instruction s)

namespace Scheduler.Timed

variable {idleWait : Int32} {s t : Scheduler σ ω} {h : List Change}

theorem slot_punctual {instruction : Program ω} (passive : instruction.Passive) (pops : Nat) (calm : s.Calm)
    (punctual : Punctual idleWait 0 h) (agenda : s.agenda = (Agenda.start idleWait).after h) :
    Punctual idleWait 0 (h ++ Machine.slotChanges pops instruction s) ∧
      ∀ result t, Machine.slotOf pops instruction s = some (result, t) → t.Calm := by
  obtain ⟨nodup, timely⟩ := punctual.leaves agenda
  obtain ⟨inTime, ends⟩ := Machine.slotOf_inTime passive pops calm nodup (timely.mono (by omega))
  exact ⟨punctual.append_inTime agenda ((Machine.slotOf_recordedBy pops instruction).possible s) inTime,
    fun result t ended => (ends result t ended).1⟩

/-- The changes so far give the agenda and were made while nothing was overdue, and all callbacks are
passive. -/
theorem sound (timed : s.Timed idleWait h) :
    s.agenda = (Agenda.start idleWait).after h ∧ Punctual idleWait 0 h ∧ s.Calm := by
  induction timed with
  | start empty calm => exact ⟨empty, ⟨by omega, by omega, trivial, trivial⟩, calm⟩
  | aside _ same calm ih =>
    obtain ⟨agenda, punctual, -⟩ := ih
    exact ⟨same.trans agenda, punctual, calm⟩
  | @between s t h p pops result _ passive ended ih =>
    obtain ⟨agenda, punctual, calm⟩ := ih
    obtain ⟨nodup, timely⟩ := punctual.leaves agenda
    obtain ⟨inTime, -, quiet⟩ := passive.run pops calm nodup timely
    have records := Program.run_recordedBy (σ := σ) pops p
    exact ⟨records.after agenda ended, punctual.append_inTime agenda (records.possible s) inTime,
      (quiet _ _ ended).1⟩
  | @tick s t h pops result _ ended ih =>
    obtain ⟨agenda, punctual, calm⟩ := ih
    obtain ⟨first, last, -, -, -, past, ends⟩ := tick_punctual pops calm punctual agenda
    exact ⟨(tick_recordedBy pops).after agenda ended, past, (ends _ _ ended).1⟩
  | @slot s t h instruction pops _ passive ahead ended ih =>
    obtain ⟨agenda, punctual, calm⟩ := ih
    obtain ⟨nodup, timely⟩ := punctual.leaves agenda
    obtain ⟨quiet, future⟩ := Machine.slotOf_timely passive calm nodup timely ahead ended
    have after := (Machine.slotOf_recordedBy (σ := σ) pops instruction).after agenda ended
    have past := (slot_punctual passive pops calm punctual agenda).1
    refine ⟨?_, past.append after ⟨trivial, trivial⟩ ⟨⟨rfl, future.soonest⟩, trivial⟩, quiet.of_slots rfl⟩
    rw [Agenda.after_append, ← after]
    rfl
  | @ended s t h instruction pops status _ passive ended ih =>
    obtain ⟨agenda, punctual, calm⟩ := ih
    obtain ⟨past, ends⟩ := slot_punctual passive pops calm punctual agenda
    exact ⟨(Machine.slotOf_recordedBy pops instruction).after agenda ended, past, ends _ _ ended⟩

/-- A run whose instructions book ahead changes the queue only while nothing is overdue, also if it does not
come to an end. -/
theorem run {instruction : Program ω} (passive : instruction.Passive) (pops slots : Nat)
    (timed : s.Timed idleWait h) (ahead : Machine.RunsAhead pops instruction slots s) :
    Punctual idleWait 0 (h ++ Machine.runChanges pops instruction slots s) ∧
      ∀ ticks pause last t, Machine.runSlots pops instruction slots ticks s = some (pause, last, t) →
        t.Timed idleWait (h ++ Machine.runChanges pops instruction slots s) := by
  induction slots generalizing s h with
  | zero =>
    rw [Machine.runChanges, List.append_nil]
    refine ⟨timed.sound.2.1, ?_⟩
    rintro ticks _ _ _ ⟨⟩
    exact timed
  | succ slots ih =>
    obtain ⟨agenda, punctual, calm⟩ := timed.sound
    have past := (slot_punctual passive pops calm punctual agenda).1
    simp only [Machine.runChanges, Machine.runSlots]
    generalize slot : Machine.slotOf pops instruction s = answer
    rcases answer with - | ⟨status | ⟨⟩, u⟩
    · rw [List.append_nil]
      exact ⟨past, by simp⟩
    · rw [List.append_nil]
      refine ⟨past, ?_⟩
      rintro ticks _ _ _ ⟨⟩
      exact timed.ended passive slot
    · have next := ih (timed.slot passive ahead.1 slot) (ahead.2 u slot)
      rw [List.append_assoc, List.append_assoc] at next
      exact ⟨next.1, fun ticks => next.2 (ticks + 1)⟩

end Scheduler.Timed

theorem Machine.run_timed {idleWait : Int32} {h : List Change} {instruction : Program ω}
    {m m' : Machine σ ω} {pops slots : Nat} {budget : Option Nat} {report : Except Status RunReport}
    (passive : instruction.Passive) (timed : m.scheduler.Timed idleWait h)
    (ahead : RunsAhead pops instruction (budget.getD slots) m.scheduler)
    (ran : m.run pops slots instruction budget = some (report, m')) :
    m'.scheduler.Timed idleWait (h ++ runChanges pops instruction (budget.getD slots) m.scheduler) := by
  obtain ⟨pause, ticks, t, ended, same⟩ := run_cases ran
  cases same
  have left := (timed.run passive pops (budget.getD slots) ahead).2 0 pause ticks t ended
  have calm := left.sound.2.2
  unfold Machine.report
  cases pause with
  | exhausted => exact left
  | ended status =>
    dsimp only
    split
    · exact left.aside rfl (calm.of_slots rfl)
    · exact left

omit [MediaStore σ] in
/-- Nothing overflows in a history that was made while nothing was overdue. -/
theorem Punctual.precise {idleWait : Int32} {k : Int} {m : List Change} (punctual : Punctual idleWait k m) :
    Trail Change.Precise (Agenda.start idleWait) m :=
  punctual.timely.1.mono fun _ _ faithful => faithful.precise

/-- Where time passes by ticks, or by runs of machines whose instructions book units for a tick or more, no
sum or difference of tick counts leaves their range when units are put into the queue, taken out of it or
taken off its head, and no sum is held inside it in the search for the place of a unit. Programs between ticks
and callbacks may book units for any number of ticks, and may fail or ask for stops. This goes for all that
has been done so far, and for every program, tick or run that comes next, up to any moment of it. -/
theorem tick_counts_never_overflow {idleWait : Int32} {s : Scheduler σ ω} {h : List Change}
    (timed : s.Timed idleWait h) (pops : Nat) :
    Trail Change.Precise (Agenda.start idleWait) h ∧
    (∀ p : Program ω, p.Passive → Trail Change.Precise s.agenda (p.runChanges pops s)) ∧
    Trail Change.Precise s.agenda (s.tickChanges pops) ∧
    ∀ (instruction : Program ω) (slots : Nat), instruction.Passive →
      Machine.RunsAhead pops instruction slots s →
        Trail Change.Precise s.agenda (Machine.runChanges pops instruction slots s) := by
  obtain ⟨agenda, punctual, calm⟩ := timed.sound
  obtain ⟨nodup, timely⟩ := punctual.leaves agenda
  have onward : ∀ changes, Punctual idleWait 0 (h ++ changes) → Trail Change.Precise s.agenda changes := by
    intro changes whole
    rw [agenda]
    exact (Trail.append.1 whole.precise).2
  refine ⟨punctual.precise, fun p passive => onward _ ?_, onward _ ?_,
    fun instruction slots passive ahead => onward _ (timed.run passive pops slots ahead).1⟩
  · obtain ⟨inTime, -, -⟩ := passive.run pops calm nodup timely
    exact punctual.append_inTime agenda ((Program.run_recordedBy pops p).possible s) inTime
  · obtain ⟨-, -, -, -, -, past, -⟩ := Scheduler.tick_punctual pops calm punctual agenda
    exact past

/-- Two units are booked as late as can be, and a third one for the next tick. After that tick a run fires the
third unit, and its instruction books another one as late as can be. -/
theorem latest_bookings_fit :
    ∃ (s : Scheduler MemoryImages Unit) (p : Program Unit),
      s.Timed 100 [.queued 0 Int32.maxValue, .queued 1 Int32.maxValue, .queued 2 1, .spent 1] ∧ p.Passive ∧
      Machine.RunsAhead 4 p 1 s ∧
      Machine.runChanges 4 p 1 s = [.settled, .popped 2 0, .queued 3 Int32.maxValue, .spent 1] ∧
      Trail Change.Precise s.agenda (Machine.runChanges 4 p 1 s) := by
  obtain ⟨s, p, timed, passive, ahead, changes⟩ : ∃ (s : Scheduler MemoryImages Unit) (p : Program Unit),
      s.Timed 100 [.queued 0 Int32.maxValue, .queued 1 Int32.maxValue, .queued 2 1, .spent 1] ∧ p.Passive ∧
      Machine.RunsAhead 4 p 1 s ∧
      Machine.runChanges 4 p 1 s = [.settled, .popped 2 0, .queued 3 Int32.maxValue, .spent 1] := by
    let first : Scheduler MemoryImages Unit := .start 100 1 () default (.empty none)
    let p : Program Unit := .call (.activate 0 Int32.maxValue) fun _ =>
      .call (.activate 1 Int32.maxValue) fun _ => .call (.activate 2 1) fun _ => .done (.ok ())
    let q : Program Unit := .call (.activate 3 Int32.maxValue) fun _ => .done (.ok ())
    let booked := (((first.activate 0 Int32.maxValue).2.activate 1 Int32.maxValue).2.activate 2 1).2
    have scheduled : booked.Timed 100
        [.queued 0 Int32.maxValue, .queued 1 Int32.maxValue, .queued 2 1] := by
      have start : first.Timed 100 [] := .start rfl (Scheduler.calm_of_empty rfl)
      have passive : p.Passive := ⟨trivial, fun _ => ⟨trivial, fun _ => ⟨trivial, fun _ => trivial⟩⟩⟩
      have ended : p.run 0 first = some (.ok (), booked) := rfl
      have changes : p.runChanges 0 first =
          [.queued 0 Int32.maxValue, .queued 1 Int32.maxValue, .queued 2 1] := by
        decide +kernel
      rw [← changes]
      exact start.between passive ended
    have timed : (booked.consume 1).Timed 100
        [.queued 0 Int32.maxValue, .queued 1 Int32.maxValue, .queued 2 1, .spent 1] := by
      have ticked := Scheduler.tickChanges_of_pos 0 (s := booked) (by decide +kernel)
      have after := scheduled.tick ticked.2
      rw [ticked.1] at after
      exact after
    exact ⟨booked.consume 1, q, timed, ⟨trivial, fun _ => trivial⟩,
      ⟨by decide +kernel, fun t _ => trivial⟩, by decide +kernel⟩
  exact ⟨s, p, timed, passive, ahead, changes,
    (tick_counts_never_overflow timed 4).2.2.2 p 1 passive ahead⟩

end Peripheral
