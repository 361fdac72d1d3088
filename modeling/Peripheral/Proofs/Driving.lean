import Peripheral.Machine.Basic
import Peripheral.Proofs.Firing
import Peripheral.Proofs.Passive
import Peripheral.Storage.MemoryImages

/-!
# Machines that run

A machine executes an instruction, then spends a tick, and dispatches when the interval has run out.
What an instruction books for no ticks at all is therefore a tick overdue when it fires. The dispatch
goes on from the moment at which it was due: what is due later is postponed by that tick.

* `Machine.slotChanges` : the changes of an instruction slot (`slotOf_recordedBy`, `slotOf_inTime`);
* `Scheduler.Driven` : the schedulers that come up between slots (`Driven.sound`), which are those
  that runs of machines leave behind (`Machine.run_driven`);
* `processEvent_loss` : what a dispatch loses; `Driven.due_of_fires`, `Driven.due_of_stands` : what
  fires in it and what is left;
* `dispatch_fires_what_is_due_with_head` : **a dispatch fires the units that are due when the head is,
  and postpones all others by the ticks that the head is overdue**.
-/

namespace Peripheral
open Ticks

variable {σ ω : Type} [MediaStore σ]

/-! ## Instruction slots -/

namespace Machine

def slotChanges (pops : Nat) (instruction : Program ω) : Chronicle σ ω := fun s =>
  if s.agenda.interval ≤ 0 then
    s.processEventChanges pops ++
      match s.processEvent pops with
      | some (.ok (), t) => instruction.runChanges pops t
      | _ => []
  else instruction.runChanges pops s

theorem slotOf_recordedBy (pops : Nat) (instruction : Program ω) :
    Motion.RecordedBy (slotOf pops instruction : Motion σ ω) (slotChanges pops instruction) := by
  have ran := Program.run_recordedBy (σ := σ) pops instruction
  have dispatched := Scheduler.processEvent_recordedBy (σ := σ) (ω := ω) pops
  refine ⟨fun s => ?_, fun s result t ended => ?_⟩
  · unfold slotChanges
    by_cases due : s.agenda.interval ≤ 0
    · rw [if_pos due, Trail.append]
      refine ⟨dispatched.possible s, ?_⟩
      cases first : s.processEvent pops with
      | none => trivial
      | some answer =>
        obtain ⟨result, t⟩ := answer
        cases result with
        | error status => trivial
        | ok _ =>
          rw [← dispatched.agenda _ _ _ first]
          exact ran.possible t
    · rw [if_neg due]
      exact ran.possible s
  · unfold slotOf at ended
    unfold slotChanges
    by_cases due : s.agenda.interval ≤ 0
    · rw [if_pos due] at ended ⊢
      rw [Agenda.after_append]
      cases first : s.processEvent pops with
      | none => simp [first] at ended
      | some answer =>
        obtain ⟨result', t'⟩ := answer
        rw [← dispatched.agenda _ _ _ first]
        cases result' with
        | error status =>
          simp only [first, Option.some.injEq, Prod.mk.injEq] at ended
          rw [← ended.2]
          rfl
        | ok _ =>
          rw [first] at ended
          exact ran.agenda _ _ _ ended
    · rw [if_neg due] at ended ⊢
      exact ran.agenda _ _ _ ended

/-- A slot with a passive instruction makes its changes in time. If it ends well, nothing is overdue at
its end. -/
theorem slotOf_inTime {instruction : Program ω} (passive : instruction.Passive) (pops : Nat)
    {s : Scheduler σ ω} (calm : s.Calm) (nodup : s.agenda.units.Nodup)
    (timely : s.agenda.Timely (-1)) :
    Trail Change.InTime s.agenda (slotChanges pops instruction s) ∧
      ∀ result t, slotOf pops instruction s = some (result, t) → t.Calm ∧
        (result = .ok () → t.agenda.Timely 0) := by
  unfold slotChanges slotOf
  by_cases due : s.agenda.interval ≤ 0
  · have soon : s.agenda.interval.toInt ≤ 0 := Int32.le_iff_toInt_le.1 due
    obtain ⟨inTime, ends⟩ :=
      Scheduler.processEvent_inTime (by omega : (-1 : Int) ≤ 0) pops calm nodup timely soon
    have records := Scheduler.processEvent_recordedBy (σ := σ) (ω := ω) pops
    rw [if_pos due, if_pos due, Trail.append]
    cases first : s.processEvent pops with
    | none => exact ⟨⟨inTime, trivial⟩, fun result t ended => by simp at ended⟩
    | some answer =>
      obtain ⟨result', t'⟩ := answer
      obtain ⟨quiet, -, ahead⟩ := ends _ _ first
      have agenda := records.agenda _ _ _ first
      cases result' with
      | error status =>
        refine ⟨⟨inTime, trivial⟩, fun result t ended => ?_⟩
        simp only [Option.some.injEq, Prod.mk.injEq] at ended
        rw [← ended.1, ← ended.2]
        exact ⟨quiet, fun ok => by simp at ok⟩
      | ok _ =>
        have unique := nodup_after (records.possible s) nodup
        rw [← agenda] at unique
        have future : t'.agenda.Timely 0 := (ahead rfl).mono (by omega)
        obtain ⟨inTime', -, ends'⟩ := passive.run pops quiet unique future
        rw [← agenda]
        refine ⟨⟨inTime, inTime'⟩, fun result t ended => ?_⟩
        obtain ⟨quiet', future'⟩ := ends' _ _ ended
        exact ⟨quiet', fun _ => future'⟩
  · rw [if_neg due, if_neg due]
    have later : 0 < s.agenda.interval.toInt := by
      rw [Int32.le_iff_toInt_le, Int.not_le] at due
      exact due
    have future : s.agenda.Timely 0 := { timely with soonest := fun _ => Int.le_of_lt later }
    obtain ⟨inTime, -, ends⟩ := passive.run pops calm nodup future
    refine ⟨inTime, fun result t ended => ?_⟩
    obtain ⟨quiet, future'⟩ := ends _ _ ended
    exact ⟨quiet, fun _ => future'⟩

end Machine

/-! ## Runs of machines -/

/-- Schedulers that come up between the slots of a machine that runs, with the changes of the agenda so
far. -/
inductive Scheduler.Driven (idleWait : Int32) : Scheduler σ ω → List Change → Prop
  /-- The agenda is empty and time is 0. -/
  | start {s : Scheduler σ ω} : s.agenda = .start idleWait → s.Calm → Driven idleWait s []
  /-- All but the agenda may be changed from outside. -/
  | aside {s t : Scheduler σ ω} {h : List Change} :
    Driven idleWait s h → t.agenda = s.agenda → t.Calm → Driven idleWait t h
  /-- Between runs a passive program may schedule and cancel while nothing is overdue. -/
  | between {s t : Scheduler σ ω} {h : List Change} {p : Program ω} {pops : Nat} {result : Result} :
    Driven idleWait s h → (s.agenda.queue ≠ [] → 0 ≤ s.agenda.interval.toInt) → p.Passive →
      p.run pops s = some (result, t) → Driven idleWait t (h ++ p.runChanges pops s)
  /-- A slot ends well, and a tick is spent. -/
  | slot {s t : Scheduler σ ω} {h : List Change} {instruction : Program ω} {pops : Nat} :
    Driven idleWait s h → instruction.Passive →
      Machine.slotOf pops instruction s = some (.ok (), t) →
        Driven idleWait (t.consume 1) (h ++ Machine.slotChanges pops instruction s ++ [.spent 1])
  /-- A slot ends in a status. -/
  | ended {s t : Scheduler σ ω} {h : List Change} {instruction : Program ω} {pops : Nat}
      {status : Status} :
    Driven idleWait s h → instruction.Passive →
      Machine.slotOf pops instruction s = some (.error status, t) →
        Driven idleWait t (h ++ Machine.slotChanges pops instruction s)

/-- The changes so far give the agenda and have been prompt but for a tick, and all callbacks are
passive. -/
theorem Scheduler.Driven.sound {idleWait : Int32} {s : Scheduler σ ω} {h : List Change}
    (driven : s.Driven idleWait h) :
    s.agenda = (Agenda.start idleWait).after h ∧ Punctual idleWait (-1) h ∧ s.Calm := by
  induction driven with
  | start empty calm => exact ⟨empty, ⟨by omega, by omega, trivial, trivial⟩, calm⟩
  | aside _ same calm ih =>
    obtain ⟨agenda, punctual, -⟩ := ih
    exact ⟨same.trans agenda, punctual, calm⟩
  | @between s t h p pops result _ ahead passive ended ih =>
    obtain ⟨agenda, punctual, calm⟩ := ih
    obtain ⟨nodup, timely⟩ := punctual.leaves agenda
    obtain ⟨inTime, -, quiet⟩ := passive.run pops calm nodup { timely with soonest := ahead }
    have records := Program.run_recordedBy (σ := σ) pops p
    exact ⟨records.after agenda ended, punctual.append_inTime agenda (records.possible s) inTime,
      (quiet _ _ ended).1⟩
  | @slot s t h instruction pops _ passive ended ih =>
    obtain ⟨agenda, punctual, calm⟩ := ih
    obtain ⟨nodup, timely⟩ := punctual.leaves agenda
    obtain ⟨inTime, ends⟩ := Machine.slotOf_inTime passive pops calm nodup timely
    obtain ⟨quiet, future⟩ := ends _ _ ended
    have records := Machine.slotOf_recordedBy (σ := σ) pops instruction
    have after := records.after agenda ended
    have past := punctual.append_inTime agenda (records.possible s) inTime
    refine ⟨?_, past.append after ⟨trivial, trivial⟩ ⟨⟨rfl, (future rfl).soonest⟩, trivial⟩,
      quiet.of_slots rfl⟩
    rw [Agenda.after_append, ← after]
    rfl
  | @ended s t h instruction pops status _ passive ended ih =>
    obtain ⟨agenda, punctual, calm⟩ := ih
    obtain ⟨nodup, timely⟩ := punctual.leaves agenda
    obtain ⟨inTime, ends⟩ := Machine.slotOf_inTime passive pops calm nodup timely
    have records := Machine.slotOf_recordedBy (σ := σ) pops instruction
    exact ⟨records.after agenda ended, punctual.append_inTime agenda (records.possible s) inTime,
      (ends _ _ ended).1⟩

namespace Machine

variable {idleWait : Int32} {h : List Change}

theorem runSlots_driven {instruction : Program ω} (passive : instruction.Passive) (pops : Nat)
    {slots ticks ticks' : Nat} {pause : Pause} {s t : Scheduler σ ω} (driven : s.Driven idleWait h)
    (ended : runSlots pops instruction slots ticks s = some (pause, ticks', t)) :
    ∃ h', t.Driven idleWait (h ++ h') := by
  induction slots generalizing s h ticks with
  | zero =>
    simp only [runSlots, Option.some.injEq, Prod.mk.injEq] at ended
    obtain ⟨-, -, rfl⟩ := ended
    refine ⟨[], ?_⟩
    rw [List.append_nil]
    exact driven
  | succ slots ih =>
    rw [runSlots] at ended
    cases slot : slotOf pops instruction s with
    | none => simp [slot] at ended
    | some answer =>
      obtain ⟨result, u⟩ := answer
      cases result with
      | error status =>
        simp only [slot, Option.some.injEq, Prod.mk.injEq] at ended
        obtain ⟨-, -, rfl⟩ := ended
        exact ⟨_, driven.ended passive slot⟩
      | ok _ =>
        rw [slot] at ended
        obtain ⟨h', driven'⟩ := ih (driven.slot passive slot) ended
        rw [List.append_assoc, List.append_assoc] at driven'
        exact ⟨_, driven'⟩

theorem run_driven {instruction : Program ω} (passive : instruction.Passive) {pops slots : Nat}
    {budget : Option Nat} {m m' : Machine σ ω} {report : Except Status RunReport}
    (driven : m.scheduler.Driven idleWait h)
    (ended : m.run pops slots instruction budget = some (report, m')) :
    ∃ h', m'.scheduler.Driven idleWait (h ++ h') := by
  unfold run at ended
  cases paused : runSlots pops instruction (budget.getD slots) 0 m.scheduler with
  | none => simp [paused] at ended
  | some answer =>
    obtain ⟨pause, ticks, t⟩ := answer
    obtain ⟨h', driven'⟩ := runSlots_driven passive pops driven paused
    refine ⟨h', ?_⟩
    have calm := driven'.sound.2.2
    rw [paused] at ended
    dsimp only at ended
    split at ended
    · simp at ended
    · simp only [afterwards, Option.some.injEq, Prod.mk.injEq] at ended
      rw [← ended.2]
      unfold Machine.report
      cases pause with
      | exhausted => exact driven'
      | ended status =>
        dsimp only
        split
        · exact driven'.aside rfl (calm.of_slots rfl)
        · exact driven'

end Machine

/-! ## What a dispatch loses -/

omit [MediaStore σ] in
theorem loss_eq_zero_of_inTime {a : Agenda} {h : List Change} (timely : a.Timely 0)
    (nodup : a.units.Nodup) (possible : Trail Change.Possible a h)
    (inTime : Trail Change.InTime a h) : ∀ c ∈ h, c.loss = 0 := by
  induction h generalizing a with
  | nil => simp
  | cons c h ih =>
    obtain ⟨-, next⟩ := timely_apply (by omega : (-1 : Int) ≤ 0) (Int.le_refl 0) nodup possible.1
      (inTime.1.prompt 0) timely
    have rest := ih next (Change.nodup_apply possible.1 nodup) possible.2 inTime.2
    intro d there
    rcases List.mem_cons.1 there with rfl | there
    · cases d with
      | popped u offset =>
        obtain ⟨others, queue⟩ := possible.1
        obtain ⟨due, settled⟩ := inTime.1
        have soonest := timely.soonest (by
          rw [queue]
          exact List.cons_ne_nil _ _)
        show -offset.toInt = 0
        rw [settled]
        omega
      | _ => rfl
    · exact rest d there

namespace Scheduler

variable {s t : Scheduler σ ω} {pops : Nat}

theorem processEventChanges_cons (pending : s.agenda.queue ≠ [])
    (ended : s.processEvent pops = some (.ok (), t)) :
    ∃ u rest, s.processEventChanges pops = .settled :: .popped u s.agenda.interval :: rest := by
  unfold processEvent process at ended
  unfold processEventChanges processChanges
  cases asked : s.stop with
  | true => simp [asked] at ended
  | false =>
    have some : s.agenda.settle.queue.isEmpty = false := by
      rw [List.isEmpty_eq_false_iff]
      exact fun empty => pending (queue_settle_eq_nil.1 empty)
    simp only [asked, Bool.false_eq_true, if_false, some] at ended ⊢
    cases pops with
    | zero => simp [drain] at ended
    | succ pops =>
      rw [drainChanges]
      cases popped : s.agenda.settle.pop? with
      | none =>
        rw [Agenda.pop?_eq_none_iff, Agenda.units, List.map_eq_nil_iff] at popped
        simp [popped] at some
      | some answer =>
        obtain ⟨u, agenda⟩ := answer
        have settled : s.agenda.settle.reference = s.agenda.interval := by
          rw [settled_settle s.agenda, interval_settle]
        simp only [settled, List.cons_append]
        exact ⟨u, _, rfl⟩

/-- A dispatch that ends well loses the ticks that the head is overdue when it takes the head off, and
nothing after that. -/
theorem processEvent_loss (calm : s.Calm) (nodup : s.agenda.units.Nodup)
    (timely : s.agenda.Timely (-1)) (due : s.agenda.interval.toInt ≤ 0)
    (pending : s.agenda.queue ≠ []) (ended : s.processEvent pops = some (.ok (), t)) :
    ∀ n, 2 ≤ n → lost ((s.processEventChanges pops).take n) = -s.agenda.interval.toInt := by
  obtain ⟨inTime, -⟩ := processEvent_inTime (by omega : (-1 : Int) ≤ 0) pops calm nodup timely due
  have possible := (processEvent_recordedBy (σ := σ) (ω := ω) pops).possible s
  obtain ⟨u, rest, changes⟩ := processEventChanges_cons pending ended
  rw [changes] at possible inTime ⊢
  obtain ⟨-, head, possible⟩ := possible
  obtain ⟨-, -, inTime⟩ := inTime
  have unique := Change.nodup_apply (c := .settled) trivial nodup
  obtain ⟨others, queue⟩ := id head
  have ahead := (timely_popped (timely_settle timely) queue (by rwa [interval_settle])
    (interval_settle s.agenda).symm).1
  have none := loss_eq_zero_of_inTime ahead (Change.nodup_apply head unique) possible inTime
  intro n more
  obtain ⟨k, rfl⟩ := Nat.exists_eq_add_of_le' more
  have later : lost (rest.take k) = 0 :=
    lost_eq_zero fun c there => none c (List.mem_of_mem_take there)
  have split : lost ((.settled :: .popped u s.agenda.interval :: rest).take (k + 2)) =
      0 + (-s.agenda.interval.toInt + lost (rest.take k)) := by
    simp [lost, Change.loss]
  rw [split, later]
  omega

end Scheduler

/-! ## Who fires in a dispatch -/

namespace Scheduler.Driven

variable {idleWait : Int32} {s t : Scheduler σ ω} {h : List Change} {b : Booking} {pops j : Nat}

theorem dispatch (driven : s.Driven idleWait h) (due : s.agenda.interval ≤ 0) (pops : Nat) :
    Trail Change.InTime s.agenda (s.processEventChanges pops) ∧
      Punctual idleWait (-1) (h ++ s.processEventChanges pops) := by
  obtain ⟨agenda, punctual, calm⟩ := driven.sound
  obtain ⟨nodup, timely⟩ := punctual.leaves agenda
  obtain ⟨inTime, -⟩ := processEvent_inTime (by omega : (-1 : Int) ≤ 0) pops calm nodup timely
    (Int32.le_iff_toInt_le.1 due)
  exact ⟨inTime, punctual.append_inTime agenda
    ((processEvent_recordedBy (σ := σ) (ω := ω) pops).possible s) inTime⟩

/-- Where a unit is pending, a dispatch that ends well takes the head off and loses the ticks that it
is overdue. -/
theorem loses (driven : s.Driven idleWait h) (due : s.agenda.interval ≤ 0)
    (ended : s.processEvent pops = some (.ok (), t)) (standing : Standing h b) :
    (∃ u rest, s.processEventChanges pops = .settled :: .popped u s.agenda.interval :: rest) ∧
      ∀ n, 2 ≤ n → lost ((s.processEventChanges pops).take n) = -s.agenda.interval.toInt := by
  obtain ⟨agenda, punctual, calm⟩ := driven.sound
  obtain ⟨nodup, timely⟩ := punctual.leaves agenda
  have pending := punctual.kept.pending standing
  rw [← agenda] at pending
  exact ⟨processEventChanges_cons pending ended,
    processEvent_loss calm nodup timely (Int32.le_iff_toInt_le.1 due) pending ended⟩

/-- Only what is due when the head is fires. -/
theorem due_of_fires (driven : s.Driven idleWait h) (due : s.agenda.interval ≤ 0)
    (ended : s.processEvent pops = some (.ok (), t)) (standing : Standing h b)
    (fires : Fires (h ++ s.processEventChanges pops) b j) :
    b.due h = elapsed h + s.agenda.interval.toInt := by
  obtain ⟨inTime, punctual⟩ := driven.dispatch due pops
  obtain ⟨⟨u, rest, changes⟩, loses⟩ := driven.loses due ended standing
  obtain ⟨n, v, offset, -, popped, law⟩ := punctual.fired_later standing fires
  have positive : n ≠ 0 := by
    rintro rfl
    rw [changes] at popped
    simp at popped
  have before := elapsed_of_inTime (inTime.of_isPrefix (List.take_prefix n _))
  rw [loses (n + 1) (by omega), before] at law
  omega

/-- What is left is postponed by the ticks that the head was overdue, to a time that is to come. -/
theorem due_of_stands (driven : s.Driven idleWait h) (due : s.agenda.interval ≤ 0)
    (ended : s.processEvent pops = some (.ok (), t)) (standing : Standing h b)
    (still : Standing (h ++ s.processEventChanges pops) b) :
    b.due (h ++ s.processEventChanges pops) = b.due h - s.agenda.interval.toInt ∧
      elapsed (h ++ s.processEventChanges pops) < b.due (h ++ s.processEventChanges pops) := by
  obtain ⟨-, punctual⟩ := driven.dispatch due pops
  obtain ⟨⟨u, rest, changes⟩, loses⟩ := driven.loses due ended standing
  have whole := loses (s.processEventChanges pops).length (by
    rw [changes, List.length_cons, List.length_cons]
    omega)
  rw [List.take_length] at whole
  obtain ⟨agenda, past, calm⟩ := driven.sound
  obtain ⟨nodup, timely⟩ := past.leaves agenda
  have future := ((processEvent_inTime (by omega : (-1 : Int) ≤ 0) pops calm nodup timely
    (Int32.le_iff_toInt_le.1 due)).2 _ _ ended).2.2 rfl
  rw [(processEvent_recordedBy (σ := σ) (ω := ω) pops).after agenda ended] at future
  have later := punctual.le_due future still
  refine ⟨?_, by omega⟩
  rw [due_append _ (Nat.le_of_lt standing.place_lt), whole]
  omega

end Scheduler.Driven

/-- In the run of a machine a unit fires when it is due, or a tick later, where it is due at the ticks
spent before it was booked, plus those asked for, plus one for each unit that has since been a tick
overdue. A dispatch that ends well fires those units that are due when the head is, unless they are
withdrawn first. It postpones all others by the ticks that the head is overdue, also those that would
have become due by now, and leaves nothing due behind. Where nothing is overdue and nothing has been,
all that has become due fires. -/
theorem dispatch_fires_what_is_due_with_head {idleWait : Int32} {s : Scheduler σ ω}
    {h : List Change} (driven : s.Driven idleWait h) (due : s.agenda.interval ≤ 0) (pops : Nat)
    (m : List Change) (now : m = h ++ s.processEventChanges pops) :
    (∀ c ∈ m, c.loss = 0 ∨ c.loss = 1) ∧
    (∀ b j, Fires m b j →
      b.due (m.take j) ≤ elapsed (m.take j) ∧ elapsed (m.take j) ≤ b.due (m.take j) + 1) ∧
    ∀ t, s.processEvent pops = some (.ok (), t) → ∀ b, Standing h b →
      ((∃ j, Fires m b j) ↔
        b.due h = elapsed h + s.agenda.interval.toInt ∧ ∀ j, ¬Withdrawn m b j) ∧
      (Standing m b → b.due m = b.due h - s.agenda.interval.toInt ∧ elapsed m < b.due m) ∧
      (s.agenda.interval = 0 → lost (h.drop b.place) = 0 →
        elapsed (h.take b.place) + max b.ticks.toInt 0 ≤ elapsed h →
          ∃ j, Fires m b j ∨ Withdrawn m b j) := by
  subst now
  obtain ⟨inTime, punctual⟩ := driven.dispatch due pops
  refine ⟨fun c there => ?_, fun b j fires => ?_, fun t ended b standing => ?_⟩
  · have range := punctual.loss_range c there
    omega
  · obtain ⟨offset, popped⟩ := fires.popped
    have range := punctual.popped_range popped
    have law := (punctual.fired fires.standing popped).1
    omega
  · have stays := driven.due_of_stands due ended standing
    have comes := stands_or_ended (m := h ++ s.processEventChanges pops) (b := b) (by
      rw [List.getElem?_append_left standing.place_lt]
      exact standing.made)
    rw [elapsed_append, elapsed_of_inTime inTime, Int.add_zero] at stays ⊢
    refine ⟨⟨?_, ?_⟩, stays, fun level none past => ?_⟩
    · rintro ⟨j, fires⟩
      exact ⟨driven.due_of_fires due ended standing fires, fun i => fires.not_withdrawn⟩
    · rintro ⟨level, kept⟩
      rcases comes with still | ⟨j, fires | withdrawn⟩
      · have later := stays still
        omega
      · exact ⟨j, fires⟩
      · exact absurd withdrawn (kept j)
    · rcases comes with still | ended
      · have later := stays still
        have zero : s.agenda.interval.toInt = 0 := by
          rw [level]
          rfl
        unfold Booking.due at later
        omega
      · exact ended

/-- An instruction books one unit for no ticks and another one for one tick. The first is a tick
overdue at the next dispatch, which fires it, but not the second, which is due by then. -/
theorem second_unit_is_postponed :
    ∃ (s : Scheduler MemoryImages Unit) (h : List Change),
      h = [.settled, .rested, .queued 0 0, .queued 1 1, .spent 1] ∧ s.Driven 100 h ∧
      ∀ pops t m, s.processEvent pops = some (.ok (), t) → m = h ++ s.processEventChanges pops →
        ((∃ j, Fires m ⟨0, 2, 0⟩ j) ↔ ∀ j, ¬Withdrawn m ⟨0, 2, 0⟩ j) ∧
        elapsed (h.take 3) + 1 ≤ elapsed h ∧ ∀ j, ¬Fires m ⟨1, 3, 1⟩ j := by
  let first : Scheduler MemoryImages Unit := .start 100 1 () default (.empty none)
  let idle := { first with agenda := first.agenda.settle.rearm }.tell (.queueEmpty 100)
  let p : Program Unit := .call (.activate 0 0) fun _ => .call (.activate 1 1) fun _ =>
    .done (.ok ())
  let booked := ((idle.activate 0 0).2.activate 1 1).2
  have driven : (booked.consume 1).Driven 100
      [.settled, .rested, .queued 0 0, .queued 1 1, .spent 1] := by
    have start : first.Driven 100 [] := .start rfl (Scheduler.calm_of_empty rfl)
    have passive : p.Passive := ⟨trivial, fun _ => ⟨trivial, fun _ => trivial⟩⟩
    have due : first.agenda.interval ≤ 0 := by decide
    have dispatched : first.processEvent 0 = some (.ok (), idle) := rfl
    have ended : Machine.slotOf 0 p first = some (.ok (), booked) := by
      unfold Machine.slotOf
      rw [if_pos due, dispatched]
      rfl
    have changes : Machine.slotChanges 0 p first =
        [.settled, .rested, .queued 0 0, .queued 1 1] := by
      unfold Machine.slotChanges
      rw [if_pos due, dispatched]
      decide +kernel
    have after := start.slot passive ended
    rw [changes] at after
    exact after
  refine ⟨booked.consume 1, _, rfl, driven, fun pops t m ended now => ?_⟩
  have interval : (booked.consume 1).agenda.interval = -1 := by decide +kernel
  obtain ⟨-, -, fires⟩ :=
    dispatch_fires_what_is_due_with_head driven (by rw [interval]; decide) pops m now
  rw [interval] at fires
  have one := (fires t ended ⟨0, 2, 0⟩ ⟨rfl, by decide⟩).1
  have two := (fires t ended ⟨1, 3, 1⟩ ⟨rfl, by decide⟩).1
  refine ⟨⟨fun there => (one.1 there).2, fun kept => one.2 ⟨by decide, kept⟩⟩, by decide,
    fun j there => ?_⟩
  exact absurd (two.1 ⟨j, there⟩).1 (by decide)

end Peripheral
