import Peripheral.Proofs.Rounds
import Peripheral.Proofs.Staff
import Peripheral.Proofs.Waiting

/-!
# Units that nobody disturbs

Where nobody spends ticks and others leave the units of a device alone, its units stay due when they were. A
dispatch takes them off the queue at their deadline and fires them.

* `Change.keeps_deadline`, `Scheduler.keeps_deadline` : what others schedule and cancel leaves the deadline of
  a unit;
* `License.Timeless` : neither the units of the device nor anybody under the license spends ticks;
* `Scheduler.Undisturbed` : the units are as the device left them, and nothing in the queue is overdue
  (`Undisturbed.perform`, `cancel`, `activate`);
* `Undisturbed.pop` : **what is taken off the head is due, all else keeps its deadline**;
* `drain_round`, `processEvent_round` : what every firing of a round keeps, along with the firings so far.
-/

namespace Peripheral
open Ticks

variable {σ ω : Type}

/-! ## Deadlines of others -/

theorem Change.keeps_deadline {a : Agenda} {c : Change} {u : UnitId} {r : Int}
    (schedules : c.Schedules) (other : c ≠ .removed u) (timely : a.Timely 0) (nodup : a.units.Nodup)
    (waits : (u, r) ∈ a.remaining) : (u, r) ∈ (c.apply a).remaining := by
  cases c with
  | queued v ticks =>
    exact (mem_remaining_insert (remaining_insert (timely.fits ticks)).1 timely.ordered).1 _ waits
  | removed v =>
    rw [Change.apply, remaining_remove nodup (timely.unlinkExact v), List.mem_filter]
    exact ⟨waits, by simpa using fun same => other (congrArg Change.removed same.symm)⟩
  | spent | settled | popped | rested => exact schedules.elim

namespace Scheduler

variable {s : Scheduler σ ω}

theorem removed_changesOf {c : Call} {u : UnitId} (there : .removed u ∈ s.changesOf c) :
    c = .cancel u := by
  cases c with
  | activate v ticks => simp [changesOf] at there
  | activateAfter v usecs => simp [changesOf] at there
  | cancel v =>
    simp only [changesOf] at there
    split at there
    · cases List.mem_singleton.1 there
      rfl
    · cases there
  | consume ticks => simp [changesOf] at there
  | _ => cases there

/-- Calls of others leave the deadline of a unit. -/
theorem keeps_deadline [MediaStore σ] {c : Call} {u : UnitId} {r : Int} (passive : c.Passive)
    (spares : c.Spares u) (timely : s.agenda.Timely 0) (nodup : s.agenda.units.Nodup)
    (waits : (u, r) ∈ s.agenda.remaining) : (u, r) ∈ (s.perform c).2.agenda.remaining := by
  have schedules := schedules_changesOf (s := s) passive
  have kept : ∀ x ∈ s.changesOf c, x ≠ .removed u := by
    rintro x there rfl
    cases removed_changesOf there
    exact spares rfl
  rw [agenda_perform]
  rcases s.perform_moves c with ⟨none, -⟩ | ⟨x, one, -⟩
  · rwa [none]
  · rw [one] at schedules kept ⊢
    exact Change.keeps_deadline (schedules x List.mem_cons_self) (kept x List.mem_cons_self) timely
      nodup waits

theorem nears_deadline {u : UnitId} {r : Int} (ahead : s.agenda.Timely 1)
    (waits : (u, r) ∈ s.agenda.remaining) : (u, r - 1) ∈ (s.consume 1).agenda.remaining := by
  show (u, r - 1) ∈ (s.agenda.consume 1).remaining
  have least : (-1 : Int) ≤ 0 := by decide
  rw [remaining_consume (inRange_consume least ahead.soonest)]
  exact List.mem_map.2 ⟨_, waits, rfl⟩

end Scheduler

/-! ## Schedulers that nobody disturbs -/

/-- Neither the units of the device nor programs under the license spend ticks. -/
structure License.Timeless (l : License ω) : Prop where
  staff : ∀ u p, l.staff u = some p → p.Passive
  calls : ∀ c, l.calls c → c.Passive
  deeds : ∀ {α : Type} (m : Act ω α) next, l.deeds m → (∀ a, (next a).Passive) → (m next).Passive

/-- All callbacks but those of the device leave its units alone, and nothing in the queue is overdue. -/
structure Scheduler.Undisturbed (l : License ω) (s : Scheduler σ ω) : Prop extends s.Staffed l where
  nodup : s.agenda.units.Nodup
  timely : s.agenda.Timely 0

namespace Scheduler.Undisturbed

variable {l : License ω} {s t : Scheduler σ ω} {u : UnitId} {r : Int}

theorem calm (here : s.Undisturbed l) (timeless : l.Timeless) : s.Calm := by
  intro u
  cases staff : l.staff u with
  | some p =>
    have installed := here.action u p staff
    obtain ⟨-, idle, -⟩ := here.bare u p staff
    refine ⟨fun q action => ?_, fun k parked => by rw [idle] at parked; cases parked⟩
    rw [installed] at action
    cases action
    exact timeless.staff u p staff
  | none =>
    have slot := here.others u staff
    have passive : ∀ p : Program ω, p.Within l → p.Passive := fun p within =>
      within.passive timeless.calls timeless.deeds
    exact ⟨fun p action => passive p (slot.action p action),
      fun k parked outcome => passive _ (slot.parked k parked outcome)⟩

theorem of_same (here : s.Undisturbed l) (slots : ∀ u, t.slot u = s.slot u)
    (size : t.slots.size = s.slots.size) (agenda : t.agenda = s.agenda) : t.Undisturbed l :=
  ⟨here.toStaffed.of_slots slots size, agenda ▸ here.nodup, agenda ▸ here.timely⟩

theorem modifySlot (here : s.Undisturbed l) (other : l.staff u = none) (f : Slot ω → Slot ω)
    (carries : (f (s.slot u)).Carries (Program.Within l))
    (hooks : ∀ hook, (f (s.slot u)).hook = some hook → l.changes fun w => (hook w).2) :
    (s.modifySlot u f).Undisturbed l :=
  ⟨here.toStaffed.modifySlot other f carries hooks, here.nodup, here.timely⟩

theorem least (here : s.Undisturbed l) (waits : (u, r) ∈ s.agenda.remaining) : 0 ≤ r :=
  Int.le_trans (here.timely.soonest (queue_ne_nil_of_mem waits)) (here.timely.ordered.interval_le _ waits)

theorem settle (here : s.Undisturbed l) :
    Undisturbed l ({ s with agenda := s.agenda.settle } : Scheduler σ ω) := by
  refine ⟨here.toStaffed.of_same_slots rfl, ?_, timely_settle here.timely⟩
  rw [Agenda.units_settle]
  exact here.nodup

theorem rearm (here : s.Undisturbed l) (empty : s.agenda.queue = []) :
    Undisturbed l ({ s with agenda := s.agenda.rearm } : Scheduler σ ω) := by
  have still : s.agenda.rearm.queue = [] := by rw [queue_rearm, empty]
  refine ⟨here.toStaffed.of_same_slots rfl, ?_, timely_of_empty still⟩
  rw [Agenda.units, still]
  exact List.nodup_nil

theorem consume (here : s.Undisturbed l) (ahead : s.agenda.Timely 1) : (s.consume 1).Undisturbed l :=
  ⟨here.toStaffed.of_same_slots rfl, here.nodup, timely_consume (by decide) here.timely ahead.soonest⟩

/-- Taking a unit off the head that is due leaves the deadlines of all others; the unit itself is due now. -/
theorem pop (here : s.Undisturbed l) (settled : s.agenda.Settled) (due : s.agenda.interval.toInt ≤ 0)
    {agenda : Agenda} (popped : s.agenda.pop? = some (u, agenda)) :
    Undisturbed l ({ s with agenda } : Scheduler σ ω) ∧ agenda.Settled ∧ u ∉ agenda.units ∧
      (∀ v r, v ≠ u → (v, r) ∈ s.agenda.remaining → (v, r) ∈ agenda.remaining) ∧
      ∀ r, (u, r) ∈ s.agenda.remaining → r = 0 := by
  obtain ⟨possible, left⟩ := Scheduler.popped_of_pop? popped
  obtain ⟨rest, queue⟩ := id possible
  have at_head : s.agenda.interval.toInt = 0 := by
    have first := here.timely.soonest (by rw [queue]; exact List.cons_ne_nil _ _)
    omega
  obtain ⟨timely, folded⟩ := timely_popped here.timely queue due settled
  have nodup := here.nodup
  rw [Agenda.units_of_pop? popped, List.nodup_cons] at nodup
  rw [left] at timely folded
  refine ⟨⟨here.toStaffed.of_same_slots rfl, nodup.2, timely⟩, folded, nodup.1, fun v r other waits => ?_,
    fun r waits => (remaining_head possible here.nodup waits).trans at_head⟩
  have zero : s.agenda.reference.toInt = 0 := by
    rw [settled]
    exact at_head
  have behind : (v, r) ∈ s.agenda.remaining.tail := by
    rw [Agenda.remaining, queue] at waits ⊢
    exact (List.mem_cons.1 waits).resolve_left fun first => other (Prod.mk.inj first).1
  have moved := remaining_popped queue (exact_popped u settled)
  rw [left, zero] at moved
  rw [moved]
  exact List.mem_map.2 ⟨(v, r), behind, by simp⟩

theorem activate_due (here : s.Undisturbed l) (idle : u ∉ s.agenda.units) (ticks : Int32) :
    (u, max ticks.toInt 0) ∈ (s.activate u ticks).2.agenda.remaining := by
  rw [(activate_idle ticks idle).2, (remaining_insert (here.timely.fits ticks)).2, toInt_max_zero]
  exact List.mem_append_right _ List.mem_cons_self

variable [MediaStore σ]

theorem keeps_time (here : s.Undisturbed l) {c : Call} (passive : c.Passive) :
    (s.perform c).2.agenda.units.Nodup ∧ (s.perform c).2.agenda.Timely 0 ∧
      (s.agenda.Settled → (s.perform c).2.agenda.Settled) := by
  have possible := s.possible_changesOf c
  obtain ⟨-, timely, settled⟩ :=
    timely_of_schedules here.timely here.nodup possible (Scheduler.schedules_changesOf passive)
  rw [Scheduler.agenda_perform]
  exact ⟨nodup_after possible here.nodup, timely, settled⟩

theorem perform (here : s.Undisturbed l) {c : Call} (passive : c.Passive) (spares : l.Spares c) :
    (s.perform c).2.Undisturbed l :=
  have kept := here.keeps_time passive
  ⟨here.toStaffed.perform spares, kept.1, kept.2.1⟩

/-- Units of the device may be cancelled and scheduled as well, as long as that leaves them bare. -/
theorem cancel (here : s.Undisturbed l) (u : UnitId) : (s.cancel u).Undisturbed l :=
  have kept := here.keeps_time (c := .cancel u) trivial
  ⟨here.toStaffed.cancel u, kept.1, kept.2.1⟩

theorem activate (here : s.Undisturbed l) (u : UnitId) (ticks : Int32) :
    (s.activate u ticks).2.Undisturbed l ∧
      (s.agenda.Settled → (s.activate u ticks).2.agenda.Settled) :=
  have kept := here.keeps_time (c := .activate u ticks) trivial
  ⟨⟨here.toStaffed.of_slots (Scheduler.slot_activate u · ticks s) (Scheduler.size_activate u ticks s),
    kept.1, kept.2.1⟩, kept.2.2⟩

theorem keeps_deadline (here : s.Undisturbed l) {c : Call} (passive : c.Passive) (spares : c.Spares u)
    (waits : (u, r) ∈ s.agenda.remaining) : (u, r) ∈ (s.perform c).2.agenda.remaining :=
  Scheduler.keeps_deadline passive spares here.timely here.nodup waits

theorem ahead (here : s.Undisturbed l) (timeless : l.Timeless) {pops : Nat}
    (due : s.agenda.interval.toInt ≤ 0) (ended : s.processEvent pops = some (.ok (), t)) :
    t.agenda.Timely 1 :=
  ((Scheduler.processEvent_inTime (Int.le_refl 0) pops (here.calm timeless) here.nodup here.timely due).2
    _ _ ended).2.2 rfl

end Scheduler.Undisturbed

/-! ## Rounds -/

namespace Scheduler

variable [MediaStore σ] {P : List (Firing σ ω) → Scheduler σ ω → Prop} {s t : Scheduler σ ω} {pops : Nat}
  {result : Result}

/-- What holds of the firings so far, and goes on holding when a unit that is due has fired. -/
def Advances (P : List (Firing σ ω) → Scheduler σ ω → Prop) : Prop :=
  ∀ fired s pops u agenda result t, P fired s → s.agenda.interval.toInt ≤ 0 →
    s.agenda.pop? = some (u, agenda) →
    Firing.fire (σ := σ) ⟨pops, u, { s with agenda }⟩ = some (result, t) →
    P (fired ++ [⟨pops, u, { s with agenda }⟩]) t

theorem drain_round (steady : ∀ fired, Steady (P fired)) (advances : Advances P)
    {fired : List (Firing σ ω)} (holds : P fired s) (due : s.agenda.interval.toInt ≤ 0)
    (drained : drain pops s = some (result, t)) : P (fired ++ drainRound pops s) t := by
  induction pops generalizing s fired with
  | zero => simp [drain] at drained
  | succ pops ih =>
    rw [drain] at drained
    cases popped : s.agenda.pop? with
    | none =>
      rw [popped] at drained
      cases drained
      rwa [drainRound, popped, List.append_nil]
    | some next =>
      obtain ⟨u, agenda⟩ := next
      let f : Firing σ ω := ⟨pops, u, { s with agenda }⟩
      rw [popped] at drained
      cases ended : f.fire with
      | none =>
        have stuck : fire (process (drain pops)) u { s with agenda } = none := ended
        simp only [stuck, reduceCtorEq] at drained
      | some answer =>
        obtain ⟨result', t'⟩ := answer
        have fires : fire (process (drain pops)) u { s with agenda } = some (result', t') := ended
        simp only [fires] at drained
        have after := (steady _).tellAnomaly (advances _ _ _ _ _ _ _ holds due popped ended) u result'
        have whole : fired ++ drainRound (pops + 1) s =
            (fired ++ [f]) ++ if (t'.tellAnomaly u result').goesOn result' then
              drainRound pops (t'.tellAnomaly u result') else [] := by
          simp only [drainRound, popped, List.append_assoc, List.singleton_append]
          rw [ended]
        rw [whole]
        split at drained
        · rename_i on
          rw [if_pos on]
          exact ih after (goesOn_iff.1 on).2.1 drained
        · rename_i off
          rw [if_neg off, List.append_nil]
          cases drained
          exact after

/-- What every firing of a round goes on with holds when a dispatch has ended, unless it was refused. -/
theorem processEvent_round (steady : ∀ fired, Steady (P fired)) (advances : Advances P)
    (holds : P [] { s with agenda := s.agenda.settle }) (due : s.agenda.interval.toInt ≤ 0)
    (clear : s.stop = false) (ended : s.processEvent pops = some (result, t)) : P (s.round pops) t := by
  have open' : ¬s.stop = true := by rw [clear]; exact Bool.false_ne_true
  simp only [processEvent, process] at ended
  rw [if_neg open'] at ended
  rw [round, if_neg open']
  split at ended
  · rename_i empty
    cases ended
    have none : drainRound pops { s with agenda := s.agenda.settle, dispatching := true } = [] := by
      cases pops with
      | zero => rfl
      | succ pops =>
        have nothing : s.agenda.settle.pop? = none := by
          rw [Agenda.pop?_eq_none_iff, Agenda.units, List.isEmpty_iff.1 empty]
          rfl
        rw [drainRound]
        simp only [nothing]
    rw [none]
    exact (steady []).tell _ _ ((steady []).rearm _ holds (List.isEmpty_iff.1 empty))
  · split at ended
    · cases ended
    · rename_i result' t' drained
      have soon : s.agenda.settle.interval.toInt ≤ 0 := by rwa [interval_settle]
      have last := (steady _).conclude
        (drain_round steady advances ((steady []).dispatching _ true holds) soon drained) result'
      rwa [Option.some.inj ended] at last

end Scheduler

end Peripheral
