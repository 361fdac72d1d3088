import Peripheral.Proofs.Events
import Peripheral.Proofs.Punctual

/-!
# A unit that waits is not brought forward

* `mem_remaining_insert`, `remaining_consume_ge` : insertion leaves the other deadlines, and a unit is
  due no earlier than asked for; spent ticks bring a deadline nearer by no more than their number, even
  where the interval wraps around;
* `Change.Patient` : no ticks are spent backwards and no dispatch looks at the queue too early;
* `Change.keeps_waiting` : **no patient change brings a waiting unit forward**;
* `Promised l u deadline` : after some events a unit holds a finished transfer that must not be handed
  over before a deadline (`promised_concat`);
* `Heeds` : no promise is broken in the course of events.
-/

namespace Peripheral
open Ticks

/-! ## Deadlines through single changes -/

/-- An entry is placed at its ticks or, where the sum of the offsets before it has stuck at the end of
the range, later; the others stay where they are. -/
theorem mem_remainingAfter_place {u : UnitId} {ticks passed : Int32} {sum : Int} {q : List Entry}
    (exact : PlaceExact ticks passed q)
    (tracks : sum = passed.toInt ∨
      passed.toInt ≤ sum ∧ passed = ticks ∧ ticks.toInt = 2147483647 ∧
        ∀ e ∈ q.head?, 0 ≤ e.offset.toInt)
    (first : ∀ e ∈ q.head?, -2147483648 ≤ passed.toInt + e.offset.toInt)
    (nonneg : ∀ e ∈ q.tail, 0 ≤ e.offset.toInt) :
    (∀ x ∈ remainingAfter sum q, x ∈ remainingAfter sum (Agenda.place u ticks passed q)) ∧
      ∃ r, (u, r) ∈ remainingAfter sum (Agenda.place u ticks passed q) ∧ ticks.toInt ≤ r := by
  fun_induction Agenda.place u ticks passed q generalizing sum with
  | case1 passed =>
    have difference := toInt_sub exact
    refine ⟨by simp [remainingAfter], sum + (ticks - passed).toInt, by simp [remainingAfter], ?_⟩
    rw [difference]
    omega
  | case2 passed e rest reached =>
    rename_i soon
    rw [PlaceExact, if_pos soon] at exact
    obtain ⟨before, after⟩ := exact
    have most := inRange_iff.1 (inRange_toInt reached)
    rw [Int32.lt_iff_toInt_lt] at soon
    have here : sum = passed.toInt := by
      rcases tracks with same | ⟨-, -, last, -⟩
      · exact same
      · omega
    have place : sum + (ticks - passed).toInt = ticks.toInt := by
      rw [toInt_sub before, here]
      omega
    have next : ticks.toInt + (e.offset - (ticks - passed)).toInt = sum + e.offset.toInt := by
      rw [toInt_sub after, toInt_sub before, here]
      omega
    simp only [remainingAfter, place, next]
    exact ⟨fun x there => List.mem_cons_of_mem _ there, ticks.toInt, List.mem_cons_self,
      Int.le_refl _⟩
  | case3 passed e rest reached =>
    rename_i late ih
    rw [PlaceExact, if_neg late] at exact
    rw [Int32.lt_iff_toInt_lt, Int.not_lt] at late
    have least := first e rfl
    have stuck : reached.toInt = max (-2147483648) (min 2147483647 (passed.toInt + e.offset.toInt)) :=
      toInt_addSat _ _
    have most := inRange_iff.1 (inRange_toInt ticks)
    have step : ∀ f ∈ rest, 0 ≤ f.offset.toInt := nonneg
    have still : sum + e.offset.toInt = reached.toInt ∨
        reached.toInt ≤ sum + e.offset.toInt ∧ reached = ticks ∧ ticks.toInt = 2147483647 ∧
          ∀ f ∈ rest.head?, 0 ≤ f.offset.toInt := by
      by_cases fits : sum + e.offset.toInt = reached.toInt
      · exact .inl fits
      · have up : reached.toInt ≤ sum + e.offset.toInt ∧ reached.toInt = ticks.toInt ∧
            ticks.toInt = 2147483647 := by
          rcases tracks with same | ⟨less, same, last, forward⟩
          · omega
          · have ahead := forward e rfl
            have high : passed.toInt = ticks.toInt := by rw [same]
            omega
        exact .inr ⟨up.1, Int32.toInt_inj.1 up.2.1, up.2.2,
          fun f there => step f (List.mem_of_mem_head? there)⟩
    obtain ⟨keeps, r, placed, later⟩ := ih exact still
      (fun f there => by
        have forward := step f (List.mem_of_mem_head? there)
        have low := inRange_iff.1 (inRange_toInt reached)
        omega)
      (fun f there => step f (List.mem_of_mem_tail there))
    simp only [remainingAfter]
    refine ⟨fun x there => ?_, r, List.mem_cons_of_mem _ placed, later⟩
    rcases List.mem_cons.1 there with rfl | there
    · exact List.mem_cons_self
    · exact List.mem_cons_of_mem _ (keeps x there)

/-- Insertion leaves the deadlines of the others, and a unit is due no earlier than asked for. -/
theorem mem_remaining_insert {u : UnitId} {ticks : Int32} {a : Agenda}
    (exact : (Change.queued u ticks).Exact a) (ordered : a.Ordered) :
    (∀ x ∈ a.remaining, x ∈ (a.insert u ticks).remaining) ∧
      ∃ r, (u, r) ∈ (a.insert u ticks).remaining ∧ max ticks.toInt 0 ≤ r := by
  have zero : (0 : Int32).toInt = 0 := rfl
  unfold Agenda.Ordered at ordered
  rw [← queue_tail_settle] at ordered
  obtain ⟨keeps, placed⟩ := mem_remainingAfter_place (u := u) exact (.inl zero.symm)
    (fun e _ => by
      have low := inRange_iff.1 (inRange_toInt e.offset)
      omega) ordered
  rw [remainingAfter_settle] at keeps
  rw [toInt_max_zero] at placed
  rw [Agenda.insert, remaining_rearm]
  exact ⟨keeps, placed⟩

/-- Spent ticks bring a deadline nearer by no more than their number. -/
theorem remaining_consume_ge {u : UnitId} {r : Int} {ticks : Int32} {a : Agenda}
    (nonneg : 0 ≤ ticks.toInt) (waits : (u, r) ∈ a.remaining) :
    ∃ r', (u, r') ∈ (a.consume ticks).remaining ∧ r ≤ r' + ticks.toInt := by
  have sooner := toInt_sub_ge (a := a.interval) nonneg
  unfold Agenda.consume
  unfold Agenda.remaining at waits ⊢
  cases queue : a.queue with
  | nil => simp [queue] at waits
  | cons e rest =>
    simp only [queue] at waits ⊢
    have moved : (a.interval - ticks).toInt =
        a.interval.toInt + ((a.interval - ticks).toInt - a.interval.toInt) := by omega
    rcases List.mem_cons.1 waits with here | behind
    · rw [Prod.mk.injEq] at here
      refine ⟨(a.interval - ticks).toInt, ?_, by omega⟩
      rw [here.1]
      exact List.mem_cons_self
    · refine ⟨r + ((a.interval - ticks).toInt - a.interval.toInt),
        List.mem_cons_of_mem _ ?_, by omega⟩
      rw [moved, remainingAfter_add]
      exact List.mem_map.2 ⟨(u, r), behind, by rw [← moved]⟩

/-! ## Patient changes -/

/-- A change that spends no negative number of ticks and folds time in, as every dispatch does first,
only when the interval has run out. -/
def Change.Patient (a : Agenda) : Change → Prop
  | .spent ticks => 0 ≤ ticks.toInt
  | .settled => a.interval.toInt ≤ 0
  | _ => True

instance (a : Agenda) (c : Change) : Decidable (c.Patient a) :=
  match c with
  | .spent ticks => inferInstanceAs (Decidable (0 ≤ ticks.toInt))
  | .settled => inferInstanceAs (Decidable (a.interval.toInt ≤ 0))
  | .queued _ _ | .removed _ | .popped _ _ | .rested => inferInstanceAs (Decidable True)

theorem Change.Patient.ticks_nonneg {a : Agenda} {c : Change} (patient : c.Patient a) :
    0 ≤ c.ticks := by
  cases c with
  | spent ticks => exact patient
  | _ => exact Int.le_refl 0

/-- A unit that is taken off the head is due, and all spent ticks have been folded in. -/
def Change.Due (a : Agenda) : Change → Prop
  | .popped _ _ => a.Settled ∧ a.interval.toInt ≤ 0
  | _ => True

section
variable {a : Agenda} {c : Change} {u : UnitId} {r : Int}

theorem remaining_popped_ge {v : UnitId} {offset : Int32} (possible : (Change.popped v offset).Possible a)
    (settled : a.Settled) (due : a.interval.toInt ≤ 0) (other : v ≠ u) (waits : (u, r) ∈ a.remaining) :
    ∃ r', (u, r') ∈ ((Change.popped v offset).apply a).remaining ∧ r ≤ r' := by
  obtain ⟨rest, queue⟩ := possible
  have same : offset = a.interval := by
    unfold Agenda.Settled Agenda.reference at settled
    rw [queue] at settled
    exact settled
  have behind : (u, r) ∈ a.remaining.tail := by
    unfold Agenda.remaining at waits ⊢
    rw [queue] at waits ⊢
    rcases List.mem_cons.1 waits with here | behind
    · exact absurd (Prod.mk.inj here).1.symm other
    · exact behind
  rw [remaining_popped queue (exact_popped v same)]
  exact ⟨r - offset.toInt, List.mem_map.2 ⟨(u, r), behind, rfl⟩, by rw [same]; omega⟩

/-- No patient change brings a waiting unit forward. -/
theorem Change.keeps_waiting (possible : c.Possible a) (exact : c.Exact a) (patient : c.Patient a)
    (due : c.Due a) (ordered : a.Ordered) (nodup : a.units.Nodup) (stays : ¬c.Ends u)
    (waits : (u, r) ∈ a.remaining) :
    ∃ r', (u, r') ∈ (c.apply a).remaining ∧ r ≤ r' + c.ticks := by
  cases c with
  | spent ticks => exact remaining_consume_ge patient waits
  | queued v ticks =>
    exact ⟨r, (mem_remaining_insert exact ordered).1 _ waits, Int.le_of_eq (Int.add_zero r).symm⟩
  | removed v =>
    refine ⟨r, ?_, Int.le_of_eq (Int.add_zero r).symm⟩
    rw [Change.apply, remaining_remove nodup exact, List.mem_filter]
    exact ⟨waits, by simpa using fun same => stays (Eq.symm same)⟩
  | settled =>
    refine ⟨r, ?_, Int.le_of_eq (Int.add_zero r).symm⟩
    rwa [Change.apply, remaining_settle]
  | popped v offset =>
    obtain ⟨r', still, later⟩ := remaining_popped_ge possible due.1 due.2 stays waits
    exact ⟨r', still, by simpa [Change.ticks] using later⟩
  | rested => exact absurd possible (queue_ne_nil_of_mem waits)

theorem remaining_head {offset : Int32} (possible : (Change.popped u offset).Possible a)
    (nodup : a.units.Nodup) (waits : (u, r) ∈ a.remaining) : r = a.interval.toInt := by
  obtain ⟨rest, queue⟩ := possible
  unfold Agenda.units at nodup
  rw [queue, List.map_cons, List.nodup_cons] at nodup
  unfold Agenda.remaining at waits
  rw [queue] at waits
  rcases List.mem_cons.1 waits with here | behind
  · exact (Prod.mk.inj here).2
  · refine absurd ?_ nodup.1
    rw [← map_fst_remainingAfter a.interval.toInt rest]
    exact List.mem_map.2 ⟨(u, r), behind, rfl⟩

theorem mem_units_of_remaining (waits : (u, r) ∈ a.remaining) : u ∈ a.units := by
  rw [← map_fst_remaining]
  exact List.mem_map.2 ⟨(u, r), waits, rfl⟩

theorem remaining_of_mem_units (pending : u ∈ a.units) : ∃ r, (u, r) ∈ a.remaining := by
  rw [← map_fst_remaining] at pending
  obtain ⟨⟨v, r⟩, there, rfl⟩ := List.mem_map.1 pending
  exact ⟨r, there⟩

end

/-! ## The legs of a delay -/

section
variable {σ ω : Type} (s : Scheduler σ ω)

theorem legs_nonnegative (usecs : Float) : s.legs (nonnegative usecs) = s.legs usecs := by
  unfold Scheduler.legs
  rw [nonnegative_nonnegative]

theorem legs_of_not_pos {usecs : Float} (h : ¬usecs > 0) : s.legs usecs = (0, 0) := by
  have none : nonnegative usecs = 0 := if_neg h
  obtain ⟨short, zero⟩ := ofFloat_zero_mul s.rate
  unfold Scheduler.legs
  rw [none]
  dsimp only [Scheduler.ticksOf]
  rw [if_neg short, zero]

end

/-! ## Promises -/

/-- Whether an event ends the wait of the transfer that a unit holds. -/
def Event.Ends (u : UnitId) : Event → Prop
  | .changed (.removed v) | .parked v _ _ | .delivered v => v = u
  | .changed _ => False

instance (u : UnitId) (e : Event) : Decidable (e.Ends u) :=
  match e with
  | .changed (.removed v) | .parked v _ _ | .delivered v => inferInstanceAs (Decidable (v = u))
  | .changed (.spent _) | .changed (.queued _ _) | .changed .settled | .changed (.popped _ _)
  | .changed .rested => inferInstanceAs (Decidable False)

/-- After the events `l`, a unit holds a finished transfer that was left with it while it was idle and
whose wait is covered by a tick count; it has neither been taken out of the queue since nor handed the
transfer over. The deadline is the time of that moment plus the wait. -/
def Promised (idleWait : Int32) (l : List Event) (u : UnitId) (deadline : Int) : Prop :=
  ∃ before ticks since, l = before ++ .parked u ticks 0 :: since ∧ (∀ e ∈ since, ¬e.Ends u) ∧
    u ∉ ((Agenda.start idleWait).after (changesIn before)).units ∧
    deadline = elapsed (changesIn before) + max ticks.toInt 0

/-- A promise either stood before the last event, which has not ended it, or was made by that event. -/
theorem promised_concat {idleWait : Int32} {l : List Event} {e : Event} {u : UnitId} {deadline : Int}
    (promised : Promised idleWait (l ++ [e]) u deadline) :
    ¬e.Ends u ∧ Promised idleWait l u deadline ∨
      ∃ ticks, e = .parked u ticks 0 ∧ u ∉ ((Agenda.start idleWait).after (changesIn l)).units ∧
        deadline = elapsed (changesIn l) + max ticks.toInt 0 := by
  obtain ⟨before, ticks, since, split, lasts, idle, same⟩ := promised
  rcases List.eq_nil_or_concat since with rfl | ⟨since', f, rfl⟩
  · obtain ⟨rfl, last⟩ := List.append_inj' split rfl
    exact .inr ⟨ticks, (List.cons.inj last).1, idle, same⟩
  · rw [List.concat_eq_append] at split lasts
    rw [← List.cons_append, ← List.append_assoc] at split
    obtain ⟨rfl, last⟩ := List.append_inj' split rfl
    refine .inl ⟨?_, before, ticks, since', rfl, fun d there => lasts d ?_, idle, same⟩
    · rw [(List.cons.inj last).1]
      exact lasts f (List.mem_append_right _ List.mem_cons_self)
    · exact List.mem_append_left _ there

theorem not_promised_nil {idleWait : Int32} {u : UnitId} {deadline : Int} :
    ¬Promised idleWait [] u deadline := by
  rintro ⟨before, ticks, since, split, -⟩
  simp at split

/-- No sum or difference has overflowed, no ticks were spent backwards, and nobody has dispatched too
early. -/
def Smooth (idleWait : Int32) (l : List Event) : Prop :=
  Trail Change.Exact (.start idleWait) (changesIn l) ∧
    Trail Change.Patient (.start idleWait) (changesIn l)

theorem Smooth.of_append {idleWait : Int32} {l l' : List Event} (smooth : Smooth idleWait (l ++ l')) :
    Smooth idleWait l := by
  unfold Smooth at smooth
  rw [changesIn_append, Trail.append, Trail.append] at smooth
  exact ⟨smooth.1.1, smooth.2.1⟩

/-- A transfer is not handed over before its deadline, provided that all has gone smoothly. -/
def Event.Heeded (idleWait : Int32) (past : List Event) : Event → Prop
  | .delivered u => Smooth idleWait past → ∀ deadline, Promised idleWait past u deadline →
      deadline ≤ elapsed (changesIn past)
  | _ => True

/-- No event breaks a promise made before it. -/
def Heeds (idleWait : Int32) : List Event → List Event → Prop
  | _, [] => True
  | past, e :: l => e.Heeded idleWait past ∧ Heeds idleWait (past ++ [e]) l

theorem heeds_append {idleWait : Int32} {past l l' : List Event} :
    Heeds idleWait past (l ++ l') ↔ Heeds idleWait past l ∧ Heeds idleWait (past ++ l) l' := by
  induction l generalizing past with
  | nil => simp [Heeds]
  | cons e l ih => simp [Heeds, ih, and_assoc]

theorem heeds_changes {idleWait : Int32} (past : List Event) (h : List Change) :
    Heeds idleWait past (h.map .changed) := by
  induction h generalizing past with
  | nil => trivial
  | cons c h ih => exact ⟨trivial, ih _⟩

end Peripheral
