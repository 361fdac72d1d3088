import Peripheral.Proofs.Ledger

/-!
# Changes that come in time

A run that looks at its queue whenever the interval has run out and spends one tick at a time never
leaves a unit overdue by more than a tick. Such runs overflow nowhere: all remaining ticks stay in
the range of tick counts.

* `Agenda.Timely k` : the head is due no earlier than in `k` ticks, and nothing is due later than
  the range of tick counts reaches;
* `Agenda.Settled` : no ticks have been spent that are not folded into simulated time;
* `Change.InTime`, `Change.Prompt k` : changes made in time, without and with ticks spent, for `k`
  from `-1` to `0`;
* `timely_insert`, `timely_remove`, `timely_popped`, `timely_consume` : what keeps an agenda timely;
* `timely_apply` : **prompt changes keep an agenda timely, and nothing overflows in them**.
-/

namespace Peripheral
open Ticks

/-- The head is due no earlier than in `k` ticks, no offset after it is negative, and all remaining
ticks, counted from the head where it is overdue, are tick counts. -/
structure Agenda.Timely (k : Int) (a : Agenda) : Prop where
  soonest : a.queue ≠ [] → k ≤ a.interval.toInt
  ordered : a.Ordered
  within : ∀ x ∈ a.remaining, x.2 + max (-a.interval.toInt) 0 ≤ 2147483647

/-- No ticks have been spent since simulated time was last settled. -/
def Agenda.Settled (a : Agenda) : Prop := a.reference = a.interval

/-- A change that spends no ticks and is made in time: the queue is changed while the head is not
overdue, and only units that are due are taken off it. -/
def Change.InTime (a : Agenda) : Change → Prop
  | .spent _ => False
  | .queued _ _ | .removed _ => a.queue ≠ [] → 0 ≤ a.interval.toInt
  | .popped _ offset => a.interval.toInt ≤ 0 ∧ offset = a.interval
  | .settled | .rested => True

/-- A change made in time, or a single tick spent while the head is due in more than `k` ticks. -/
def Change.Prompt (k : Int) (a : Agenda) : Change → Prop
  | .spent ticks => ticks = 1 ∧ (a.queue ≠ [] → k + 1 ≤ a.interval.toInt)
  | c => c.InTime a

theorem Change.InTime.prompt {a : Agenda} {c : Change} (k : Int) (h : c.InTime a) :
    c.Prompt k a := by
  cases c with
  | spent ticks => exact h.elim
  | _ => exact h

/-! ## Timely agendas by their remaining ticks -/

section
variable {a : Agenda} {k : Int}

theorem queue_ne_nil_of_mem {x : UnitId × Int} (there : x ∈ a.remaining) : a.queue ≠ [] := by
  intro empty
  simp [Agenda.remaining, empty] at there

/-- The head has the least remaining ticks. -/
theorem Agenda.Ordered.interval_le (ordered : a.Ordered) :
    ∀ x ∈ a.remaining, a.interval.toInt ≤ x.2 := by
  unfold Agenda.Ordered at ordered
  unfold Agenda.remaining
  cases queue : a.queue with
  | nil => simp
  | cons e rest =>
    rw [queue, List.tail_cons] at ordered
    intro x there
    rcases List.mem_cons.1 there with rfl | there
    · exact Int.le_refl _
    · exact (sorted_remainingAfter _ ordered).1 x there

theorem Agenda.Timely.mono {less : Int} (timely : a.Timely k) (h : less ≤ k) : a.Timely less :=
  { timely with soonest := fun pending => Int.le_trans h (timely.soonest pending) }

theorem Agenda.Timely.remaining_range (timely : a.Timely 0) :
    ∀ x ∈ a.remaining, 0 ≤ x.2 ∧ x.2 ≤ 2147483647 := by
  intro x there
  have first := timely.soonest (queue_ne_nil_of_mem there)
  have least := timely.ordered.interval_le x there
  have most := timely.within x there
  omega

theorem timely_of_remaining (ordered : a.Ordered)
    (range : ∀ x ∈ a.remaining, 0 ≤ x.2 ∧ x.2 ≤ 2147483647) : a.Timely 0 := by
  have soonest : a.queue ≠ [] → 0 ≤ a.interval.toInt := by
    intro pending
    cases queue : a.queue with
    | nil => exact absurd queue pending
    | cons e rest => exact (range (e.unit, a.interval.toInt) (by simp [Agenda.remaining, queue])).1
  refine ⟨soonest, ordered, fun x there => ?_⟩
  have first := soonest (queue_ne_nil_of_mem there)
  have most := (range x there).2
  omega

theorem timely_of_empty (empty : a.queue = []) : a.Timely k := by
  refine ⟨fun pending => absurd empty pending, ?_, ?_⟩
  · simp [Agenda.Ordered, empty]
  · simp [Agenda.remaining, empty]

theorem settled_rearm (a : Agenda) : a.rearm.Settled := by
  unfold Agenda.rearm Agenda.Settled Agenda.reference
  cases queue : a.queue with
  | nil => rfl
  | cons e rest => simp

theorem settled_settle (a : Agenda) : a.settle.Settled := by
  unfold Agenda.settle Agenda.Settled Agenda.reference
  cases a.queue <;> rfl

/-! ## Changes of the queue -/

theorem Agenda.Timely.fits (timely : a.Timely 0) (ticks : Int32) : a.Fits ticks := by
  intro x there
  have range := timely.remaining_range x there
  have most := inRange_iff.1 (inRange_toInt ticks)
  rw [toInt_max_zero, inRange_iff, inRange_iff]
  omega

theorem timely_insert {u : UnitId} {ticks : Int32} (timely : a.Timely 0) :
    (a.insert u ticks).Timely 0 ∧ (a.insert u ticks).Settled := by
  obtain ⟨exact, booked⟩ := remaining_insert (u := u) (timely.fits ticks)
  refine ⟨timely_of_remaining (ordered_insert exact timely.ordered) fun x there => ?_,
    settled_rearm _⟩
  have most := inRange_iff.1 (inRange_toInt ticks)
  rw [booked, book, List.mem_append, List.mem_cons] at there
  rcases there with early | rfl | late
  · exact timely.remaining_range x (List.takeWhile_subset _ early)
  · rw [toInt_max_zero]
    dsimp only
    omega
  · exact timely.remaining_range x (List.dropWhile_subset _ late)

/-- Offsets that are not negative and add up to tick counts can be merged. -/
theorem unlinkExact_of_range {u : UnitId} {passed : Int} {q : List Entry} (start : 0 ≤ passed)
    (nonneg : ∀ e ∈ q, 0 ≤ e.offset.toInt)
    (range : ∀ x ∈ remainingAfter passed q, x.2 ≤ 2147483647) : UnlinkExact u q := by
  induction q generalizing passed with
  | nil => trivial
  | cons e rest ih =>
    have here := nonneg e List.mem_cons_self
    rw [UnlinkExact]
    split
    · intro f first
      cases rest with
      | nil => simp at first
      | cons g rest =>
        rw [List.head?_cons, Option.mem_some_iff] at first
        subst first
        have next := nonneg g (by simp)
        have sum := range (g.unit, passed + e.offset.toInt + g.offset.toInt)
          (by simp [remainingAfter])
        rw [inRange_iff]
        dsimp only at sum
        omega
    · exact ih (by omega : 0 ≤ passed + e.offset.toInt)
        (fun f there => nonneg f (List.mem_cons_of_mem _ there))
        fun x there => range x (List.mem_cons_of_mem _ there)

theorem Agenda.Timely.unlinkExact (timely : a.Timely 0) (u : UnitId) :
    (Change.removed u).Exact a := by
  show UnlinkExact u a.settle.queue
  refine unlinkExact_of_range (Int.le_refl 0) ?_ ?_
  · intro e there
    have behind := timely.ordered
    unfold Agenda.Ordered at behind
    rw [← queue_tail_settle] at behind
    cases queue : a.queue with
    | nil => simp [Agenda.settle, queue] at there
    | cons f rest =>
      have settled : a.settle.queue = { f with offset := a.interval } :: rest := by
        simp [Agenda.settle, queue]
      rw [settled] at there behind
      rcases List.mem_cons.1 there with rfl | there
      · exact timely.soonest (by simp [queue])
      · exact behind e there
  · rw [remainingAfter_settle]
    exact fun x there => (timely.remaining_range x there).2

theorem timely_remove {u : UnitId} (timely : a.Timely 0) (nodup : a.units.Nodup)
    (pending : u ∈ a.units) : (a.remove u).Timely 0 ∧ (a.remove u).Settled := by
  have exact := timely.unlinkExact u
  refine ⟨timely_of_remaining (ordered_remove exact timely.ordered) fun x there => ?_, ?_⟩
  · rw [remaining_remove nodup exact] at there
    exact timely.remaining_range x (List.mem_filter.1 there).1
  · unfold Agenda.remove
    rw [if_pos (Agenda.isActive_iff.2 pending)]
    exact settled_rearm _

@[simp] theorem interval_settle (a : Agenda) : a.settle.interval = a.interval := by
  unfold Agenda.settle
  cases a.queue <;> rfl

theorem queue_settle_eq_nil : a.settle.queue = [] ↔ a.queue = [] := by
  unfold Agenda.settle
  cases queue : a.queue <;> simp

theorem timely_settle (timely : a.Timely k) : a.settle.Timely k := by
  refine ⟨fun pending => ?_, ?_, ?_⟩
  · rw [interval_settle]
    exact timely.soonest fun empty => pending (queue_settle_eq_nil.2 empty)
  · unfold Agenda.Ordered
    rw [queue_tail_settle]
    exact timely.ordered
  · rw [remaining_settle, interval_settle]
    exact timely.within

theorem exact_popped (u : UnitId) {offset : Int32} (due : offset = a.interval) :
    (Change.popped u offset).Exact a := by
  have zero : a.interval.toInt - offset.toInt = 0 := by
    rw [due]
    exact Int.sub_self _
  refine ⟨by rw [zero, inRange_iff]; omega, fun f _ => ?_⟩
  rw [zero, Int.zero_add]
  exact inRange_toInt _

theorem timely_popped {u : UnitId} {offset : Int32} {rest : List Entry} (timely : a.Timely k)
    (queue : a.queue = ⟨u, offset⟩ :: rest) (due : a.interval.toInt ≤ 0)
    (settled : offset = a.interval) :
    ((Change.popped u offset).apply a).Timely 0 ∧
      ((Change.popped u offset).apply a).Settled := by
  have exact := exact_popped u settled
  have possible : (Change.popped u offset).Possible a := ⟨rest, queue⟩
  have ordered := Change.ordered_apply possible exact timely.ordered
  have left := remaining_popped queue exact
  have least := timely.ordered.interval_le
  refine ⟨timely_of_remaining ordered fun x there => ?_, ?_⟩
  · rw [left, List.mem_map] at there
    obtain ⟨y, behind, rfl⟩ := there
    have within := timely.within y (List.mem_of_mem_tail behind)
    have after := least y (List.mem_of_mem_tail behind)
    rw [settled]
    dsimp only
    omega
  · cases rest with
    | nil =>
      simp only [Change.apply, Agenda.pop?, queue, Option.map_some, Option.getD_some]
      exact settled_rearm _
    | cons f rest =>
      simp only [Change.apply, Agenda.pop?, queue, Option.map_some, Option.getD_some]
      show f.offset = a.interval - offset + f.offset
      rw [settled, Int32.sub_self, Int32.zero_add]

theorem inRange_consume (start : -1 ≤ k) (soonest : a.queue ≠ [] → k + 1 ≤ a.interval.toInt) :
    a.queue ≠ [] → InRange (a.interval.toInt - (1 : Int32).toInt) := by
  intro pending
  have one : (1 : Int32).toInt = 1 := rfl
  have first := soonest pending
  have most := inRange_iff.1 (inRange_toInt a.interval)
  rw [one, inRange_iff]
  omega

theorem timely_consume (start : -1 ≤ k) (timely : a.Timely k)
    (soonest : a.queue ≠ [] → k + 1 ≤ a.interval.toInt) : (a.consume 1).Timely k := by
  have one : (1 : Int32).toInt = 1 := rfl
  have exact := inRange_consume start soonest
  have spent : a.queue ≠ [] → (a.interval - 1).toInt = a.interval.toInt - 1 := fun pending =>
    toInt_sub (exact pending)
  refine ⟨fun pending => ?_, timely.ordered, fun x there => ?_⟩
  · show k ≤ (a.interval - 1).toInt
    have first := soonest pending
    rw [spent pending]
    omega
  · have pending : (a.consume 1).queue ≠ [] := queue_ne_nil_of_mem there
    rw [remaining_consume exact, List.mem_map] at there
    obtain ⟨y, there, rfl⟩ := there
    have within := timely.within y there
    have first := soonest pending
    show y.2 - (1 : Int32).toInt + max (-(a.interval - 1).toInt) 0 ≤ 2147483647
    rw [spent pending, one]
    omega

end

/-- Prompt changes keep an agenda timely, and nothing overflows in them. -/
theorem timely_apply {a : Agenda} {c : Change} {k : Int} (start : -1 ≤ k) (finish : k ≤ 0)
    (nodup : a.units.Nodup) (possible : c.Possible a) (prompt : c.Prompt k a)
    (timely : a.Timely k) : c.Faithful a ∧ (c.apply a).Timely k := by
  cases c with
  | spent ticks =>
    obtain ⟨rfl, soonest⟩ := prompt
    exact ⟨inRange_consume start soonest, timely_consume start timely soonest⟩
  | queued u ticks =>
    have ahead : a.Timely 0 := { timely with soonest := prompt }
    exact ⟨ahead.fits ticks, (timely_insert ahead).1.mono finish⟩
  | removed u =>
    have ahead : a.Timely 0 := { timely with soonest := prompt }
    exact ⟨ahead.unlinkExact u, (timely_remove ahead nodup possible).1.mono finish⟩
  | settled => exact ⟨trivial, timely_settle timely⟩
  | popped u offset =>
    obtain ⟨due, settled⟩ := prompt
    obtain ⟨rest, queue⟩ := possible
    exact ⟨exact_popped u settled, (timely_popped timely queue due settled).1.mono finish⟩
  | rested =>
    have empty : a.rearm.queue = [] := by
      rw [queue_rearm]
      exact possible
    exact ⟨trivial, timely_of_empty empty⟩

theorem timely_after {a : Agenda} {h : List Change} {k : Int} (start : -1 ≤ k) (finish : k ≤ 0)
    (nodup : a.units.Nodup) (possible : Trail Change.Possible a h)
    (prompt : Trail (Change.Prompt k) a h) (timely : a.Timely k) :
    Trail Change.Faithful a h ∧ (a.after h).Timely k := by
  induction h generalizing a with
  | nil => exact ⟨trivial, timely⟩
  | cons c h ih =>
    obtain ⟨faithful, next⟩ := timely_apply start finish nodup possible.1 prompt.1 timely
    obtain ⟨rest, last⟩ :=
      ih (Change.nodup_apply possible.1 nodup) possible.2 prompt.2 next
    exact ⟨⟨faithful, rest⟩, last⟩

end Peripheral
