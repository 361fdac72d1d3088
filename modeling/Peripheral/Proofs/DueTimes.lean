import Peripheral.Proofs.Bookings
import Peripheral.Proofs.Callbacks

/-!
# When a unit is said to be due

A unit that is asked about is told one plus the ticks until it is due. A head that is overdue counts
as due now there, while the units behind it keep their distance to it: they are told a later time than
the ticks that remain, by as much as the head is overdue.

* `lateness` : ticks by which the first of the pending units is overdue; booking a unit does not change
  it (`lateness_book`);
* `dueIn_of_remaining` : what a pending unit is told;
* `activationTime_of_activated` : **a unit just scheduled is told one more than it asked for, plus the
  ticks by which the head is overdue**.
-/

namespace Peripheral
open Ticks

/-! ## The head of the queue -/

/-- Ticks by which the first of some units with their remaining ticks is overdue. -/
def lateness : List (UnitId × Int) → Int
  | [] => 0
  | x :: _ => max (-x.2) 0

theorem lateness_eq_zero_iff {due : List (UnitId × Int)} (sorted : due.Pairwise (·.2 ≤ ·.2)) :
    lateness due = 0 ↔ ∀ x ∈ due, 0 ≤ x.2 := by
  cases due with
  | nil => exact ⟨fun _ _ there => absurd there List.not_mem_nil, fun _ => rfl⟩
  | cons x due =>
    have least := (List.pairwise_cons.1 sorted).1
    have first : lateness (x :: due) = 0 ↔ 0 ≤ x.2 := by
      show max (-x.2) 0 = 0 ↔ 0 ≤ x.2
      omega
    rw [first]
    refine ⟨fun on_time y there => ?_, fun on_time => on_time x List.mem_cons_self⟩
    rcases List.mem_cons.1 there with rfl | behind
    · exact on_time
    · exact Int.le_trans on_time (least y behind)

theorem lateness_book {u : UnitId} {ticks : Int} (nonneg : 0 ≤ ticks) (due : List (UnitId × Int)) :
    lateness (book u ticks due) = lateness due := by
  cases due with
  | nil =>
    show max (-ticks) 0 = 0
    omega
  | cons x due =>
    by_cases before : x.2 ≤ ticks
    · rw [book_cons_of_le before]
      rfl
    · rw [book_cons_of_lt (Int.not_le.1 before)]
      show max (-ticks) 0 = max (-x.2) 0
      omega

theorem mem_book (u : UnitId) (ticks : Int) (due : List (UnitId × Int)) :
    (u, ticks) ∈ book u ticks due := by
  rw [book]
  exact List.mem_append_right _ List.mem_cons_self

/-! ## What a pending unit is told -/

theorem dueInAfter_of_remainingAfter {u : UnitId} {ticks : Int} {passed : Int32} {q : List Entry}
    (nonneg : ∀ e ∈ q, 0 ≤ e.offset.toInt) (nodup : (q.map Entry.unit).Nodup)
    (pending : (u, ticks) ∈ remainingAfter passed.toInt q) (room : InRange (ticks + 1)) :
    (Agenda.dueInAfter u passed q).toInt = ticks + 1 := by
  -- Along the queue, `passed` is when the entry before is due, and never decreases.
  induction q generalizing passed with
  | nil => exact absurd pending List.not_mem_nil
  | cons e rest ih =>
    have step := nonneg e List.mem_cons_self
    have later := fun f there => nonneg f (List.mem_cons_of_mem _ there)
    have least := inRange_iff.1 (inRange_toInt passed)
    rw [inRange_iff] at room
    rw [List.map_cons, List.nodup_cons] at nodup
    rw [remainingAfter] at pending
    rw [Agenda.dueInAfter]
    rcases List.mem_cons.1 pending with here | behind
    · obtain ⟨rfl, rfl⟩ := Prod.mk.inj here
      have sum : (addSat passed e.offset).toInt = passed.toInt + e.offset.toInt :=
        toInt_addSat_of_inRange (inRange_iff.2 (by omega))
      have one : (1 : Int32).toInt = 1 := by decide
      rw [if_pos rfl, toInt_addSat_of_inRange, sum, one]
      rw [sum, one, inRange_iff]
      omega
    · have other : e.unit ≠ u := by
        rintro rfl
        apply nodup.1
        rw [← map_fst_remainingAfter (passed.toInt + e.offset.toInt) rest]
        exact List.mem_map_of_mem behind
      have above := (sorted_remainingAfter _ later).1 _ behind
      have sum : (addSat passed e.offset).toInt = passed.toInt + e.offset.toInt :=
        toInt_addSat_of_inRange (inRange_iff.2 (by dsimp only at above; omega))
      rw [if_neg other]
      exact ih later nodup.2 (by rwa [sum])

/-- A pending unit is told one plus its remaining ticks, plus the ticks by which the head is overdue. -/
theorem dueIn_of_remaining {u : UnitId} {ticks : Int} {a : Agenda} (ordered : a.Ordered)
    (nodup : a.units.Nodup) (pending : (u, ticks) ∈ a.remaining)
    (room : InRange (ticks + 1 + lateness a.remaining)) :
    (a.dueIn u).toInt = ticks + 1 + lateness a.remaining := by
  unfold Agenda.Ordered at ordered
  unfold Agenda.units at nodup
  unfold Agenda.remaining at pending room ⊢
  unfold Agenda.dueIn
  cases queue : a.queue with
  | nil =>
    rw [queue] at pending
    exact absurd pending List.not_mem_nil
  | cons e rest =>
    rw [queue, List.map_cons, List.nodup_cons] at nodup
    rw [queue, List.tail_cons] at ordered
    rw [queue] at pending room
    dsimp only [lateness] at pending room ⊢
    have reached : (max a.interval 0).toInt = a.interval.toInt + max (-a.interval.toInt) 0 := by
      rw [toInt_max_zero]
      omega
    rcases List.mem_cons.1 pending with here | behind
    · obtain ⟨rfl, rfl⟩ := Prod.mk.inj here
      have one : (1 : Int32).toInt = 1 := by decide
      have sum : a.interval.toInt + max (-a.interval.toInt) 0 + 1 =
          a.interval.toInt + 1 + max (-a.interval.toInt) 0 := by omega
      rw [if_pos rfl, toInt_addSat_of_inRange, reached, one, sum]
      rwa [reached, one, sum]
    · have other : e.unit ≠ u := by
        rintro rfl
        apply nodup.1
        rw [← map_fst_remainingAfter a.interval.toInt rest]
        exact List.mem_map_of_mem behind
      have moved : (u, ticks + max (-a.interval.toInt) 0) ∈
          remainingAfter (max a.interval 0).toInt rest := by
        rw [reached, remainingAfter_add]
        exact List.mem_map_of_mem behind
      have sum : ticks + max (-a.interval.toInt) 0 + 1 =
          ticks + 1 + max (-a.interval.toInt) 0 := by omega
      rw [if_neg other, dueInAfter_of_remainingAfter ordered nodup.2 moved (by rwa [sum]), sum]

/-! ## Units just scheduled -/

section
variable {σ ω : Type} {u : UnitId} {s : Scheduler σ ω}

theorem activationTime_undelayed (undelayed : (s.slot u).delay = 0) :
    (s.activationTime u).toInt = (s.agenda.dueIn u).toInt := by
  have zero : (0 : Int32).toInt = 0 := rfl
  unfold Scheduler.activationTime Scheduler.ticksOf
  dsimp only
  split
  · rename_i idle
    rw [idle]
  · rw [undelayed, (ofFloat_zero_mul s.rate).2, toInt_addSat_of_inRange, zero, Int.add_zero]
    rw [zero, Int.add_zero]
    exact inRange_toInt _

end

section
variable {σ ω : Type} [MediaStore σ] {idleWait : Int32} {m : List Change} {s : Scheduler σ ω}
  {u : UnitId} {ticks : Int32}

/-- At every moment up to which nothing has overflowed, an idle unit without a delay can be scheduled,
and exactly the ticks it asks for remain until it is due. It is told one more than these, plus the
ticks by which the head was overdue: one more than it asked for just where no unit is overdue. -/
theorem activationTime_of_activated (moment : Moment σ ω idleWait m)
    (exact : Trail Change.Exact (Agenda.start idleWait) m)
    (now : s.agenda = (Agenda.start idleWait).after m) (idle : u ∉ s.agenda.units)
    (undelayed : (s.slot u).delay = 0) (nonneg : 0 ≤ ticks.toInt) (fits : s.agenda.Fits ticks)
    (room : InRange (ticks.toInt + 1 + lateness s.agenda.remaining)) :
    (s.activate u ticks).1 = .queued ∧
      (u, ticks.toInt) ∈ (s.activate u ticks).2.agenda.remaining ∧
      ((s.activate u ticks).2.activationTime u).toInt =
        ticks.toInt + 1 + lateness s.agenda.remaining ∧
      (((s.activate u ticks).2.activationTime u).toInt = ticks.toInt + 1 ↔
        ∀ x ∈ s.agenda.remaining, 0 ≤ x.2) := by
  obtain ⟨queued, agenda⟩ := activate_idle ticks idle
  have nodup := moment.nodup
  have ordered := ordered_after moment.possible exact (ordered_start idleWait)
  rw [← now] at nodup ordered
  obtain ⟨inserts, booked⟩ := remaining_insert (u := u) fits
  have asked : (max ticks 0).toInt = ticks.toInt := by
    rw [toInt_max_zero]
    omega
  rw [asked] at booked
  have pending : (u, ticks.toInt) ∈ (s.agenda.insert u ticks).remaining := by
    rw [booked]
    exact mem_book ..
  have late : lateness (s.agenda.insert u ticks).remaining = lateness s.agenda.remaining := by
    rw [booked, lateness_book nonneg]
  have distinct : (s.agenda.insert u ticks).units.Nodup :=
    Change.nodup_apply (c := .queued u ticks) idle nodup
  have told : ((s.activate u ticks).2.activationTime u).toInt =
      ticks.toInt + 1 + lateness s.agenda.remaining := by
    rw [activationTime_undelayed (by rwa [Scheduler.slot_activate]), agenda,
      dueIn_of_remaining (ordered_insert inserts ordered) distinct pending (by rwa [late]), late]
  have on_time := lateness_eq_zero_iff ordered.remaining
  refine ⟨queued, ?_, told, ?_⟩
  · rw [agenda]
    exact pending
  · rw [told, ← on_time]
    omega

end

/-- The head is overdue by a tick, so a unit that asks for 5 ticks is told 7. -/
theorem activationTime_behind_overdue :
    ∃ s : Scheduler MemoryImages Unit, s.agenda.remaining = [(0, -1)] ∧
      (s.activate 1 5).1 = .queued ∧
      (1, 5) ∈ (s.activate 1 5).2.agenda.remaining ∧
      ((s.activate 1 5).2.activationTime 1).toInt = 7 := by
  let empty : Scheduler MemoryImages Unit := .start 100 1 () default (.empty none)
  let first := { empty with slots := #[default, default] }
  let p : Program Unit := .call (.activate 0 0) fun _ => .call (.consume 1) fun _ => .done (.ok ())
  let m : List Change := [.queued 0 0, .spent 1]
  have moment : Moment MemoryImages Unit 100 m := ⟨first, [], p, 0, .start rfl, by decide +kernel⟩
  let s : Scheduler MemoryImages Unit := { first with agenda := (Agenda.start 100).after m }
  have remaining : s.agenda.remaining = [(0, -1)] := by decide +kernel
  have idle : 1 ∉ s.agenda.units := by decide +kernel
  have fits : s.agenda.Fits 5 := by
    unfold Agenda.Fits
    rw [remaining]
    decide
  obtain ⟨queued, pending, told, -⟩ := activationTime_of_activated moment (by decide +kernel) rfl idle
    rfl (by decide) fits (by
      rw [remaining]
      decide)
  rw [remaining] at told
  exact ⟨s, remaining, queued, pending, told⟩

end Peripheral
