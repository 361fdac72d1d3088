import Peripheral.Machine.Build
import Peripheral.Proofs.Conservation
import Peripheral.Proofs.Ledger
import Peripheral.Proofs.Staff

/-!
# Devices that clear the queue

A device that is reset cancels its units, and books some of them anew while the stale bookings of other
devices are still in the queue. What has been booked so far does not depend on these: it is what the same
bookings make of a queue that was empty.

* `ReachExact`, `Change.Precise` : no sum overflows either in the search for the place of a unit
  (`remaining_insert_of_precise`, `Change.Faithful.precise`);
* `Scheduler.Clearing` : some units are still to be cancelled, what the others are due at is known
  (`Clearing.cancel`, `Clearing.activate`);
* `LineClock.clears`, `SectorDisk.clears`, `Terminal.clears` : **what each device leaves booked**.
-/

namespace Peripheral
open Ticks

/-! ## Precise changes -/

/-- No sum overflows in the search for the place of a unit. -/
def ReachExact (ticks : Int32) : Int32 → List Entry → Prop
  | _, [] => True
  | passed, e :: rest =>
    InRange (passed.toInt + e.offset.toInt) ∧
      (¬ticks < addSat passed e.offset → ReachExact ticks (addSat passed e.offset) rest)

instance decidableReachExact (ticks : Int32) : ∀ passed q, Decidable (ReachExact ticks passed q)
  | _, [] => inferInstanceAs (Decidable True)
  | passed, e :: rest =>
    have := decidableReachExact ticks (addSat passed e.offset) rest
    inferInstanceAs (Decidable (InRange (passed.toInt + e.offset.toInt) ∧
      (¬ticks < addSat passed e.offset → ReachExact ticks (addSat passed e.offset) rest)))

/-- No sum or difference of the change overflows, nor would one that is held inside the range. -/
def Change.Precise (a : Agenda) : Change → Prop
  | .queued u ticks => (Change.queued u ticks).Exact a ∧ ReachExact (max ticks 0) 0 a.settle.queue
  | c => c.Exact a

instance (a : Agenda) (c : Change) : Decidable (c.Precise a) :=
  match c with
  | .queued u ticks =>
    inferInstanceAs (Decidable ((Change.queued u ticks).Exact a ∧
      ReachExact (max ticks 0) 0 a.settle.queue))
  | .spent ticks => inferInstanceAs (Decidable ((Change.spent ticks).Exact a))
  | .removed u => inferInstanceAs (Decidable ((Change.removed u).Exact a))
  | .settled => inferInstanceAs (Decidable (Change.settled.Exact a))
  | .popped u offset => inferInstanceAs (Decidable ((Change.popped u offset).Exact a))
  | .rested => inferInstanceAs (Decidable (Change.rested.Exact a))

section
variable {a : Agenda} {u : UnitId} {ticks passed : Int32} {q : List Entry}

theorem Change.Precise.exact {c : Change} (precise : c.Precise a) : c.Exact a := by
  cases c with
  | queued u ticks => exact precise.1
  | _ => exact precise

theorem remainingAfter_place_of_exact (exact : PlaceExact ticks passed q)
    (reach : ReachExact ticks passed q) :
    remainingAfter passed.toInt (Agenda.place u ticks passed q) =
      book u ticks.toInt (remainingAfter passed.toInt q) := by
  fun_induction Agenda.place u ticks passed q with
  | case1 passed =>
    have here : passed.toInt + (ticks - passed).toInt = ticks.toInt := by
      rw [toInt_sub exact]
      omega
    simp only [remainingAfter, book_nil]
    rw [here]
  | case2 passed e rest reached soon =>
    rw [PlaceExact, if_pos soon] at exact
    have sum : reached.toInt = passed.toInt + e.offset.toInt := toInt_addSat_of_inRange reach.1
    have before : ticks.toInt < passed.toInt + e.offset.toInt := by
      rw [← sum]
      exact Int32.lt_iff_toInt_lt.1 soon
    have here : passed.toInt + (ticks - passed).toInt = ticks.toInt := by
      rw [toInt_sub exact.1]
      omega
    have there : ticks.toInt + (e.offset - (ticks - passed)).toInt = passed.toInt + e.offset.toInt := by
      rw [toInt_sub exact.2, toInt_sub exact.1]
      omega
    simp only [remainingAfter]
    rw [book_cons_of_lt (by exact before), here, there]
  | case3 passed e rest reached late ih =>
    rw [PlaceExact, if_neg late] at exact
    have sum : reached.toInt = passed.toInt + e.offset.toInt := toInt_addSat_of_inRange reach.1
    have after : passed.toInt + e.offset.toInt ≤ ticks.toInt := by
      rw [← sum]
      exact Int32.le_iff_toInt_le.1 (Int32.not_lt.1 late)
    have rest := ih exact (reach.2 late)
    rw [sum] at rest
    simp only [remainingAfter]
    rw [book_cons_of_le (by exact after), rest]

/-- Only sums and differences that are formed need to fit where a unit is booked. -/
theorem remaining_insert_of_precise (precise : (Change.queued u ticks).Precise a) :
    (a.insert u ticks).remaining = book u (max ticks 0).toInt a.remaining := by
  have zero : (0 : Int32).toInt = 0 := rfl
  have placed := remainingAfter_place_of_exact (u := u) precise.1 precise.2
  rw [zero, remainingAfter_settle] at placed
  rw [Agenda.insert, remaining_rearm]
  exact placed

theorem reachExact_of_inRange (fits : ∀ x ∈ remainingAfter passed.toInt q, InRange x.2) :
    ReachExact ticks passed q := by
  induction q generalizing passed with
  | nil => trivial
  | cons e rest ih =>
    have first : InRange (passed.toInt + e.offset.toInt) := fits _ List.mem_cons_self
    refine ⟨first, fun _ => ih ?_⟩
    rw [toInt_addSat_of_inRange first]
    exact fun x there => fits x (List.mem_cons_of_mem _ there)

theorem Change.Faithful.precise {c : Change} (faithful : c.Faithful a) : c.Precise a := by
  cases c with
  | queued u ticks =>
    refine ⟨(remaining_insert faithful).1, reachExact_of_inRange ?_⟩
    rw [show (0 : Int32).toInt = 0 from rfl, remainingAfter_settle]
    exact fun x there => (faithful x there).1
  | spent ticks => trivial
  | _ => exact faithful

/-- In a sorted list, booking a unit that is selected goes with selecting. -/
theorem filter_book {t : Int} {due : List (UnitId × Int)} {p : UnitId × Int → Bool}
    (sorted : due.Pairwise (·.2 ≤ ·.2)) (selected : p (u, t)) :
    (book u t due).filter p = book u t (due.filter p) := by
  rw [book_of_sorted sorted, book_of_sorted (sorted.sublist List.filter_sublist), List.filter_append,
    List.filter_cons_of_pos selected, List.filter_comm p, List.filter_comm p]

theorem book_append {t : Int} {early late : List (UnitId × Int)} (due : ∀ x ∈ early, x.2 ≤ t) :
    book u t (early ++ late) = early ++ book u t late := by
  induction early with
  | nil => rfl
  | cons x early ih =>
    rw [List.cons_append, book_cons_of_le (due x List.mem_cons_self),
      ih fun y there => due y (List.mem_cons_of_mem x there)]
    rfl

theorem book_of_later {t : Int} {late : List (UnitId × Int)} (later : ∀ x ∈ late, t < x.2) :
    book u t late = (u, t) :: late := by
  cases late with
  | nil => rfl
  | cons x late => exact book_cons_of_lt (later x List.mem_cons_self)

end

/-! ## Schedulers that are being cleared -/

variable {σ ω : Type}

/-- The units in `rest` are still to be cancelled, the others are due as in `due`. There are no hooks, and
since `o` no transfer has been handed over and no time has passed. -/
structure Scheduler.Clearing (s o : Scheduler σ ω) (rest : List UnitId) (due : List (UnitId × Int)) :
    Prop where
  bare : ∀ u, (s.slot u).hook = none
  parked : ∀ u, (s.slot u).parked = (o.slot u).parked
  nodup : s.agenda.units.Nodup
  ordered : s.agenda.Ordered
  waits : ∀ u, (s.slot u).delay > 0 → u ∈ rest ∧ u ∈ s.agenda.units
  booked : s.agenda.remaining.filter (fun x => x.1 ∉ rest) = due
  time : s.agenda.elapsedWrapping = o.agenda.elapsedWrapping

theorem exact_removed_of_idle {u : UnitId} {a : Agenda} (idle : u ∉ a.units) : (Change.removed u).Exact a := by
  rw [← Agenda.units_settle, Agenda.units] at idle
  show UnlinkExact u a.settle.queue
  generalize a.settle.queue = q at idle
  induction q with
  | nil => trivial
  | cons e rest ih =>
    rw [List.map_cons, List.mem_cons, not_or] at idle
    rw [UnlinkExact, if_neg (Ne.symm idle.1)]
    exact ih idle.2

namespace Scheduler

variable {s t o : Scheduler σ ω} {rest rest' : List UnitId} {due due' : List (UnitId × Int)} {u : UnitId}

theorem Clearing.of_same (here : s.Clearing o rest due) (slots : t.slots = s.slots)
    (agenda : t.agenda = s.agenda) : t.Clearing o rest due := by
  have same := slot_of_slots slots
  refine ⟨fun u => ?_, fun u => ?_, ?_, ?_, fun u => ?_, ?_, ?_⟩
  · rw [same]
    exact here.bare u
  · rw [same]
    exact here.parked u
  · rw [agenda]
    exact here.nodup
  · rw [agenda]
    exact here.ordered
  · rw [same, agenda]
    exact here.waits u
  · rw [agenda]
    exact here.booked
  · rw [agenda]
    exact here.time

theorem Clearing.idle (here : s.Clearing o rest due) (done : u ∉ rest) (free : u ∉ due.map Prod.fst) :
    u ∉ s.agenda.units := by
  rw [← map_fst_remaining]
  intro pending
  obtain ⟨x, there, rfl⟩ := List.mem_map.1 pending
  have booked : x ∈ due := by
    rw [← here.booked]
    exact List.mem_filter.2 ⟨there, decide_eq_true done⟩
  exact free (List.mem_map_of_mem booked)

theorem Clearing.plain (here : s.Clearing o rest due) (u : UnitId) : s.swallows u = false := by
  unfold swallows
  rw [here.bare u]

theorem Clearing.asked (here : s.Clearing o rest due) (u : UnitId) : s.asked u = s.world := by
  unfold Scheduler.asked
  rw [here.bare u]

/-- Once all units have been cancelled, what is booked is all that is pending. -/
theorem Clearing.remaining (here : s.Clearing o [] due) : s.agenda.remaining = due := by
  rw [← here.booked, eq_comm, List.filter_eq_self]
  exact fun x _ => decide_eq_true List.not_mem_nil

variable [MediaStore σ]

theorem Clearing.perform {c : Call} (here : s.Clearing o rest due) (passive : c.Passive)
    (precise : Trail Change.Precise s.agenda (s.changesOf c))
    (waits : ∀ v, ((s.perform c).2.slot v).delay > 0 → v ∈ rest' ∧ v ∈ (s.perform c).2.agenda.units)
    (booked : (s.perform c).2.agenda.remaining.filter (fun x => x.1 ∉ rest') = due') :
    (s.perform c).2.Clearing o rest' due' := by
  have possible := s.possible_changesOf c
  have shows : s.agenda.Shows o.agenda.elapsedWrapping False := ⟨here.time, False.elim⟩
  refine ⟨fun v => ?_, fun v => ?_, ?_, ?_, waits, booked, ?_⟩
  · exact (congrArg (·.2.1) (callbacks_perform s c v)).trans (here.bare v)
  · exact (congrArg (·.2.2) (callbacks_perform s c v)).trans (here.parked v)
  · rw [agenda_perform]
    exact nodup_after possible here.nodup
  · rw [agenda_perform]
    exact ordered_after possible (precise.mono fun _ _ => Change.Precise.exact) here.ordered
  · rw [agenda_perform]
    exact (shows.schedules (schedules_changesOf passive)).time

/-- A cancellation takes its unit out and leaves all others where they are due. -/
theorem Clearing.cancel (here : s.Clearing o (u :: rest) due)
    (precise : Trail Change.Precise s.agenda (s.changesOf (.cancel u))) :
    (s.cancel u).Clearing o rest due := by
  have plain := here.plain u
  have struck := agenda_cancel_plain plain
  have exact : (Change.removed u).Exact s.agenda := by
    by_cases pending : u ∈ s.agenda.units
    · have one : s.changesOf (.cancel u) = [.removed u] :=
        if_pos (by rw [isActive_iff.2 pending, plain]; rfl)
      rw [one] at precise
      exact precise.1
    · exact exact_removed_of_idle pending
  refine here.perform (c := .cancel u) trivial precise (fun v waiting => ?_) ?_
  · change ((s.cancel u).slot v).delay > 0 at waiting
    rw [slot_cancel] at waiting
    split at waiting
    · exact absurd waiting (by show ¬(0 : Float) > 0; decide +kernel)
    · rename_i stays
      obtain ⟨there, pending⟩ := here.waits v waiting
      have other : u ≠ v := by
        rintro rfl
        exact stays ⟨rfl, isActive_iff.2 pending, by rw [plain]; exact Bool.false_ne_true⟩
      exact ⟨(List.mem_cons.1 there).resolve_left other.symm,
        mem_units_spared (c := .cancel u) other pending⟩
  · show (s.cancel u).agenda.remaining.filter _ = due
    rw [struck, remaining_remove here.nodup exact, List.filter_filter, ← here.booked]
    refine List.filter_congr fun x _ => ?_
    simp [Bool.and_comm]

/-- A unit that has been cancelled is booked behind all that are due no later. -/
theorem Clearing.activate {ticks : Int32} (here : s.Clearing o rest due) (done : u ∉ rest)
    (idle : u ∉ s.agenda.units) (precise : Trail Change.Precise s.agenda (s.changesOf (.activate u ticks))) :
    (s.activate u ticks).2.Clearing o rest (book u (max ticks.toInt 0) due) := by
  have agenda := (activate_idle ticks idle).2
  have one : s.changesOf (.activate u ticks) = [.queued u ticks] :=
    if_neg fun active => idle (isActive_iff.1 active)
  have booked := remaining_insert_of_precise (one ▸ precise).1
  refine here.perform (c := .activate u ticks) trivial precise (fun v waiting => ?_) ?_
  · change ((s.activate u ticks).2.slot v).delay > 0 at waiting
    rw [slot_activate] at waiting
    obtain ⟨there, pending⟩ := here.waits v waiting
    exact ⟨there, mem_units_activate_of_mem u ticks pending⟩
  · show (s.activate u ticks).2.agenda.remaining.filter _ = _
    rw [agenda, booked, toInt_max_zero, ← here.booked]
    exact filter_book here.ordered.remaining (decide_eq_true (p := u ∉ rest) done)

omit [MediaStore σ] in
theorem Clearing.not_mem_cancel (here : s.Clearing o rest due) (u : UnitId) : u ∉ (s.cancel u).agenda.units := by
  rw [agenda_cancel_plain (here.plain u)]
  exact not_mem_remove here.nodup

end Scheduler

theorem Trail.of_call [MediaStore σ] {P : Agenda → Change → Prop} {pops : Nat} {c : Call}
    {next : c.Answer → Program ω} {s : Scheduler σ ω}
    (trail : Trail P s.agenda ((Program.call c next).runChanges pops s)) :
    Trail P s.agenda (s.changesOf c) ∧
      Trail P (s.perform c).2.agenda ((next (s.perform c).1).runChanges pops (s.perform c).2) := by
  rw [Scheduler.agenda_perform]
  exact Trail.append.1 trail

theorem Trail.of_change [MediaStore σ] {P : Agenda → Change → Prop} {pops : Nat} {f : ω → ω}
    {next : Program ω} {s : Scheduler σ ω}
    (trail : Trail P s.agenda ((Program.change f next).runChanges pops s)) :
    Trail P ({ s with world := f s.world } : Scheduler σ ω).agenda
      (next.runChanges pops { s with world := f s.world }) := trail

/-! ## Devices -/

section
variable {κ ε : Type}

theorem LineClock.reset_eq (c : LineClock) (next : Result → Program (Board κ ε)) :
    c.reset next = .call (.cancel c.unit) fun _ => .change (·.modifyClock c.record fun _ => 0) <|
      if c.enabled then
        .call (.tell (.clockPeriod c.period)) fun _ => .call (.activate c.unit c.period) fun _ => next (.ok ())
      else next (.ok ()) := by
  unfold reset
  cases c.enabled with
  | true => rfl
  | false => rfl

theorem SectorDisk.resetDrives_cons (u : UnitId) (units : List UnitId)
    (next : Result → Program (Board κ ε)) :
    resetDrives (u :: units) next =
      .call (.cancel u) fun _ => .call (.unit u) fun unit =>
        if unit.ioPending then .call (.activate u 0) fun _ => resetDrives units next
        else resetDrives units next := by
  refine congrArg (Program.call (.cancel u)) (funext fun _ =>
    congrArg (Program.call (.unit u)) (funext fun unit => ?_))
  by_cases pending : unit.ioPending
  · rw [if_pos pending]
    exact congrFun (if_pos pending) next
  · rw [if_neg pending]
    exact congrFun (if_neg pending) next

variable [MediaStore σ] {pops : Nat} {s o : Scheduler σ (Board κ ε)} {rest : List UnitId}
  {due late : List (UnitId × Int)}

def LineClock.booking (c : LineClock) : List (UnitId × Int) :=
  if c.enabled then [(c.unit, c.period.toInt)] else []

theorem LineClock.clears {c : LineClock} (positive : 1 ≤ c.period.toInt)
    (here : s.Clearing o (c.unit :: rest) []) (other : c.unit ∉ rest)
    (trail : Trail Change.Precise s.agenda ((c.reset .done).runChanges pops s)) :
    ∃ t : Scheduler σ (Board κ ε), (c.reset .done).run pops s = some (.ok (), t) ∧
      t.Clearing o rest c.booking ∧ t.world = s.world.modifyClock c.record fun _ => 0 := by
  rw [reset_eq] at trail ⊢
  obtain ⟨cancels, trail⟩ := Trail.of_call trail
  replace trail := Trail.of_change trail
  have cancelled := here.cancel cancels
  have world : (s.cancel c.unit).world = s.world := (Scheduler.world_cancel _ s).trans (here.asked _)
  let cleared : Scheduler σ (Board κ ε) :=
    { s.cancel c.unit with world := (s.cancel c.unit).world.modifyClock c.record fun _ => 0 }
  have clearing : cleared.Clearing o rest [] := cancelled.of_same rfl rfl
  have forgotten : cleared.world = s.world.modifyClock c.record fun _ => 0 := by rw [← world]
  unfold booking
  by_cases enabled : c.enabled
  · rw [if_pos enabled] at trail ⊢
    obtain ⟨-, trail⟩ := Trail.of_call trail
    obtain ⟨books, -⟩ := Trail.of_call trail
    let told := cleared.tell (.clockPeriod c.period)
    have telling : told.Clearing o rest [] := clearing.of_same rfl rfl
    have booked := telling.activate other (telling.idle other List.not_mem_nil) books
    rw [book_nil, Int.max_eq_left (by omega)] at booked
    rw [if_pos enabled]
    exact ⟨_, rfl, booked, (Scheduler.world_activate c.unit c.period told).trans forgotten⟩
  · rw [if_neg enabled, if_neg enabled]
    exact ⟨cleared, rfl, clearing, forgotten⟩

/-- What a disk has booked once it has been reset: drives that hold a transfer are due. -/
def SectorDisk.booking (units : List UnitId) (o : Scheduler σ (Board κ ε)) : List (UnitId × Int) :=
  (units.filter fun u => (o.slot u).parked.isSome).map fun u => (u, 0)

omit [MediaStore σ] in
theorem SectorDisk.booking_cons (u : UnitId) (units : List UnitId) (o : Scheduler σ (Board κ ε)) :
    booking (u :: units) o =
      if (o.slot u).parked.isSome then (u, 0) :: booking units o else booking units o := by
  unfold booking
  rw [List.filter_cons]
  split
  · rfl
  · rfl

/-- Drives are reset in turn: one that holds a transfer goes behind those that are due already. -/
theorem SectorDisk.clears_drives (units : List UnitId) (early : List (UnitId × Int))
    (here : s.Clearing o (units ++ rest) (early ++ late))
    (nodup : (units ++ rest).Nodup) (early_due : ∀ x ∈ early, x.2 ≤ 0) (late_due : ∀ x ∈ late, 0 < x.2)
    (trail : Trail Change.Precise s.agenda ((resetDrives units .done).runChanges pops s)) :
    ∃ t : Scheduler σ (Board κ ε), (resetDrives units .done).run pops s = some (.ok (), t) ∧
      t.Clearing o rest (early ++ (booking units o ++ late)) ∧ t.world = s.world := by
  induction units generalizing s early with
  | nil => exact ⟨s, rfl, here, rfl⟩
  | cons u units ih =>
    rw [List.cons_append] at here
    rw [List.cons_append, List.nodup_cons] at nodup
    rw [resetDrives_cons] at trail ⊢
    obtain ⟨cancels, trail⟩ := Trail.of_call trail
    obtain ⟨-, trail⟩ := Trail.of_call trail
    have cancelled := here.cancel cancels
    have world : (s.cancel u).world = s.world := (Scheduler.world_cancel u s).trans (here.asked u)
    have holds : ((s.cancel u).view u).ioPending = (o.slot u).parked.isSome :=
      congrArg Option.isSome (cancelled.parked u)
    change Trail _ _ (Program.runChanges pops (if ((s.cancel u).view u).ioPending then _ else _) _) at trail
    show ∃ t, Program.run pops (if ((s.cancel u).view u).ioPending then _ else _) _ = _ ∧ _
    rw [holds] at trail ⊢
    rw [booking_cons]
    by_cases pending : (o.slot u).parked.isSome
    · rw [if_pos pending] at trail ⊢
      rw [if_pos pending]
      obtain ⟨books, trail⟩ := Trail.of_call trail
      have booked := cancelled.activate nodup.1 (here.not_mem_cancel u) books
      have now : max (0 : Int32).toInt 0 = 0 := rfl
      rw [now, book_append early_due, book_of_later late_due, List.append_cons] at booked
      have early_due' : ∀ x ∈ early ++ [(u, 0)], x.2 ≤ 0 := by
        intro x there
        rcases List.mem_append.1 there with there | there
        · exact early_due x there
        · exact Int.le_of_eq (congrArg Prod.snd (List.mem_singleton.1 there))
      obtain ⟨t, ran, left, same⟩ := ih _ booked nodup.2 early_due' trail
      refine ⟨t, ran, ?_, ?_⟩
      · rwa [List.cons_append, List.append_cons]
      · exact same.trans ((Scheduler.world_activate u 0 _).trans world)
    · rw [if_neg pending] at trail ⊢
      rw [if_neg pending]
      obtain ⟨t, ran, left, same⟩ := ih _ cancelled nodup.2 early_due trail
      exact ⟨t, ran, left, same.trans world⟩

theorem SectorDisk.clears {d : SectorDisk} (here : s.Clearing o (d.units ++ rest) late)
    (nodup : (d.units ++ rest).Nodup) (late_due : ∀ x ∈ late, 0 < x.2)
    (trail : Trail Change.Precise s.agenda ((d.reset .done).runChanges pops s)) :
    ∃ t : Scheduler σ (Board κ ε), (d.reset .done).run pops s = some (.ok (), t) ∧
      t.Clearing o rest (booking d.units o ++ late) ∧ t.world = s.world :=
  clears_drives d.units [] here nodup (List.forall_mem_nil _) late_due trail

theorem Terminal.clears {t : Terminal} (here : s.Clearing o [t.keyboard, t.printer] due)
    (trail : Trail Change.Precise s.agenda ((t.reset .done).runChanges pops s)) :
    ∃ s' : Scheduler σ (Board κ ε), (t.reset .done).run pops s = some (.ok (), s') ∧
      s'.Clearing o [] (book t.keyboard (max t.pollTicks.toInt 0) due) ∧
      s'.world = t.modify (fun _ => {}) s.world := by
  obtain ⟨cancels, trail⟩ := Trail.of_call (c := .cancel t.keyboard) trail
  obtain ⟨cancels', trail⟩ := Trail.of_call (s := s.cancel t.keyboard) (c := .cancel t.printer) trail
  obtain ⟨books, -⟩ := Trail.of_call (c := .activate t.keyboard t.pollTicks) (Trail.of_change trail)
  let first := s.cancel t.keyboard
  let second := first.cancel t.printer
  have cancelled := here.cancel cancels
  have world : second.world = s.world :=
    ((Scheduler.world_cancel _ first).trans (cancelled.asked _)).trans
      ((Scheduler.world_cancel _ s).trans (here.asked _))
  let cleared : Scheduler σ (Board κ ε) := { second with world := t.modify (fun _ => {}) second.world }
  have clearing : cleared.Clearing o [] due := (cancelled.cancel cancels').of_same rfl rfl
  have idle : t.keyboard ∉ cleared.agenda.units := by
    show t.keyboard ∉ second.agenda.units
    rw [agenda_cancel_plain (cancelled.plain _), Agenda.units_remove]
    exact fun there => here.not_mem_cancel _ (List.mem_of_mem_erase there)
  have forgotten : cleared.world = t.modify (fun _ => {}) s.world := by rw [← world]
  exact ⟨_, rfl, clearing.activate List.not_mem_nil idle books,
    (Scheduler.world_activate t.keyboard t.pollTicks cleared).trans forgotten⟩

end

end Peripheral
