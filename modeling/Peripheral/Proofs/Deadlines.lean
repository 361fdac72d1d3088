import Peripheral.Proofs.Changes
import Peripheral.Proofs.TickRange

/-!
# The queue as a list of deadlines

The ticks that remain until a pending unit is due are the live interval plus the offsets after the
head, summed up to the unit as integers. Seen this way the queue is a plain list, on which every
change of the agenda acts in a plain way as long as no sum leaves the range of tick counts.

* `Agenda.remaining` : pending units with the ticks that remain;
* `book` : put a unit behind all that are due no later; in a sorted list, directly behind exactly
  those (`book_of_sorted`);
* `Change.Exact` : no sum or difference of the change overflows;
* `remaining_insert`, `remaining_remove`, `remaining_consume`, `remaining_popped` : what changes
  do to the remaining ticks;
* `Agenda.Ordered` : no offset after the head is negative (`Change.ordered_apply`), so the remaining
  ticks ascend (`Agenda.Ordered.remaining`).
-/

namespace Peripheral
open Ticks

def remainingAfter : Int → List Entry → List (UnitId × Int)
  | _, [] => []
  | passed, e :: rest =>
    (e.unit, passed + e.offset.toInt) :: remainingAfter (passed + e.offset.toInt) rest

/-- Pending units in firing order, with the ticks that remain until they are due. -/
def Agenda.remaining (a : Agenda) : List (UnitId × Int) :=
  match a.queue with
  | [] => []
  | e :: rest => (e.unit, a.interval.toInt) :: remainingAfter a.interval.toInt rest

/-- Put a unit behind all that are due no later. -/
def book (u : UnitId) (ticks : Int) (due : List (UnitId × Int)) : List (UnitId × Int) :=
  due.takeWhile (·.2 ≤ ticks) ++ (u, ticks) :: due.dropWhile (·.2 ≤ ticks)

@[simp] theorem book_nil (u : UnitId) (ticks : Int) : book u ticks [] = [(u, ticks)] := rfl

theorem book_cons_of_lt {u : UnitId} {ticks : Int} {x : UnitId × Int} {due : List (UnitId × Int)}
    (h : ticks < x.2) : book u ticks (x :: due) = (u, ticks) :: x :: due := by
  simp [book, Int.not_le.2 h]

theorem book_cons_of_le {u : UnitId} {ticks : Int} {x : UnitId × Int} {due : List (UnitId × Int)}
    (h : x.2 ≤ ticks) : book u ticks (x :: due) = x :: book u ticks due := by
  simp [book, h]

theorem takeWhile_of_sorted (ticks : Int) {due : List (UnitId × Int)}
    (sorted : due.Pairwise (·.2 ≤ ·.2)) :
    due.takeWhile (·.2 ≤ ticks) = due.filter (·.2 ≤ ticks) ∧
      due.dropWhile (·.2 ≤ ticks) = due.filter (ticks < ·.2) := by
  induction due with
  | nil => exact ⟨rfl, rfl⟩
  | cons x due ih =>
    obtain ⟨least, sorted⟩ := List.pairwise_cons.1 sorted
    by_cases due_before : x.2 ≤ ticks
    · obtain ⟨front, back⟩ := ih sorted
      have not_after : ¬ticks < x.2 := Int.not_lt.2 due_before
      simp only [List.takeWhile_cons, List.dropWhile_cons, List.filter_cons, due_before, not_after,
        decide_true, decide_false, if_true, Bool.false_eq_true, if_false, front, back, and_self]
    · have after : ticks < x.2 := Int.not_le.1 due_before
      have none_before : due.filter (·.2 ≤ ticks) = [] := by
        rw [List.filter_eq_nil_iff]
        intro y there
        have := least y there
        rw [decide_eq_true_eq]
        omega
      have all_after : due.filter (ticks < ·.2) = due := by
        rw [List.filter_eq_self]
        intro y there
        have := least y there
        rw [decide_eq_true_eq]
        omega
      simp only [List.takeWhile_cons, List.dropWhile_cons, List.filter_cons, due_before, after,
        decide_true, decide_false, if_true, Bool.false_eq_true, if_false, none_before, all_after,
        and_self]

/-- In a sorted list a unit goes directly behind all that are due no later. -/
theorem book_of_sorted {u : UnitId} {ticks : Int} {due : List (UnitId × Int)}
    (sorted : due.Pairwise (·.2 ≤ ·.2)) :
    book u ticks due = due.filter (·.2 ≤ ticks) ++ (u, ticks) :: due.filter (ticks < ·.2) := by
  obtain ⟨front, back⟩ := takeWhile_of_sorted ticks sorted
  rw [book, front, back]

/-! ## Exact changes -/

/-- No difference overflows where a unit is placed in a list of entries. -/
def PlaceExact (ticks : Int32) : Int32 → List Entry → Prop
  | passed, [] => InRange (ticks.toInt - passed.toInt)
  | passed, e :: rest =>
    if ticks < addSat passed e.offset then
      InRange (ticks.toInt - passed.toInt) ∧
        InRange (e.offset.toInt - (ticks - passed).toInt)
    else PlaceExact ticks (addSat passed e.offset) rest

instance decidablePlaceExact (ticks : Int32) : ∀ passed q, Decidable (PlaceExact ticks passed q)
  | passed, [] => inferInstanceAs (Decidable (InRange (ticks.toInt - passed.toInt)))
  | passed, e :: rest =>
    have := decidablePlaceExact ticks (addSat passed e.offset) rest
    inferInstanceAs (Decidable (if ticks < addSat passed e.offset then
      InRange (ticks.toInt - passed.toInt) ∧ InRange (e.offset.toInt - (ticks - passed).toInt)
    else PlaceExact ticks (addSat passed e.offset) rest))

/-- No sum overflows where a unit is taken out of a list of entries. -/
def UnlinkExact (u : UnitId) : List Entry → Prop
  | [] => True
  | e :: rest =>
    if e.unit = u then ∀ f ∈ rest.head?, InRange (f.offset.toInt + e.offset.toInt)
    else UnlinkExact u rest

instance decidableUnlinkExact (u : UnitId) : ∀ q, Decidable (UnlinkExact u q)
  | [] => inferInstanceAs (Decidable True)
  | e :: rest =>
    have := decidableUnlinkExact u rest
    inferInstanceAs (Decidable (if e.unit = u then
      ∀ f ∈ rest.head?, InRange (f.offset.toInt + e.offset.toInt)
    else UnlinkExact u rest))

/-- No sum or difference of the change overflows. Spending and folding ticks wrap around by
design. -/
def Change.Exact (a : Agenda) : Change → Prop
  | .queued _ ticks => PlaceExact (max ticks 0) 0 a.settle.queue
  | .removed u => UnlinkExact u a.settle.queue
  | .popped _ offset =>
    InRange (a.interval.toInt - offset.toInt) ∧
      ∀ f ∈ a.queue.tail.head?, InRange (a.interval.toInt - offset.toInt + f.offset.toInt)
  | .spent _ | .settled | .rested => True

instance (a : Agenda) (c : Change) : Decidable (c.Exact a) :=
  match c with
  | .queued _ ticks => inferInstanceAs (Decidable (PlaceExact (max ticks 0) 0 a.settle.queue))
  | .removed u => inferInstanceAs (Decidable (UnlinkExact u a.settle.queue))
  | .popped _ offset =>
    inferInstanceAs (Decidable (InRange (a.interval.toInt - offset.toInt) ∧
      ∀ f ∈ a.queue.tail.head?, InRange (a.interval.toInt - offset.toInt + f.offset.toInt)))
  | .spent _ | .settled | .rested => inferInstanceAs (Decidable True)

/-! ## Remaining ticks through the changes -/

theorem remainingAfter_add (d passed : Int) (q : List Entry) :
    remainingAfter (passed + d) q = (remainingAfter passed q).map fun x => (x.1, x.2 + d) := by
  induction q generalizing passed with
  | nil => rfl
  | cons e rest ih =>
    simp only [remainingAfter, List.map_cons, List.cons.injEq, Prod.mk.injEq, true_and]
    rw [← ih]
    constructor
    · omega
    · congr 1
      omega

@[simp] theorem map_fst_remainingAfter (passed : Int) (q : List Entry) :
    (remainingAfter passed q).map Prod.fst = q.map Entry.unit := by
  induction q generalizing passed with
  | nil => rfl
  | cons e rest ih => simp [remainingAfter, ih]

@[simp] theorem map_fst_remaining (a : Agenda) : a.remaining.map Prod.fst = a.units := by
  unfold Agenda.remaining Agenda.units
  split
  · simp_all
  · simp_all

/-- Once the interval is loaded from the head, the remaining ticks are sums of offsets alone. -/
theorem remaining_rearm (a : Agenda) : a.rearm.remaining = remainingAfter 0 a.queue := by
  unfold Agenda.rearm Agenda.remaining
  cases queue : a.queue with
  | nil => rfl
  | cons e rest => simp [remainingAfter]

theorem remainingAfter_settle (a : Agenda) : remainingAfter 0 a.settle.queue = a.remaining := by
  unfold Agenda.settle Agenda.remaining
  cases a.queue with
  | nil => rfl
  | cons e rest => simp [remainingAfter]

@[simp] theorem remaining_settle (a : Agenda) : a.settle.remaining = a.remaining := by
  unfold Agenda.settle Agenda.remaining
  cases queue : a.queue with
  | nil => simp
  | cons e rest => simp

theorem remainingAfter_place {u : UnitId} {ticks passed : Int32} {q : List Entry}
    (nonneg : 0 ≤ ticks.toInt) (first : InRange (ticks.toInt - passed.toInt))
    (fits : ∀ x ∈ remainingAfter passed.toInt q, InRange x.2 ∧ InRange (ticks.toInt - x.2)) :
    PlaceExact ticks passed q ∧
      remainingAfter passed.toInt (Agenda.place u ticks passed q) =
        book u ticks.toInt (remainingAfter passed.toInt q) := by
  fun_induction Agenda.place u ticks passed q with
  | case1 passed =>
    refine ⟨first, ?_⟩
    have here : passed.toInt + (ticks.toInt - passed.toInt) = ticks.toInt := by omega
    simp only [remainingAfter, book_nil, toInt_sub first, here]
  | case2 passed e rest reached soon =>
    have due := fits _ List.mem_cons_self
    have sum : reached.toInt = passed.toInt + e.offset.toInt := toInt_addSat_of_inRange due.1
    have before : ticks.toInt < passed.toInt + e.offset.toInt := by
      rw [← sum]
      exact Int32.lt_iff_toInt_lt.1 soon
    have exact : InRange (e.offset.toInt - (ticks - passed).toInt) := by
      simp only [inRange_iff, toInt_sub first] at due ⊢
      omega
    refine ⟨by rw [PlaceExact, if_pos soon]; exact ⟨first, exact⟩, ?_⟩
    simp only [remainingAfter]
    rw [book_cons_of_lt (by exact before), toInt_sub exact, toInt_sub first]
    have here : passed.toInt + (ticks.toInt - passed.toInt) = ticks.toInt := by omega
    have there : passed.toInt + (ticks.toInt - passed.toInt) +
        (e.offset.toInt - (ticks.toInt - passed.toInt)) = passed.toInt + e.offset.toInt := by omega
    rw [there, here]
  | case3 passed e rest reached late ih =>
    have due := fits _ List.mem_cons_self
    have sum : reached.toInt = passed.toInt + e.offset.toInt := toInt_addSat_of_inRange due.1
    have after : passed.toInt + e.offset.toInt ≤ ticks.toInt := by
      rw [← sum]
      exact Int32.le_iff_toInt_le.1 (Int32.not_lt.1 late)
    rw [sum] at ih
    obtain ⟨exact, placed⟩ := ih due.2 fun x hx => fits x (List.mem_cons_of_mem _ hx)
    refine ⟨by rw [PlaceExact, if_neg late]; exact exact, ?_⟩
    simp only [remainingAfter]
    rw [book_cons_of_le (by exact after), placed]

/-- All remaining ticks of an agenda are tick counts, and so are the ticks from them to others. -/
def Agenda.Fits (a : Agenda) (ticks : Int32) : Prop :=
  ∀ x ∈ a.remaining, InRange x.2 ∧ InRange ((max ticks 0).toInt - x.2)

theorem remaining_insert {u : UnitId} {ticks : Int32} {a : Agenda} (fits : a.Fits ticks) :
    (Change.queued u ticks).Exact a ∧
      (a.insert u ticks).remaining = book u (max ticks 0).toInt a.remaining := by
  have zero : (0 : Int32).toInt = 0 := rfl
  have nonneg : 0 ≤ (max ticks 0).toInt := by
    rw [toInt_max_zero]
    omega
  have first : InRange ((max ticks 0).toInt - (0 : Int32).toInt) := by
    rw [zero, Int.sub_zero]
    exact inRange_toInt _
  have placed := remainingAfter_place (u := u) nonneg first (q := a.settle.queue)
    (by rwa [zero, remainingAfter_settle])
  rw [zero, remainingAfter_settle] at placed
  refine ⟨placed.1, ?_⟩
  rw [Agenda.insert, remaining_rearm]
  exact placed.2

theorem remainingAfter_unlink {u : UnitId} {passed : Int} {q : List Entry}
    (nodup : (q.map Entry.unit).Nodup) (exact : UnlinkExact u q) :
    remainingAfter passed (Agenda.unlink u q) =
      (remainingAfter passed q).filter (·.1 ≠ u) := by
  have keeps : ∀ (passed : Int) (q : List Entry), u ∉ q.map Entry.unit →
      (remainingAfter passed q).filter (·.1 ≠ u) = remainingAfter passed q := by
    intro passed q idle
    rw [List.filter_eq_self]
    intro x hx
    have : x.1 ∈ q.map Entry.unit := by
      rw [← map_fst_remainingAfter passed q]
      exact List.mem_map_of_mem hx
    simp only [ne_eq, decide_eq_true_eq]
    rintro rfl
    exact idle this
  fun_induction Agenda.unlink u q generalizing passed with
  | case1 => rfl
  | case2 e here => simp [remainingAfter, here]
  | case3 e here f rest =>
    rw [UnlinkExact, if_pos here] at exact
    have sum := toInt_add (exact f rfl)
    rw [List.map_cons, List.nodup_cons, here] at nodup
    have rest_keeps := keeps (passed + e.offset.toInt) (f :: rest) nodup.1
    rw [remainingAfter.eq_2 passed e, List.filter_cons_of_neg (by simp [here]), rest_keeps]
    simp only [remainingAfter, sum]
    have same : passed + (f.offset.toInt + e.offset.toInt) =
        passed + e.offset.toInt + f.offset.toInt := by omega
    rw [same]
  | case4 e rest other ih =>
    rw [UnlinkExact, if_neg other] at exact
    rw [List.map_cons, List.nodup_cons] at nodup
    simp only [remainingAfter]
    rw [List.filter_cons_of_pos (by simp [other]), ih nodup.2 exact]

theorem remaining_remove {u : UnitId} {a : Agenda} (nodup : a.units.Nodup)
    (exact : (Change.removed u).Exact a) :
    (a.remove u).remaining = a.remaining.filter (·.1 ≠ u) := by
  unfold Agenda.remove
  split
  · rw [remaining_rearm]
    have settled : (a.settle.queue.map Entry.unit).Nodup := by
      have same := a.units_settle
      unfold Agenda.units at same nodup
      rwa [same]
    rw [remainingAfter_unlink settled exact, remainingAfter_settle]
  · rename_i idle
    rw [Agenda.isActive_iff, ← map_fst_remaining] at idle
    symm
    rw [List.filter_eq_self]
    intro x hx
    simp only [ne_eq, decide_eq_true_eq]
    rintro rfl
    exact idle (List.mem_map_of_mem hx)

theorem remaining_consume {ticks : Int32} {a : Agenda}
    (exact : a.queue ≠ [] → InRange (a.interval.toInt - ticks.toInt)) :
    (a.consume ticks).remaining = a.remaining.map fun x => (x.1, x.2 - ticks.toInt) := by
  unfold Agenda.consume Agenda.remaining
  cases queue : a.queue with
  | nil => rfl
  | cons e rest =>
    have difference := toInt_sub (exact (by simp [queue]))
    simp only [List.map_cons, difference, Int.sub_eq_add_neg]
    rw [remainingAfter_add]

/-- Taking the head off moves the others by its offset. -/
theorem remaining_popped {u : UnitId} {offset : Int32} {rest : List Entry} {a : Agenda}
    (queue : a.queue = ⟨u, offset⟩ :: rest) (exact : (Change.popped u offset).Exact a) :
    ((Change.popped u offset).apply a).remaining =
      a.remaining.tail.map fun x => (x.1, x.2 - offset.toInt) := by
  obtain ⟨spent, next⟩ := exact
  cases rest with
  | nil =>
    simp only [Change.apply, Agenda.pop?, queue, Option.map_some, Option.getD_some]
    rw [remaining_rearm]
    simp [Agenda.remaining, queue, remainingAfter]
  | cons f rest =>
    have difference := toInt_sub spent
    have sum : (a.interval - offset + f.offset).toInt =
        a.interval.toInt - offset.toInt + f.offset.toInt := by
      rw [← difference]
      exact toInt_add (by rw [difference]; exact next f (by simp [queue]))
    simp only [Change.apply, Agenda.pop?, queue, Option.map_some, Option.getD_some]
    simp only [Agenda.remaining, queue, List.tail_cons, Int.sub_eq_add_neg]
    rw [← remainingAfter_add, remainingAfter, sum, Int.sub_eq_add_neg]

/-! ## Ascending deadlines -/

/-- No entry after the head has a negative offset. The head may have one: it is overdue then. -/
def Agenda.Ordered (a : Agenda) : Prop := ∀ e ∈ a.queue.tail, 0 ≤ e.offset.toInt

@[simp] theorem queue_rearm (a : Agenda) : a.rearm.queue = a.queue := by
  unfold Agenda.rearm
  split <;> rfl

@[simp] theorem queue_tail_settle (a : Agenda) : a.settle.queue.tail = a.queue.tail := by
  unfold Agenda.settle
  cases queue : a.queue with
  | nil => simp
  | cons e rest => simp

theorem nonneg_place {u : UnitId} {ticks passed : Int32} {q : List Entry}
    (exact : PlaceExact ticks passed q) (reach : passed.toInt ≤ ticks.toInt)
    (nonneg : ∀ e ∈ q, 0 ≤ e.offset.toInt) :
    ∀ e ∈ Agenda.place u ticks passed q, 0 ≤ e.offset.toInt := by
  fun_induction Agenda.place u ticks passed q with
  | case1 passed =>
    intro e here
    rw [List.mem_singleton] at here
    rw [here, toInt_sub exact]
    omega
  | case2 passed f rest reached soon =>
    rw [PlaceExact, if_pos soon] at exact
    obtain ⟨first, second⟩ := exact
    have bound : reached.toInt ≤ passed.toInt + f.offset.toInt :=
      toInt_addSat_le (nonneg f List.mem_cons_self)
    rw [Int32.lt_iff_toInt_lt] at soon
    intro e here
    rcases List.mem_cons.1 here with rfl | here
    · rw [toInt_sub first]
      omega
    rcases List.mem_cons.1 here with rfl | here
    · rw [toInt_sub second, toInt_sub first]
      omega
    · exact nonneg e (List.mem_cons_of_mem _ here)
  | case3 passed f rest reached late ih =>
    rw [PlaceExact, if_neg late] at exact
    intro e here
    rcases List.mem_cons.1 here with rfl | here
    · exact nonneg e List.mem_cons_self
    · exact ih exact (Int32.le_iff_toInt_le.1 (Int32.not_lt.1 late))
        (fun e there => nonneg e (List.mem_cons_of_mem _ there)) e here

theorem nonneg_unlink {u : UnitId} {q : List Entry} (exact : UnlinkExact u q)
    (nonneg : ∀ e ∈ q.tail, 0 ≤ e.offset.toInt) :
    ∀ e ∈ (Agenda.unlink u q).tail, 0 ≤ e.offset.toInt := by
  have behind : ∀ q, UnlinkExact u q → (∀ e ∈ q, 0 ≤ e.offset.toInt) →
      ∀ e ∈ Agenda.unlink u q, 0 ≤ e.offset.toInt := by
    intro q exact nonneg
    fun_induction Agenda.unlink u q with
    | case1 => exact nonneg
    | case2 e here => simp
    | case3 e here f rest =>
      rw [UnlinkExact, if_pos here] at exact
      intro g there
      rcases List.mem_cons.1 there with rfl | there
      · have left := nonneg e (by simp)
        have right := nonneg f (by simp)
        rw [toInt_add (exact f rfl)]
        omega
      · exact nonneg g (by simp [there])
    | case4 e rest other ih =>
      rw [UnlinkExact, if_neg other] at exact
      intro g there
      rcases List.mem_cons.1 there with rfl | there
      · exact nonneg g List.mem_cons_self
      · exact ih exact (fun e he => nonneg e (List.mem_cons_of_mem _ he)) g there
  cases q with
  | nil => exact nonneg
  | cons e rest =>
    unfold UnlinkExact at exact
    unfold Agenda.unlink
    split
    · cases rest with
      | nil => simp
      | cons f rest => exact fun g there => nonneg g (List.mem_cons_of_mem _ there)
    · rename_i other
      rw [if_neg other] at exact
      exact behind rest exact nonneg

theorem ordered_insert {u : UnitId} {ticks : Int32} {a : Agenda}
    (exact : (Change.queued u ticks).Exact a) (h : a.Ordered) : (a.insert u ticks).Ordered := by
  have zero : (0 : Int32).toInt = 0 := rfl
  have nonneg : 0 ≤ (max ticks 0).toInt := by
    rw [toInt_max_zero]
    omega
  replace exact : PlaceExact (max ticks 0) 0 a.settle.queue := exact
  unfold Agenda.Ordered at h ⊢
  rw [← queue_tail_settle] at h
  rw [Agenda.insert, queue_rearm]
  cases queue : a.settle.queue with
  | nil => simp [Agenda.place]
  | cons e rest =>
    have head : addSat 0 e.offset = e.offset := by
      rw [← Int32.toInt_inj, toInt_addSat_of_inRange]
      · rw [zero, Int.zero_add]
      · rw [zero, Int.zero_add]
        exact inRange_toInt _
    rw [queue, List.tail_cons] at h
    simp only [queue, PlaceExact, head] at exact
    simp only [Agenda.place, head]
    split at exact
    · rename_i soon
      obtain ⟨first, second⟩ := exact
      rw [if_pos soon, List.tail_cons]
      rw [Int32.lt_iff_toInt_lt] at soon
      intro f there
      rcases List.mem_cons.1 there with rfl | there
      · rw [toInt_sub second, toInt_sub first]
        omega
      · exact h f there
    · rename_i late
      rw [if_neg late, List.tail_cons]
      exact nonneg_place exact (Int32.le_iff_toInt_le.1 (Int32.not_lt.1 late)) h

theorem ordered_remove {u : UnitId} {a : Agenda} (exact : (Change.removed u).Exact a)
    (h : a.Ordered) : (a.remove u).Ordered := by
  unfold Agenda.Ordered at h ⊢
  unfold Agenda.remove
  split
  · rw [queue_rearm]
    rw [← queue_tail_settle] at h
    exact nonneg_unlink exact h
  · exact h

/-- Exact changes keep all offsets after the head from becoming negative. -/
theorem Change.ordered_apply {a : Agenda} {c : Change} (possible : c.Possible a)
    (exact : c.Exact a) (h : a.Ordered) : (c.apply a).Ordered := by
  cases c with
  | spent ticks => exact h
  | queued u ticks => exact ordered_insert exact h
  | removed u => exact ordered_remove exact h
  | settled =>
    show ∀ e ∈ a.settle.queue.tail, 0 ≤ e.offset.toInt
    rwa [queue_tail_settle]
  | popped u offset =>
    obtain ⟨rest, queue⟩ := possible
    unfold Agenda.Ordered at h ⊢
    rw [queue, List.tail_cons] at h
    have tail : ((Change.popped u offset).apply a).queue.tail = rest.tail := by
      cases rest with
      | nil => simp [Change.apply, Agenda.pop?, queue]
      | cons f rest => simp [Change.apply, Agenda.pop?, queue]
    rw [tail]
    exact fun e there => h e (List.mem_of_mem_tail there)
  | rested =>
    show ∀ e ∈ a.rearm.queue.tail, 0 ≤ e.offset.toInt
    rwa [queue_rearm]

theorem ordered_after {a : Agenda} {h : List Change} (possible : Trail Change.Possible a h)
    (exact : Trail Change.Exact a h) (first : a.Ordered) : (a.after h).Ordered :=
  (possible.and exact).invariant (fun _ _ both => Change.ordered_apply both.1 both.2) first

theorem ordered_start (idleWait : Int32) : (Agenda.start idleWait).Ordered := by
  intro e there
  simp [Agenda.start] at there

theorem sorted_remainingAfter (passed : Int) {q : List Entry}
    (nonneg : ∀ e ∈ q, 0 ≤ e.offset.toInt) :
    (∀ x ∈ remainingAfter passed q, passed ≤ x.2) ∧
      (remainingAfter passed q).Pairwise (·.2 ≤ ·.2) := by
  induction q generalizing passed with
  | nil => simp [remainingAfter]
  | cons e rest ih =>
    have step := nonneg e List.mem_cons_self
    obtain ⟨above, sorted⟩ := ih (passed + e.offset.toInt)
      fun f there => nonneg f (List.mem_cons_of_mem _ there)
    refine ⟨?_, List.pairwise_cons.2 ⟨above, sorted⟩⟩
    intro x there
    rcases List.mem_cons.1 there with rfl | there
    · dsimp only
      omega
    · have := above x there
      omega

theorem Agenda.Ordered.remaining {a : Agenda} (h : a.Ordered) :
    a.remaining.Pairwise (·.2 ≤ ·.2) := by
  unfold Agenda.Ordered at h
  unfold Agenda.remaining
  cases queue : a.queue with
  | nil => exact List.Pairwise.nil
  | cons e rest =>
    rw [queue, List.tail_cons] at h
    exact List.pairwise_cons.2 (sorted_remainingAfter _ h)

end Peripheral
