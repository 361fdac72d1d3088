import Mathlib.Data.List.Induction
import Mathlib.Data.List.Nodup
import Peripheral.Proofs.Deadlines

/-!
# The ledger of a history

A history tells when each pending unit is due: at the ticks spent before it was put into the queue,
plus those asked for, plus whatever dispatches have lost since. A dispatch that takes an overdue unit
off the queue goes on from the moment at which the unit was due, so that all others move by the ticks
that the unit was overdue.

* `elapsed`, `lost` : ticks spent and lost in a history;
* `Booking`, `Standing h b` : a unit put into the queue and still pending after `h`; `Booking.due` :
  when it is due;
* `Change.Faithful` : changes at which nothing overflows;
* `Kept h a` : the remaining ticks of an agenda are those of the standing bookings, in the order of
  their deadlines, then of their entry (`kept_concat`);
* `kept_of_trail` : **the agenda that a history leaves behind is kept by it**;
* `Kept.head`, `Kept.le_due` : the head is due first; nothing is due before the agenda says so.
-/

namespace Peripheral
open Ticks

/-! ## Bookings -/

def Change.ticks : Change → Int
  | .spent ticks => ticks.toInt
  | _ => 0

/-- The ticks that a change loses: those that a unit taken off the head is overdue. -/
def Change.loss : Change → Int
  | .popped _ offset => -offset.toInt
  | _ => 0

def Change.Ends (u : UnitId) : Change → Prop
  | .removed v => v = u
  | .popped v _ => v = u
  | _ => False

instance (u : UnitId) (c : Change) : Decidable (c.Ends u) :=
  match c with
  | .removed v => inferInstanceAs (Decidable (v = u))
  | .popped v _ => inferInstanceAs (Decidable (v = u))
  | .spent _ | .queued _ _ | .settled | .rested => inferInstanceAs (Decidable False)

def elapsed : List Change → Int
  | [] => 0
  | c :: h => c.ticks + elapsed h

def lost : List Change → Int
  | [] => 0
  | c :: h => c.loss + lost h

/-- A unit put into the queue: by which change of a history, and for how many ticks. -/
structure Booking where
  unit : UnitId
  place : Nat
  ticks : Int32
deriving DecidableEq, Repr

/-- A booking is one of a history, and the unit has been pending since. -/
structure Standing (h : List Change) (b : Booking) : Prop where
  made : h[b.place]? = some (.queued b.unit b.ticks)
  since : ∀ c ∈ h.drop (b.place + 1), ¬c.Ends b.unit

/-- When a booking is due, as it stands after a history. -/
def Booking.due (h : List Change) (b : Booking) : Int :=
  elapsed (h.take b.place) + max b.ticks.toInt 0 + lost (h.drop b.place)

/-- A booking comes before another one: it is due earlier, or it is due at the same time and was made
earlier. -/
def Booking.Before (h : List Change) (b c : Booking) : Prop :=
  b.due h < c.due h ∨ b.due h = c.due h ∧ b.place < c.place

/-- The remaining ticks of an agenda are those of all standing bookings, in order. -/
def Kept (h : List Change) (a : Agenda) : Prop :=
  ∃ l : List Booking, a.remaining = l.map (fun b => (b.unit, b.due h - elapsed h)) ∧
    (∀ b, b ∈ l ↔ Standing h b) ∧ l.Pairwise (Booking.Before h)

def Change.Faithful (a : Agenda) : Change → Prop
  | .queued _ ticks => a.Fits ticks
  | .spent ticks => a.queue ≠ [] → InRange (a.interval.toInt - ticks.toInt)
  | c => c.Exact a

/-! ## One more change -/

section
variable {h : List Change} {b : Booking} {c : Change}

@[simp] theorem elapsed_append (h h' : List Change) : elapsed (h ++ h') = elapsed h + elapsed h' := by
  induction h with
  | nil => simp [elapsed]
  | cons c h ih =>
    rw [List.cons_append, elapsed, elapsed, ih]
    omega

@[simp] theorem lost_append (h h' : List Change) : lost (h ++ h') = lost h + lost h' := by
  induction h with
  | nil => simp [lost]
  | cons c h ih =>
    rw [List.cons_append, lost, lost, ih]
    omega

theorem lost_eq_zero {h : List Change} (none : ∀ c ∈ h, c.loss = 0) : lost h = 0 := by
  induction h with
  | nil => rfl
  | cons c h ih =>
    have rest := ih fun d there => none d (List.mem_cons_of_mem _ there)
    rw [lost, none c List.mem_cons_self, rest]
    rfl

theorem elapsed_concat : elapsed (h ++ [c]) = elapsed h + c.ticks := by
  simp [elapsed]

theorem due_append (h' : List Change) (within : b.place ≤ h.length) :
    b.due (h ++ h') = b.due h + lost h' := by
  unfold Booking.due
  rw [List.take_append_of_le_length within, List.drop_append_of_le_length within, lost_append]
  omega

theorem due_concat (within : b.place ≤ h.length) : b.due (h ++ [c]) = b.due h + c.loss := by
  rw [due_append [c] within]
  simp [lost]

theorem Standing.place_lt (standing : Standing h b) : b.place < h.length :=
  (List.getElem?_eq_some_iff.1 standing.made).1

theorem Standing.of_isPrefix {m : List Change} (standing : Standing h b) (before : m <+: h)
    (made : b.place < m.length) : Standing m b := by
  obtain ⟨rest, rfl⟩ := before
  refine ⟨?_, fun c there => standing.since c ?_⟩
  · have there := standing.made
    rwa [List.getElem?_append_left made] at there
  · rw [List.drop_append_of_le_length made]
    exact List.mem_append_left _ there

/-- A booking stands after one more change if it stood before and the change does not end it, or if
the change makes it. -/
theorem standing_concat :
    Standing (h ++ [c]) b ↔
      Standing h b ∧ ¬c.Ends b.unit ∨ b.place = h.length ∧ c = .queued b.unit b.ticks := by
  constructor
  · intro standing
    obtain ⟨made, since⟩ := standing
    rcases Nat.lt_or_ge b.place h.length with old | new
    · rw [List.getElem?_append_left old] at made
      rw [List.drop_append_of_le_length old] at since
      refine .inl ⟨⟨made, fun d there => since d (List.mem_append_left _ there)⟩, ?_⟩
      exact since c (List.mem_append_right _ (List.mem_singleton_self c))
    · rw [List.getElem?_append_right new] at made
      have last : b.place - h.length = 0 := by
        by_contra beyond
        obtain ⟨k, more⟩ := Nat.exists_eq_succ_of_ne_zero beyond
        rw [more] at made
        simp at made
      rw [last] at made
      refine .inr ⟨by omega, ?_⟩
      simpa using made
  · rintro (⟨⟨made, since⟩, on⟩ | ⟨last, rfl⟩)
    · have old : b.place < h.length := (List.getElem?_eq_some_iff.1 made).1
      refine ⟨by rw [List.getElem?_append_left old]; exact made, ?_⟩
      rw [List.drop_append_of_le_length old]
      intro d there
      rcases List.mem_append.1 there with there | there
      · exact since d there
      · rw [List.mem_singleton.1 there]
        exact on
    · refine ⟨by rw [last]; simp, ?_⟩
      rw [last, List.drop_of_length_le (by simp)]
      simp

theorem before_concat {d : Booking} (old : b.place ≤ h.length) (old' : d.place ≤ h.length)
    (before : b.Before h d) : b.Before (h ++ [c]) d := by
  unfold Booking.Before at before ⊢
  rw [due_concat old, due_concat old']
  omega

/-- What a change that puts nothing into the queue does to the remaining ticks. -/
theorem remaining_apply {a : Agenda} (quiet : ∀ u ticks, c ≠ .queued u ticks)
    (nodup : a.units.Nodup) (possible : c.Possible a) (faithful : c.Faithful a) :
    (c.apply a).remaining =
      (a.remaining.filter fun x => ¬c.Ends x.1).map fun x => (x.1, x.2 + c.loss - c.ticks) := by
  cases c with
  | spent ticks =>
    rw [Change.apply, remaining_consume faithful]
    simp [Change.Ends, Change.loss, Change.ticks]
  | queued u ticks => exact absurd rfl (quiet u ticks)
  | removed u =>
    have struck : a.remaining.filter (fun x => ¬Change.Ends x.1 (.removed u)) =
        a.remaining.filter (·.1 ≠ u) := by
      refine List.filter_congr fun x _ => ?_
      rw [decide_eq_decide]
      exact not_congr eq_comm
    rw [Change.apply, remaining_remove nodup faithful, struck]
    simp [Change.loss, Change.ticks]
  | settled =>
    rw [Change.apply, remaining_settle]
    simp [Change.Ends, Change.loss, Change.ticks]
  | popped u offset =>
    obtain ⟨rest, queue⟩ := possible
    rw [remaining_popped queue faithful]
    have units : a.remaining.map Prod.fst = a.units := map_fst_remaining a
    have first : a.remaining = (u, a.interval.toInt) :: a.remaining.tail := by
      simp [Agenda.remaining, queue]
    rw [first, List.map_cons] at units
    rw [← units, List.nodup_cons] at nodup
    have others : a.remaining.tail.filter (fun x => ¬Change.Ends x.1 (.popped u offset)) =
        a.remaining.tail := by
      rw [List.filter_eq_self]
      intro x there
      rw [decide_eq_true_eq]
      intro ends
      have same : u = x.1 := ends
      refine nodup.1 ?_
      rw [same]
      exact List.mem_map.2 ⟨x, there, rfl⟩
    rw [first, List.tail_cons, List.filter_cons_of_neg (by simp [Change.Ends]), others]
    simp [Change.loss, Change.ticks, Int.sub_eq_add_neg]
  | rested =>
    have empty : a.remaining = [] := by
      unfold Agenda.remaining
      rw [show a.queue = [] from possible]
    rw [Change.apply, remaining_rearm, show a.queue = [] from possible, empty]
    rfl

theorem kept_concat_quiet {a : Agenda} (quiet : ∀ u ticks, c ≠ .queued u ticks) (kept : Kept h a)
    (nodup : a.units.Nodup) (possible : c.Possible a) (faithful : c.Faithful a) :
    Kept (h ++ [c]) (c.apply a) := by
  obtain ⟨l, remaining, standing, sorted⟩ := kept
  have old : ∀ b ∈ l, b.place ≤ h.length := fun b there =>
    Nat.le_of_lt ((standing b).1 there).place_lt
  refine ⟨l.filter fun b => ¬c.Ends b.unit, ?_, fun b => ?_, ?_⟩
  · rw [remaining_apply quiet nodup possible faithful, remaining, List.filter_map, List.map_map]
    refine List.map_congr_left fun b there => ?_
    have within := old b (List.mem_filter.1 there).1
    simp only [Function.comp_apply, Prod.mk.injEq, true_and, elapsed_concat, due_concat within]
    omega
  · rw [standing_concat, List.mem_filter, standing b, decide_eq_true_eq]
    constructor
    · exact .inl
    · rintro (both | ⟨-, made⟩)
      · exact both
      · exact absurd made (quiet _ _)
  · refine (sorted.sublist List.filter_sublist).imp_of_mem fun there there' before => ?_
    exact before_concat (old _ (List.mem_filter.1 there).1) (old _ (List.mem_filter.1 there').1)
      before

/-- Bookings with one more, made by the next change of a history: it goes behind all that are due no
later. -/
def booked (h : List Change) (u : UnitId) (ticks : Int32) (l : List Booking) : List Booking :=
  l.filter (fun b => b.due h - elapsed h ≤ max ticks.toInt 0) ++
    ⟨u, h.length, ticks⟩ :: l.filter (fun b => max ticks.toInt 0 < b.due h - elapsed h)

theorem due_queued {u : UnitId} {ticks : Int32} (old : b.place < h.length) :
    b.due (h ++ [.queued u ticks]) = b.due h := by
  rw [due_concat (Nat.le_of_lt old)]
  exact Int.add_zero _

theorem due_new (h : List Change) (u : UnitId) (ticks : Int32) :
    Booking.due (h ++ [.queued u ticks]) ⟨u, h.length, ticks⟩ =
      elapsed h + max ticks.toInt 0 := by
  unfold Booking.due
  rw [List.take_left, List.drop_left]
  exact Int.add_zero _

theorem elapsed_queued (h : List Change) (u : UnitId) (ticks : Int32) :
    elapsed (h ++ [.queued u ticks]) = elapsed h := by
  rw [elapsed_concat]
  exact Int.add_zero _

theorem map_booked {u : UnitId} {ticks : Int32} {l : List Booking}
    (old : ∀ b ∈ l, b.place < h.length) :
    (booked h u ticks l).map (fun b =>
        (b.unit, b.due (h ++ [.queued u ticks]) - elapsed (h ++ [.queued u ticks]))) =
      (l.map fun b => (b.unit, b.due h - elapsed h)).filter (·.2 ≤ max ticks.toInt 0) ++
        (u, max ticks.toInt 0) ::
          (l.map fun b => (b.unit, b.due h - elapsed h)).filter (max ticks.toInt 0 < ·.2) := by
  have kept : ∀ p : Booking → Bool, (l.filter p).map (fun b =>
      (b.unit, b.due (h ++ [.queued u ticks]) - elapsed (h ++ [.queued u ticks]))) =
        (l.filter p).map fun b => (b.unit, b.due h - elapsed h) := by
    intro p
    refine List.map_congr_left fun b there => ?_
    rw [due_queued (old b (List.mem_filter.1 there).1), elapsed_queued]
  have here : elapsed h + max ticks.toInt 0 - elapsed h = max ticks.toInt 0 := by omega
  rw [booked, List.map_append, List.map_cons, kept, kept, due_new, elapsed_queued, here,
    List.filter_map, List.filter_map]
  rfl

theorem mem_booked {u : UnitId} {ticks : Int32} {l : List Booking}
    (standing : ∀ b, b ∈ l ↔ Standing h b) (b : Booking) :
    b ∈ booked h u ticks l ↔ Standing (h ++ [.queued u ticks]) b := by
  rw [booked, standing_concat, List.mem_append, List.mem_cons, List.mem_filter, List.mem_filter,
    decide_eq_true_eq, decide_eq_true_eq, standing b]
  constructor
  · rintro (⟨stands, -⟩ | rfl | ⟨stands, -⟩)
    · exact .inl ⟨stands, id⟩
    · exact .inr ⟨rfl, rfl⟩
    · exact .inl ⟨stands, id⟩
  · rintro (⟨stands, -⟩ | ⟨last, made⟩)
    · by_cases sooner : b.due h - elapsed h ≤ max ticks.toInt 0
      · exact .inl ⟨stands, sooner⟩
      · exact .inr (.inr ⟨stands, Int.not_le.1 sooner⟩)
    · rw [Change.queued.injEq] at made
      refine .inr (.inl ?_)
      show b = ⟨u, h.length, ticks⟩
      rw [made.1, made.2, ← last]

theorem sorted_booked {u : UnitId} {ticks : Int32} {l : List Booking}
    (old : ∀ b ∈ l, b.place < h.length) (sorted : l.Pairwise (Booking.Before h)) :
    (booked h u ticks l).Pairwise (Booking.Before (h ++ [.queued u ticks])) := by
  have order : ∀ p : Booking → Bool,
      (l.filter p).Pairwise (Booking.Before (h ++ [.queued u ticks])) := fun p =>
    (sorted.sublist List.filter_sublist).imp_of_mem fun there there' before =>
      before_concat (Nat.le_of_lt (old _ (List.mem_filter.1 there).1))
        (Nat.le_of_lt (old _ (List.mem_filter.1 there').1)) before
  rw [booked, List.pairwise_append, List.pairwise_cons]
  refine ⟨order _, ⟨fun b there => ?_, order _⟩, fun b there d there' => ?_⟩
  · obtain ⟨there, later⟩ := List.mem_filter.1 there
    rw [decide_eq_true_eq] at later
    refine .inl ?_
    rw [due_new, due_queued (old b there)]
    omega
  · obtain ⟨there, sooner⟩ := List.mem_filter.1 there
    rw [decide_eq_true_eq] at sooner
    have first := old b there
    rcases List.mem_cons.1 there' with rfl | there'
    · unfold Booking.Before
      rw [due_new, due_queued first]
      show _ ∨ _ ∧ b.place < h.length
      omega
    · obtain ⟨there', later⟩ := List.mem_filter.1 there'
      rw [decide_eq_true_eq] at later
      refine .inl ?_
      rw [due_queued first, due_queued (old d there')]
      omega

theorem kept_concat_queued {a : Agenda} {u : UnitId} {ticks : Int32} (kept : Kept h a)
    (fits : a.Fits ticks) :
    Kept (h ++ [.queued u ticks]) (a.insert u ticks) := by
  obtain ⟨l, remaining, standing, sorted⟩ := kept
  have old : ∀ b ∈ l, b.place < h.length := fun b there => ((standing b).1 there).place_lt
  have ascending : a.remaining.Pairwise (·.2 ≤ ·.2) := by
    rw [remaining, List.pairwise_map]
    refine sorted.imp fun before => ?_
    unfold Booking.Before at before
    dsimp only
    omega
  refine ⟨booked h u ticks l, ?_, mem_booked standing, sorted_booked old sorted⟩
  rw [(remaining_insert fits).2, book_of_sorted ascending, toInt_max_zero, map_booked old, remaining]

theorem kept_concat {a : Agenda} (kept : Kept h a) (nodup : a.units.Nodup)
    (possible : c.Possible a) (faithful : c.Faithful a) : Kept (h ++ [c]) (c.apply a) := by
  by_cases quiet : ∀ u ticks, c ≠ .queued u ticks
  · exact kept_concat_quiet quiet kept nodup possible faithful
  · simp only [not_forall, not_not] at quiet
    obtain ⟨u, ticks, rfl⟩ := quiet
    exact kept_concat_queued kept faithful

end

/-! ## Whole histories -/

/-- The agenda that a history leaves behind is kept by it. -/
theorem kept_of_trail {a : Agenda} {h : List Change} (empty : a.queue = [])
    (possible : Trail Change.Possible a h) (faithful : Trail Change.Faithful a h) :
    Kept h (a.after h) := by
  induction h using List.reverseRecOn with
  | nil =>
    refine ⟨[], by simp [Agenda.remaining, empty], fun b => ?_, List.Pairwise.nil⟩
    constructor
    · simp
    · intro standing
      have := standing.place_lt
      simp at this
  | append_singleton h c ih =>
    rw [Trail.append] at possible faithful
    have nodup := nodup_after possible.1 (by simp [Agenda.units, empty])
    rw [Agenda.after_append]
    exact kept_concat (ih possible.1 faithful.1) nodup possible.2.1 faithful.2.1

section
variable {h : List Change} {a : Agenda} {b : Booking} {e : Entry} {rest : List Entry}

theorem Kept.head (kept : Kept h a) (nodup : a.units.Nodup) (queue : a.queue = e :: rest)
    (standing : Standing h b) (first : b.unit = e.unit) :
    b.due h - elapsed h = a.interval.toInt ∧ ∀ d, Standing h d → d ≠ b → b.Before h d := by
  obtain ⟨l, remaining, stands, sorted⟩ := kept
  have units : a.units = l.map Booking.unit := by
    rw [← map_fst_remaining, remaining, List.map_map]
    rfl
  cases l with
  | nil => simp [Agenda.remaining, queue] at remaining
  | cons d l =>
    rw [Agenda.remaining, queue] at remaining
    simp only [List.map_cons, List.cons.injEq, Prod.mk.injEq] at remaining
    obtain ⟨⟨unit, interval⟩, -⟩ := remaining
    rw [units, List.map_cons, List.nodup_cons] at nodup
    have is : b = d := by
      rcases List.mem_cons.1 ((stands b).2 standing) with is | behind
      · exact is
      · refine absurd ?_ nodup.1
        rw [← unit, ← first]
        exact List.mem_map_of_mem behind
    subst is
    refine ⟨interval.symm, fun d other apart => ?_⟩
    rcases List.mem_cons.1 ((stands d).2 other) with same | behind
    · exact absurd same apart
    · exact (List.pairwise_cons.1 sorted).1 d behind

theorem Kept.mem_units (kept : Kept h a) (u : UnitId) :
    u ∈ a.units ↔ ∃ b, Standing h b ∧ b.unit = u := by
  obtain ⟨l, remaining, stands, -⟩ := kept
  rw [← map_fst_remaining, remaining, List.map_map, List.mem_map]
  simp only [Function.comp_apply, stands]

theorem Kept.pending (kept : Kept h a) (standing : Standing h b) : a.queue ≠ [] := by
  intro empty
  have there := (kept.mem_units b.unit).2 ⟨b, standing, rfl⟩
  simp [Agenda.units, empty] at there

/-- No standing booking is due before the remaining ticks of all units say so. -/
theorem Kept.le_due (kept : Kept h a) {ticks : Int} (bound : ∀ x ∈ a.remaining, ticks ≤ x.2)
    (standing : Standing h b) : elapsed h + ticks ≤ b.due h := by
  obtain ⟨l, remaining, stands, -⟩ := kept
  have there := bound (b.unit, b.due h - elapsed h) (by
    rw [remaining]
    exact List.mem_map.2 ⟨b, (stands b).2 standing, rfl⟩)
  dsimp only at there
  omega

end

end Peripheral
