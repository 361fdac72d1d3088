import Peripheral.Proofs.Punctual

/-!
# What becomes of a booking

A booking stands until its unit is taken off the head of the queue, or out of it. In a history that
has been prompt from the start, the first happens when the booking is due, and at most `-k` ticks
later.

* `Fires m b j`, `Withdrawn m b j` : the change at `j` takes the unit of `b` off the head, or out;
* `stands_or_ended` : what every booking comes to; `ticksIn` : the ticks spent in a history;
* `Punctual k m` : a history that has been prompt from the start;
* `Punctual.fired` : **a unit fires when it is due, before all that are due later or were booked
  later**;
* `Punctual.loss_range`, `Punctual.in_order` : what a unit that fires loses, the order of firing.
-/

namespace Peripheral

/-- The change at place `j` takes the unit of a booking that has stood so far off the head. -/
structure Fires (m : List Change) (b : Booking) (j : Nat) : Prop where
  standing : Standing (m.take j) b
  popped : ∃ offset, m[j]? = some (.popped b.unit offset)

/-- The change at place `j` takes the unit of a booking that has stood so far out of the queue. -/
structure Withdrawn (m : List Change) (b : Booking) (j : Nat) : Prop where
  standing : Standing (m.take j) b
  removed : m[j]? = some (.removed b.unit)

section
variable {m h : List Change} {b d : Booking} {i j : Nat}

theorem Fires.lt_length (fires : Fires m b j) : j < m.length := by
  obtain ⟨offset, popped⟩ := fires.popped
  exact (List.getElem?_eq_some_iff.1 popped).1

theorem Withdrawn.lt_length (withdrawn : Withdrawn m b j) : j < m.length :=
  (List.getElem?_eq_some_iff.1 withdrawn.removed).1

theorem Standing.place_lt_take (standing : Standing (m.take j) b) : b.place < j := by
  have short := standing.place_lt
  rw [List.length_take] at short
  omega

theorem Fires.append (fires : Fires m b j) (h : List Change) : Fires (m ++ h) b j := by
  have short := fires.lt_length
  refine ⟨?_, ?_⟩
  · rw [List.take_append_of_le_length (Nat.le_of_lt short)]
    exact fires.standing
  · rw [List.getElem?_append_left short]
    exact fires.popped

theorem Withdrawn.append (withdrawn : Withdrawn m b j) (h : List Change) :
    Withdrawn (m ++ h) b j := by
  have short := withdrawn.lt_length
  refine ⟨?_, ?_⟩
  · rw [List.take_append_of_le_length (Nat.le_of_lt short)]
    exact withdrawn.standing
  · rw [List.getElem?_append_left short]
    exact withdrawn.removed

theorem Standing.not_ends {c : Change} (standing : Standing h b) (here : h[i]? = some c)
    (later : b.place < i) : ¬c.Ends b.unit := by
  refine standing.since c (List.mem_of_getElem? (i := i - (b.place + 1)) ?_)
  rw [List.getElem?_drop]
  have same : b.place + 1 + (i - (b.place + 1)) = i := by omega
  rw [same]
  exact here

theorem Standing.length_le (standing : Standing h b) (fires : Fires (h ++ m) b j) :
    h.length ≤ j := by
  by_contra early
  obtain ⟨offset, popped⟩ := fires.popped
  rw [List.getElem?_append_left (Nat.not_le.1 early)] at popped
  exact standing.not_ends popped fires.standing.place_lt_take rfl

theorem Fires.not_withdrawn (fires : Fires m b i) : ¬Withdrawn m b j := by
  intro withdrawn
  obtain ⟨offset, popped⟩ := fires.popped
  have removed := withdrawn.removed
  rcases Nat.lt_trichotomy i j with first | rfl | first
  · refine withdrawn.standing.not_ends (c := .popped b.unit offset) ?_ fires.standing.place_lt_take rfl
    rw [List.getElem?_take_of_lt first]
    exact popped
  · rw [removed] at popped
    simp at popped
  · refine fires.standing.not_ends (c := .removed b.unit) ?_ withdrawn.standing.place_lt_take rfl
    rw [List.getElem?_take_of_lt first]
    exact removed

/-- A unit put into the queue is still pending, or it has fired, or it has been withdrawn. -/
theorem stands_or_ended (made : m[b.place]? = some (.queued b.unit b.ticks)) :
    Standing m b ∨ ∃ j, Fires m b j ∨ Withdrawn m b j := by
  induction m using List.reverseRecOn with
  | nil => simp at made
  | append_singleton h c ih =>
    rcases Nat.lt_or_ge b.place h.length with old | new
    · rw [List.getElem?_append_left old] at made
      rcases ih made with standing | ⟨j, fires | withdrawn⟩
      · by_cases ends : c.Ends b.unit
        · have last : (h ++ [c])[h.length]? = some c := by simp
          have before : Standing ((h ++ [c]).take h.length) b := by rwa [List.take_left]
          refine .inr ⟨h.length, ?_⟩
          cases c with
          | removed u =>
            have unit : u = b.unit := ends
            rw [unit] at last before ⊢
            exact .inr ⟨before, last⟩
          | popped u offset =>
            have unit : u = b.unit := ends
            rw [unit] at last before ⊢
            exact .inl ⟨before, offset, last⟩
          | spent | queued | settled | rested => exact ends.elim
        · exact .inl (standing_concat.2 (.inl ⟨standing, ends⟩))
      · exact .inr ⟨j, .inl (fires.append [c])⟩
      · exact .inr ⟨j, .inr (withdrawn.append [c])⟩
    · have place := (List.getElem?_eq_some_iff.1 made).1
      rw [List.length_append, List.length_singleton] at place
      have last : b.place = h.length := by omega
      rw [last, List.getElem?_concat_length] at made
      exact .inl (standing_concat.2 (.inr ⟨last, Option.some.inj made⟩))

end

/-! ## Counting ticks -/

def Change.spends : Change → Bool
  | .spent _ => true
  | _ => false

/-- The ticks that have succeeded in a history. Each spends itself at its end. -/
def ticksIn (h : List Change) : Nat := h.countP Change.spends

@[simp] theorem ticksIn_append (h h' : List Change) : ticksIn (h ++ h') = ticksIn h + ticksIn h' :=
  List.countP_append

theorem ticksIn_of_inTime {a : Agenda} {h : List Change} (inTime : Trail Change.InTime a h) :
    ticksIn h = 0 := by
  induction h generalizing a with
  | nil => rfl
  | cons c h ih =>
    have rest := ih inTime.2
    cases c with
    | spent ticks => exact inTime.1.elim
    | _ => exact rest

theorem elapsed_of_prompt {a : Agenda} {k : Int} {h : List Change}
    (prompt : Trail (Change.Prompt k) a h) : elapsed h = ticksIn h := by
  induction h generalizing a with
  | nil => rfl
  | cons c h ih =>
    have rest := ih prompt.2
    rw [elapsed, rest]
    cases c with
    | spent ticks =>
      obtain ⟨rfl, -⟩ := prompt.1
      have more : ticksIn (.spent 1 :: h) = ticksIn h + 1 := List.countP_cons_of_pos rfl
      have one : (Change.spent 1).ticks = 1 := rfl
      rw [more, one]
      omega
    | _ => exact Int.zero_add _

theorem elapsed_of_inTime {a : Agenda} {h : List Change} (inTime : Trail Change.InTime a h) :
    elapsed h = 0 := by
  rw [elapsed_of_prompt (inTime.mono fun a c here => here.prompt 0), ticksIn_of_inTime inTime]
  rfl

/-! ## Histories that are prompt from the start -/

/-- From an empty agenda on, all changes have been prompt. -/
structure Punctual (idleWait : Int32) (k : Int) (m : List Change) : Prop where
  least : -1 ≤ k
  most : k ≤ 0
  possible : Trail Change.Possible (Agenda.start idleWait) m
  prompt : Trail (Change.Prompt k) (Agenda.start idleWait) m

namespace Punctual

variable {idleWait : Int32} {k : Int} {m h : List Change} {b d : Booking} {i j : Nat}

theorem append {a : Agenda} (punctual : Punctual idleWait k h)
    (agenda : a = (Agenda.start idleWait).after h) (possible : Trail Change.Possible a m)
    (prompt : Trail (Change.Prompt k) a m) : Punctual idleWait k (h ++ m) := by
  subst agenda
  exact { punctual with
    possible := Trail.append.2 ⟨punctual.possible, possible⟩
    prompt := Trail.append.2 ⟨punctual.prompt, prompt⟩ }

theorem append_inTime {a : Agenda} (punctual : Punctual idleWait k h)
    (agenda : a = (Agenda.start idleWait).after h) (possible : Trail Change.Possible a m)
    (inTime : Trail Change.InTime a m) : Punctual idleWait k (h ++ m) :=
  punctual.append agenda possible (inTime.mono fun _ _ here => here.prompt k)

theorem of_isPrefix (punctual : Punctual idleWait k h) (before : m <+: h) :
    Punctual idleWait k m :=
  { punctual with
    possible := punctual.possible.of_isPrefix before
    prompt := punctual.prompt.of_isPrefix before }

theorem nodup (punctual : Punctual idleWait k m) :
    ((Agenda.start idleWait).after m).units.Nodup :=
  nodup_after punctual.possible List.nodup_nil

theorem timely (punctual : Punctual idleWait k m) :
    Trail Change.Faithful (Agenda.start idleWait) m ∧
      ((Agenda.start idleWait).after m).Timely k :=
  timely_after punctual.least punctual.most List.nodup_nil punctual.possible punctual.prompt
    (timely_of_empty rfl)

/-- What a punctual history leaves behind is timely, and holds each unit once. -/
theorem leaves {a : Agenda} (punctual : Punctual idleWait k m)
    (agenda : a = (Agenda.start idleWait).after m) : a.units.Nodup ∧ a.Timely k := by
  subst agenda
  exact ⟨punctual.nodup, punctual.timely.2⟩

theorem kept (punctual : Punctual idleWait k m) : Kept m ((Agenda.start idleWait).after m) :=
  kept_of_trail rfl punctual.possible punctual.timely.1

/-- What the change at place `j` is made to. -/
theorem change (punctual : Punctual idleWait k m) {c : Change} (here : m[j]? = some c) :
    c.Possible ((Agenda.start idleWait).after (m.take j)) ∧
      c.Prompt k ((Agenda.start idleWait).after (m.take j)) := by
  obtain ⟨short, rfl⟩ := List.getElem?_eq_some_iff.1 here
  have possible := punctual.possible
  have prompt := punctual.prompt
  rw [← List.take_append_drop j m, List.drop_eq_getElem_cons short, Trail.append] at possible prompt
  exact ⟨possible.2.1, prompt.2.1⟩

/-- Only units that are due, and are so for at most `-k` ticks, are taken off the head. -/
theorem popped_range (punctual : Punctual idleWait k m) {u : UnitId} {offset : Int32}
    (here : m[j]? = some (.popped u offset)) : k ≤ offset.toInt ∧ offset.toInt ≤ 0 := by
  obtain ⟨⟨rest, queue⟩, due, settled⟩ := punctual.change here
  have soonest := (punctual.of_isPrefix (List.take_prefix j m)).timely.2.soonest (by
    rw [queue]
    exact List.cons_ne_nil _ _)
  rw [settled]
  exact ⟨soonest, due⟩

theorem loss_range (punctual : Punctual idleWait k m) : ∀ c ∈ m, 0 ≤ c.loss ∧ c.loss ≤ -k := by
  intro c there
  obtain ⟨j, here⟩ := List.getElem?_of_mem there
  have most := punctual.most
  cases c with
  | popped u offset =>
    have range := punctual.popped_range here
    show 0 ≤ -offset.toInt ∧ -offset.toInt ≤ -k
    omega
  | _ =>
    show (0 : Int) ≤ 0 ∧ (0 : Int) ≤ -k
    omega

/-- A unit fires when it is due, and all other bookings are due later, or were made later. -/
theorem fired (punctual : Punctual idleWait k m) {offset : Int32} (standing : Standing (m.take j) b)
    (popped : m[j]? = some (.popped b.unit offset)) :
    elapsed (m.take j) = b.due (m.take j) - offset.toInt ∧
      ∀ d, Standing (m.take j) d → d ≠ b → b.Before (m.take j) d := by
  obtain ⟨⟨rest, queue⟩, -, settled⟩ := punctual.change popped
  have past := punctual.of_isPrefix (List.take_prefix j m)
  obtain ⟨due, first⟩ := past.kept.head past.nodup queue standing rfl
  refine ⟨?_, first⟩
  rw [settled]
  omega

theorem fired_later (punctual : Punctual idleWait k (h ++ m)) (standing : Standing h b)
    (fires : Fires (h ++ m) b j) :
    ∃ n u offset, j = h.length + n ∧ m[n]? = some (.popped u offset) ∧
      elapsed h + elapsed (m.take n) = b.due h + lost (m.take (n + 1)) := by
  obtain ⟨offset, popped⟩ := fires.popped
  have law := (punctual.fired fires.standing popped).1
  obtain ⟨n, rfl⟩ := Nat.exists_eq_add_of_le (standing.length_le fires)
  rw [List.getElem?_append_right (Nat.le_add_right _ _), Nat.add_sub_cancel_left] at popped
  rw [List.take_length_add_append, elapsed_append,
    due_append _ (Nat.le_of_lt standing.place_lt)] at law
  refine ⟨n, b.unit, offset, rfl, popped, ?_⟩
  have here : lost (some (Change.popped b.unit offset)).toList = -offset.toInt := Int.add_zero _
  rw [List.take_add_one, popped, lost_append, here]
  omega

theorem le_due {ticks : Int} (punctual : Punctual idleWait k m)
    (ahead : ((Agenda.start idleWait).after m).Timely ticks) (standing : Standing m b) :
    elapsed m + ticks ≤ b.due m := by
  refine punctual.kept.le_due (fun x there => ?_) standing
  exact Int.le_trans (ahead.soonest (queue_ne_nil_of_mem there)) (ahead.ordered.interval_le x there)

/-- Of two bookings that fire, one that was due earlier, or at the same time and made earlier, when
the other one fired, had fired before. -/
theorem in_order (punctual : Punctual idleWait k m) (fires : Fires m b i) (other : Fires m d j)
    (made : b.place < d.place) (late : j ≤ i) : d.due (m.take j) < b.due (m.take j) := by
  have apart : b ≠ d := by
    rintro rfl
    exact Nat.lt_irrefl _ made
  have place := other.standing.place_lt_take
  have standing : Standing (m.take j) b :=
    fires.standing.of_isPrefix (List.take_prefix_take_left late) (by
      rw [List.length_take]
      have := other.lt_length
      omega)
  obtain ⟨offset, popped⟩ := other.popped
  obtain ⟨-, first⟩ := punctual.fired other.standing popped
  have before := first b standing apart
  unfold Booking.Before at before
  omega

theorem lost_eq_zero (punctual : Punctual idleWait 0 m) : lost m = 0 := by
  refine Peripheral.lost_eq_zero fun c there => ?_
  have range := punctual.loss_range c there
  omega

/-- Where nothing is ever overdue, a booking stays due when it was at first. -/
theorem due_eq (punctual : Punctual idleWait 0 m) :
    b.due m = elapsed (m.take b.place) + max b.ticks.toInt 0 := by
  have whole := punctual.lost_eq_zero
  have part := (punctual.of_isPrefix (List.take_prefix b.place m)).lost_eq_zero
  rw [← List.take_append_drop b.place m, lost_append] at whole
  unfold Booking.due
  omega

end Punctual

end Peripheral
