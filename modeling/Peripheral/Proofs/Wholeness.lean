import Peripheral.Proofs.Chain
import Peripheral.Proofs.Course
import Peripheral.Proofs.Deadlines
import Peripheral.Storage.MemoryImages

/-!
# The chain of pending units is never broken

* `Chain.Whole c us` : the links of `c` lead through the units `us` to the end, each once, and all
  other units are blank;
* `whole_at_every_moment` : **at every moment of a simulation the chain is whole**: no walk along the
  links goes on forever or comes to a unit without a link, and as long as nothing has overflowed no
  offset after the head is negative.
-/

namespace Peripheral

/-- The links lead from the head through some units to the end. Each of these comes up once, they are
exactly those with a link, and the others have no offset either. -/
structure Chain.Whole (c : Chain) (us : List UnitId) : Prop where
  walk : c.Walk c.head us
  nodup : us.Nodup
  linked : ∀ u, u ∈ us ↔ (c.link u).isSome
  blank : ∀ u, c.link u = none → c.offset u = 0

theorem Chain.Holds.whole {c : Chain} {a : Agenda} (h : c.Holds a) (nodup : a.units.Nodup) :
    c.Whole a.units := by
  have linked : ∀ u, u ∈ a.units ↔ (c.link u).isSome := by
    intro u
    constructor
    · intro pending
      obtain ⟨l, link⟩ := h.stores.walk.link_of_mem pending
      rw [link]
      rfl
    · intro some
      by_contra idle
      rw [(h.idle u idle).1] at some
      simp at some
  refine ⟨?_, nodup, linked, fun u none => (h.idle u ?_).2⟩
  · rw [h.head]
    exact h.stores.walk
  · rw [linked u, none]
    simp

theorem Chain.Holds.nonneg {c : Chain} {a : Agenda} (h : c.Holds a) (ordered : a.Ordered) :
    ∀ u ∈ a.units.tail, 0 ≤ (c.offset u).toInt := by
  intro u behind
  unfold Agenda.units at behind
  rw [← List.map_tail] at behind
  obtain ⟨e, there, is⟩ := List.mem_map.1 behind
  rw [← is, h.stores.offset e (List.mem_of_mem_tail there)]
  exact ordered e there

section
variable {σ ω : Type} [MediaStore σ] {idleWait : Int32} {m : List Change}

/-- At every moment of a simulation, between operations and inside callbacks, the chain that the
operations so far have left behind is whole; none of them has come upon a broken one. It is the chain
that the scheduler shows, and as long as no sum or difference has overflowed, no offset after the head
is negative. -/
theorem whole_at_every_moment (moment : Moment σ ω idleWait m) :
    ∃ c us, (∀ links, m.length ≤ links → (Chain.start idleWait).replay links m = pure c) ∧
      c.Whole us ∧
      (Trail Change.Exact (Agenda.start idleWait) m → ∀ u ∈ us.tail, 0 ≤ (c.offset u).toInt) ∧
      ∀ s : Scheduler σ ω, s.Course idleWait m →
        s.agenda.units = us ∧ s.agenda.head = c.head ∧
          ∀ u, s.agenda.link? u = c.link u ∧ s.agenda.offsetOf u = c.offset u := by
  have replays := fun links (room : m.length ≤ links) =>
    Chain.replay_holds links (Chain.start_holds idleWait) List.nodup_nil
      (by rw [Agenda.units, Agenda.start, List.map_nil, List.length_nil, Nat.zero_add]; exact room)
      moment.possible
  obtain ⟨c, replayed, holds⟩ := replays m.length (Nat.le_refl _)
  refine ⟨c, _, fun links room => ?_, holds.whole moment.nodup, fun exact => ?_,
    fun s course => ?_⟩
  · obtain ⟨d, replayed', holds'⟩ := replays links room
    rw [replayed', holds'.unique holds]
  · exact holds.nonneg (ordered_after moment.possible exact (ordered_start idleWait))
  · rw [← course.agenda] at holds ⊢
    exact ⟨rfl, holds.headOf.symm, fun u => ⟨(holds.link? u).symm, (holds.offsetOf u).symm⟩⟩

end

/-- A unit that is put before another one, a dispatch that fires it, and the other one left. -/
theorem whole_after_dispatch :
    ∃ c us, (Chain.start 100).replay 4
        [.queued 1 4, .queued 0 0, .settled, .popped 0 0] = pure c ∧ c.Whole us ∧
      ∀ u ∈ us.tail, 0 ≤ (c.offset u).toInt := by
  let s : Scheduler MemoryImages Unit := .start 100 1 () default (.empty none)
  let p : Program Unit := .call (.activate 1 4) fun _ => .call (.activate 0 0) fun _ =>
    .dispatch .done
  have moment : Moment MemoryImages Unit 100 [.queued 1 4, .queued 0 0, .settled, .popped 0 0] :=
    ⟨s, [], p, 1, .start rfl, by decide +kernel⟩
  obtain ⟨c, us, replayed, whole, nonneg, -⟩ := whole_at_every_moment moment
  exact ⟨c, us, replayed 4 (by decide), whole, nonneg (by decide)⟩

end Peripheral
