import Peripheral.Proofs.Firing
import Peripheral.Proofs.Passive
import Peripheral.Storage.MemoryImages

/-!
# Ticks

Where time passes by ticks alone, it never runs ahead of the queue: a tick fires what is due before it
spends itself, and does not succeed if it cannot.

* `tickChanges` : the changes that a tick makes (`tick_recordedBy`, `tick_prompt`);
* `Scheduler.Ticking` : the schedulers that come up where time passes by ticks, with the ticks that
  have succeeded and the changes so far (`Ticking.sound`);
* `Booking.tick` : the number of the tick that a unit is booked for (`Punctual.ticksIn_eq_tick`);
* `ticks_fire_on_time` : **every unit fires in the tick that it was booked for**, in the order of
  booking.
-/

namespace Peripheral

variable {σ ω : Type} [MediaStore σ]

/-! ## What a tick does -/

namespace Scheduler

def tickChanges (pops : Nat) : Chronicle σ ω := (Act.tick .done).runChanges pops

theorem tick_recordedBy (pops : Nat) :
    Motion.RecordedBy (tick pops : Motion σ ω) (tickChanges pops) := by
  have same : (tick pops : Motion σ ω) = (Act.tick .done).run pops := funext (tick_eq_run pops)
  rw [same]
  exact Program.run_recordedBy pops _

theorem tickChanges_of_pos (pops : Nat) {s : Scheduler σ ω} (ahead : ¬s.agenda.interval ≤ 0) :
    s.tickChanges pops = [.spent 1] ∧ s.tick pops = some (.ok (), s.consume 1) := by
  refine ⟨?_, ?_⟩
  · unfold tickChanges Program.runChanges
    rw [tick_program, Program.changes]
    dsimp only [perform]
    rw [if_neg ahead]
    rfl
  · unfold tick
    rw [if_neg ahead]

theorem tickChanges_of_le (pops : Nat) {s : Scheduler σ ω} (due : s.agenda.interval ≤ 0) :
    s.tickChanges pops = s.processEventChanges pops ++
      match s.processEvent pops with
      | some (.ok (), _) => [.spent 1]
      | _ => [] := by
  unfold tickChanges Program.runChanges
  rw [tick_program, Program.changes]
  dsimp only [perform]
  rw [if_pos due, Program.changes]
  show [] ++ (_ ++ _) = _
  rw [List.nil_append]
  refine congrArg _ ?_
  cases s.processEvent pops with
  | none => rfl
  | some answer =>
    obtain ⟨result, t⟩ := answer
    cases result <;> rfl

/-- A tick first makes changes in time, then spends itself if it succeeds, which is before anything
that is left is due. -/
theorem tick_prompt (pops : Nat) {s : Scheduler σ ω} (calm : s.Calm)
    (nodup : s.agenda.units.Nodup) (timely : s.agenda.Timely 0) :
    ∃ first last, s.tickChanges pops = first ++ last ∧ Trail Change.InTime s.agenda first ∧
      (last = [] ∨ last = [.spent 1] ∧ (s.agenda.after first).Timely 1) ∧
      ∀ result t, s.tick pops = some (result, t) → t.Calm ∧
        (last = [.spent 1] ↔ result = .ok ()) := by
  by_cases due : s.agenda.interval ≤ 0
  · have soon : s.agenda.interval.toInt ≤ 0 := Int32.le_iff_toInt_le.1 due
    obtain ⟨inTime, ends⟩ := processEvent_inTime (Int.le_refl 0) pops calm nodup timely soon
    have records := (processEvent_recordedBy (σ := σ) (ω := ω) pops).agenda s
    rw [tickChanges_of_le pops due]
    unfold tick
    rw [if_pos due]
    refine ⟨_, _, rfl, inTime, ?_, ?_⟩
    · cases ended : s.processEvent pops with
      | none => exact .inl rfl
      | some answer =>
        obtain ⟨result, t⟩ := answer
        cases result with
        | error status => exact .inl rfl
        | ok _ =>
          rw [← records _ _ ended]
          exact .inr ⟨rfl, (ends _ _ ended).2.2 rfl⟩
    · intro result t ended
      cases dispatched : s.processEvent pops with
      | none => simp [dispatched] at ended
      | some answer =>
        obtain ⟨result', t'⟩ := answer
        have quiet := (ends _ _ dispatched).1
        cases result' with
        | error status =>
          simp only [dispatched, Option.some.injEq, Prod.mk.injEq] at ended
          rw [← ended.1, ← ended.2]
          exact ⟨quiet, by simp⟩
        | ok _ =>
          simp only [dispatched, Option.some.injEq, Prod.mk.injEq] at ended
          rw [← ended.1, ← ended.2]
          exact ⟨quiet.of_slots rfl, by simp⟩
  · obtain ⟨changes, ended⟩ := tickChanges_of_pos pops due
    rw [changes, ended]
    refine ⟨[], [.spent 1], rfl, trivial, .inr ⟨rfl, ?_⟩, fun result t same => ?_⟩
    · have later : 0 < s.agenda.interval.toInt := by
        rw [Int32.le_iff_toInt_le, Int.not_le] at due
        exact due
      exact { timely with soonest := fun _ => later }
    · simp only [Option.some.injEq, Prod.mk.injEq] at same
      rw [← same.1, ← same.2]
      exact ⟨calm.of_slots rfl, by simp⟩

end Scheduler

/-! ## The ticks of bookings -/

/-- The number of the tick that a unit is booked for: those that had succeeded before it was put into
the queue, plus those asked for. -/
def Booking.tick (m : List Change) (b : Booking) : Int :=
  ticksIn (m.take b.place) + max b.ticks.toInt 0

omit [MediaStore σ] in
theorem tick_append {h : List Change} {b : Booking} (h' : List Change)
    (within : b.place ≤ h.length) : b.tick (h ++ h') = b.tick h := by
  unfold Booking.tick
  rw [List.take_append_of_le_length within]

namespace Punctual

variable {idleWait : Int32} {m : List Change} {b d : Booking} {i j : Nat}

omit [MediaStore σ] in
theorem due_eq_tick (punctual : Punctual idleWait 0 m) (made : b.place ≤ j) :
    b.due (m.take j) = b.tick m := by
  have past := punctual.of_isPrefix (List.take_prefix j m)
  have start := past.of_isPrefix (List.take_prefix b.place (m.take j))
  rw [past.due_eq, elapsed_of_prompt start.prompt, List.take_take, Nat.min_eq_left made]
  rfl

omit [MediaStore σ] in
/-- A unit fires when the ticks before the one that it was booked for have succeeded. -/
theorem ticksIn_eq_tick (punctual : Punctual idleWait 0 m) (fires : Fires m b j) :
    ticksIn (m.take j) = b.tick m := by
  obtain ⟨offset, popped⟩ := fires.popped
  have range := punctual.popped_range popped
  have past := punctual.of_isPrefix (List.take_prefix j m)
  have now := (punctual.fired fires.standing popped).1
  rw [elapsed_of_prompt past.prompt,
    punctual.due_eq_tick (Nat.le_of_lt fires.standing.place_lt_take)] at now
  omega

omit [MediaStore σ] in
theorem lt_of_place_lt (punctual : Punctual idleWait 0 m) (fires : Fires m b i)
    (other : Fires m d j) (same : ticksIn (m.take i) = ticksIn (m.take j))
    (made : b.place < d.place) : i < j := by
  by_contra late
  have place := other.standing.place_lt_take
  have sooner := punctual.in_order fires other made (Nat.not_lt.1 late)
  rw [punctual.due_eq_tick (Nat.le_of_lt place), punctual.due_eq_tick (by omega),
    ← punctual.ticksIn_eq_tick fires, ← punctual.ticksIn_eq_tick other] at sooner
  omega

end Punctual

/-! ## Runs driven by ticks -/

/-- Schedulers that come up where time passes by ticks, with the ticks that have succeeded and the
changes of the agenda so far. -/
inductive Scheduler.Ticking (idleWait : Int32) : Nat → Scheduler σ ω → List Change → Prop
  /-- The agenda is empty and time is 0. -/
  | start {s : Scheduler σ ω} : s.agenda = .start idleWait → s.Calm → Ticking idleWait 0 s []
  /-- All but the agenda may be changed from outside. -/
  | aside {n : Nat} {s t : Scheduler σ ω} {h : List Change} :
    Ticking idleWait n s h → t.agenda = s.agenda → t.Calm → Ticking idleWait n t h
  /-- A passive program is run between ticks. -/
  | between {n : Nat} {s t : Scheduler σ ω} {h : List Change} {p : Program ω} {pops : Nat}
      {result : Result} :
    Ticking idleWait n s h → p.Passive → p.run pops s = some (result, t) →
      Ticking idleWait n t (h ++ p.runChanges pops s)
  /-- A tick succeeds. -/
  | tick {n : Nat} {s t : Scheduler σ ω} {h : List Change} {pops : Nat} :
    Ticking idleWait n s h → s.tick pops = some (.ok (), t) →
      Ticking idleWait (n + 1) t (h ++ s.tickChanges pops)
  /-- A tick fails: a callback did, or a stop was asked for. -/
  | failed {n : Nat} {s t : Scheduler σ ω} {h : List Change} {pops : Nat} {status : Status} :
    Ticking idleWait n s h → s.tick pops = some (.error status, t) →
      Ticking idleWait n t (h ++ s.tickChanges pops)

namespace Scheduler

variable {idleWait : Int32} {n : Nat} {s : Scheduler σ ω} {h : List Change}

theorem tick_punctual (pops : Nat) (calm : s.Calm) (punctual : Punctual idleWait 0 h)
    (agenda : s.agenda = (Agenda.start idleWait).after h) :
    ∃ first last, s.tickChanges pops = first ++ last ∧ ticksIn first = 0 ∧
      (last = [] ∨ last = [.spent 1]) ∧ Punctual idleWait 0 (h ++ s.tickChanges pops) ∧
      ∀ result t, s.tick pops = some (result, t) → t.Calm ∧
        (last = [.spent 1] ↔ result = .ok ()) := by
  obtain ⟨nodup, timely⟩ := punctual.leaves agenda
  obtain ⟨first, last, changes, inTime, spent, ends⟩ := tick_prompt pops calm nodup timely
  refine ⟨first, last, changes, ticksIn_of_inTime inTime, ?_, ?_, ends⟩
  · rcases spent with none | ⟨one, -⟩
    · exact .inl none
    · exact .inr one
  · refine punctual.append agenda ((tick_recordedBy pops).possible s) ?_
    rw [changes, Trail.append]
    refine ⟨inTime.mono fun a c here => here.prompt 0, ?_⟩
    rcases spent with rfl | ⟨rfl, later⟩
    · trivial
    · exact ⟨⟨rfl, later.soonest⟩, trivial⟩

/-- The changes so far give the agenda and have been prompt, all callbacks are passive, and the ticks
that have succeeded are those spent. -/
theorem Ticking.sound (ticking : s.Ticking idleWait n h) :
    s.agenda = (Agenda.start idleWait).after h ∧ Punctual idleWait 0 h ∧ s.Calm ∧
      ticksIn h = n := by
  induction ticking with
  | start empty calm => exact ⟨empty, ⟨by omega, by omega, trivial, trivial⟩, calm, rfl⟩
  | aside _ same calm ih =>
    obtain ⟨agenda, punctual, -, count⟩ := ih
    exact ⟨same.trans agenda, punctual, calm, count⟩
  | @between n s t h p pops result _ passive ended ih =>
    obtain ⟨agenda, punctual, calm, count⟩ := ih
    obtain ⟨nodup, timely⟩ := punctual.leaves agenda
    obtain ⟨inTime, -, quiet⟩ := passive.run pops calm nodup timely
    have records := Program.run_recordedBy (σ := σ) pops p
    refine ⟨records.after agenda ended, punctual.append_inTime agenda (records.possible s) inTime,
      (quiet _ _ ended).1, ?_⟩
    rw [ticksIn_append, ticksIn_of_inTime inTime, count, Nat.add_zero]
  | @tick n s t h pops _ ended ih =>
    obtain ⟨agenda, punctual, calm, count⟩ := ih
    obtain ⟨first, last, changes, none, -, punctual', ends⟩ := tick_punctual pops calm punctual agenda
    obtain ⟨quiet, spent⟩ := ends _ _ ended
    refine ⟨(tick_recordedBy pops).after agenda ended, punctual', quiet, ?_⟩
    have one : ticksIn [Change.spent 1] = 1 := rfl
    rw [changes, spent.2 rfl, ticksIn_append, ticksIn_append, none, count, one, Nat.zero_add]
  | @failed n s t h pops status _ ended ih =>
    obtain ⟨agenda, punctual, calm, count⟩ := ih
    obtain ⟨first, last, changes, none, either, punctual', ends⟩ :=
      tick_punctual pops calm punctual agenda
    obtain ⟨quiet, spent⟩ := ends _ _ ended
    refine ⟨(tick_recordedBy pops).after agenda ended, punctual', quiet, ?_⟩
    have nothing : last = [] := by
      rcases either with nothing | one
      · exact nothing
      · have ok := spent.1 one
        simp at ok
    rw [changes, nothing, List.append_nil, ticksIn_append, none, count, Nat.add_zero]

/-- The queue holds the standing bookings, and none of them was made for a tick that has succeeded. -/
theorem Ticking.standing (ticking : s.Ticking idleWait n h) :
    (∀ u, u ∈ s.agenda.units ↔ ∃ b, Standing h b ∧ b.unit = u) ∧
      ∀ b, Standing h b → n ≤ b.tick h := by
  obtain ⟨agenda, punctual, -, count⟩ := ticking.sound
  have kept := punctual.kept
  rw [← agenda] at kept
  refine ⟨kept.mem_units, fun b standing => ?_⟩
  have due := punctual.le_due punctual.timely.2 standing
  have whole := punctual.due_eq_tick (b := b) (Nat.le_of_lt standing.place_lt)
  rw [List.take_length] at whole
  rw [whole, elapsed_of_prompt punctual.prompt, count] at due
  omega

end Scheduler

/-- Where time passes by ticks alone, and scheduling and cancelling come between ticks or from
callbacks, every unit fires in the tick that it was booked for, whatever callbacks fail or stops are
asked for in between. Units that fire after as many ticks fire in the order of booking. A tick that
succeeds leaves nothing behind that was booked for it or for an earlier one. -/
theorem ticks_fire_on_time {idleWait : Int32} {n : Nat} {s : Scheduler σ ω} {h : List Change}
    (ticking : s.Ticking idleWait n h) (pops : Nat) :
    ticksIn h = n ∧
    (∀ u, u ∈ s.agenda.units ↔ ∃ b, Standing h b ∧ b.unit = u) ∧
    (∀ b : Booking, h[b.place]? = some (.queued b.unit b.ticks) →
      Standing h b ∧ n ≤ b.tick h ∨ (∃ j, Withdrawn h b j) ∨
        ∃ j, Fires h b j ∧ ticksIn (h.take j) = b.tick h) ∧
    (∀ b j, Fires (h ++ s.tickChanges pops) b j → h.length ≤ j →
      n = b.tick (h ++ s.tickChanges pops)) ∧
    (∀ b d i j, Fires (h ++ s.tickChanges pops) b i → Fires (h ++ s.tickChanges pops) d j →
      ticksIn ((h ++ s.tickChanges pops).take i) = ticksIn ((h ++ s.tickChanges pops).take j) →
      b.place < d.place → i < j) ∧
    (∀ t, s.tick pops = some (.ok (), t) →
      ∀ b, Standing (h ++ s.tickChanges pops) b → n < b.tick (h ++ s.tickChanges pops)) ∧
    (∀ p : Program ω, p.Passive → ∀ u offset, .popped u offset ∉ p.runChanges pops s) := by
  obtain ⟨agenda, punctual, calm, count⟩ := ticking.sound
  obtain ⟨queue, ahead⟩ := ticking.standing
  obtain ⟨first, last, changes, none, spent, punctual', -⟩ :=
    Scheduler.tick_punctual pops calm punctual agenda
  refine ⟨count, queue, fun b made => ?_, fun b j fires late => ?_,
    fun b d i j fires other same made => punctual'.lt_of_place_lt fires other same made,
    fun t ended b standing => ?_, fun p passive u offset there => ?_⟩
  · rcases stands_or_ended made with standing | ⟨j, fires | withdrawn⟩
    · exact .inl ⟨standing, ahead b standing⟩
    · exact .inr (.inr ⟨j, fires, punctual.ticksIn_eq_tick fires⟩)
    · exact .inr (.inl ⟨j, withdrawn⟩)
  · rw [← punctual'.ticksIn_eq_tick fires]
    have early : j ≤ (h ++ first).length := by
      by_contra beyond
      obtain ⟨offset, popped⟩ := fires.popped
      have short := fires.lt_length
      rw [changes] at short
      rcases spent with rfl | rfl
      · simp at short beyond
        omega
      · simp at short beyond
        omega
    rw [changes, ← List.append_assoc, List.take_append_of_le_length early, List.take_append,
      List.take_of_length_le late, ticksIn_append, count]
    have nothing : ticksIn (first.take (j - h.length)) ≤ ticksIn first :=
      (List.take_sublist _ _).countP_le
    omega
  · have after := (ticking.tick ended).standing.2 b standing
    omega
  · obtain ⟨nodup, timely⟩ := punctual.leaves agenda
    exact (passive.run pops calm nodup timely).2.1 _ there

/-- Two units are booked for the second tick, another one for the fourth, and a tick has succeeded.
When the next one has succeeded, the two have fired, in the order of booking. -/
theorem two_units_fire_on_time :
    ∃ s : Scheduler MemoryImages Unit,
      s.Ticking 100 1 [.queued 0 1, .queued 1 1, .queued 2 3, .spent 1] ∧
        s.agenda.units = [0, 1, 2] ∧ ∀ pops m,
          m = [.queued 0 1, .queued 1 1, .queued 2 3, .spent 1] ++ s.tickChanges pops →
            (∀ j, Fires m ⟨2, 2, 3⟩ j → j < 4) ∧
            (∀ i j, Fires m ⟨0, 0, 1⟩ i → Fires m ⟨1, 1, 1⟩ j →
              ticksIn (m.take i) = ticksIn (m.take j) → i < j) ∧
            ∀ t, s.tick pops = some (.ok (), t) →
              ¬Standing m ⟨0, 0, 1⟩ ∧ ¬Standing m ⟨1, 1, 1⟩ := by
  let first : Scheduler MemoryImages Unit := .start 100 1 () default (.empty none)
  let p : Program Unit := .call (.activate 0 1) fun _ => .call (.activate 1 1) fun _ =>
    .call (.activate 2 3) fun _ => .done (.ok ())
  let booked : Scheduler MemoryImages Unit :=
    (((first.activate 0 1).2.activate 1 1).2.activate 2 3).2
  have scheduled : booked.Ticking 100 0 [.queued 0 1, .queued 1 1, .queued 2 3] := by
    have start : first.Ticking 100 0 [] := .start rfl (Scheduler.calm_of_empty rfl)
    have passive : p.Passive := ⟨trivial, fun _ => ⟨trivial, fun _ => ⟨trivial, fun _ => trivial⟩⟩⟩
    have ended : p.run 0 first = some (.ok (), booked) := rfl
    have changes : p.runChanges 0 first = [.queued 0 1, .queued 1 1, .queued 2 3] := by
      decide +kernel
    rw [← changes]
    exact start.between passive ended
  have ticking : (booked.consume 1).Ticking 100 1
      [.queued 0 1, .queued 1 1, .queued 2 3, .spent 1] := by
    have ticked := Scheduler.tickChanges_of_pos 0 (s := booked) (by decide +kernel)
    have after := scheduled.tick ticked.2
    rw [ticked.1] at after
    exact after
  refine ⟨booked.consume 1, ticking, by decide +kernel, fun pops m is => ?_⟩
  obtain ⟨-, -, -, fires, order, done, -⟩ := ticks_fire_on_time ticking pops
  rw [← is] at fires order done
  have tick : ∀ b : Booking, b.place ≤ 4 →
      b.tick m = b.tick [.queued 0 1, .queued 1 1, .queued 2 3, .spent 1] := fun b within => by
    rw [is, tick_append _ within]
  refine ⟨fun j late => ?_, fun i j one other same => order _ _ i j one other same (by decide),
    fun t ended => ⟨fun stands => ?_, fun stands => ?_⟩⟩
  · by_contra beyond
    have now := fires _ j late (Nat.not_lt.1 beyond)
    rw [tick ⟨2, 2, 3⟩ (by decide)] at now
    exact absurd now (by decide)
  · have more := done t ended _ stands
    rw [tick ⟨0, 0, 1⟩ (by decide)] at more
    exact absurd more (by decide)
  · have more := done t ended _ stands
    rw [tick ⟨1, 1, 1⟩ (by decide)] at more
    exact absurd more (by decide)

end Peripheral
