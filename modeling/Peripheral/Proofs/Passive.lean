import Peripheral.Proofs.Callbacks
import Peripheral.Proofs.Course
import Peripheral.Proofs.Punctual

/-!
# Programs that leave time alone

A passive program schedules and cancels units as it likes, but neither spends ticks nor dispatches,
and neither does any callback that it installs. A scheduler is calm while all its callbacks are passive.

* `Program.Passive`, `Scheduler.Calm` : such programs, such schedulers (`calm_perform`);
* `Passive.schedules`, `Passive.exec` : a passive program only puts units into the queue or takes them out,
  it ends, and leaves a calm scheduler calm;
* `fire_calm`, `drain_calm` : so do callbacks in a dispatch;
* `processEvent_inTime` : **a dispatch whose callbacks are passive makes its changes in time**, and
  leaves nothing due behind if it ends well.
-/

namespace Peripheral

variable {σ ω : Type}

/-! ## Passive programs and calm schedulers -/

def Call.Passive : Call → Prop
  | .consume _ => False
  | _ => True

/-- Neither the program nor any callback that it installs spends ticks or dispatches, whatever the
answers to its calls are. -/
def Program.Passive : Program ω → Prop
  | .done _ => True
  | .call c next => c.Passive ∧ ∀ answer, (next answer).Passive
  | .look next => ∀ world, (next world).Passive
  | .change _ next => next.Passive
  | .setAction _ action next => action.Passive ∧ next.Passive
  | .setHook _ _ next => next.Passive
  | .park _ _ _ deliver next => (∀ outcome, (deliver outcome).Passive) ∧ next.Passive
  | .dispatch _ => False

theorem Program.Passive.inline {p : Program ω} {next : Result → Program ω} (passive : p.Passive)
    (rest : ∀ result, (next result).Passive) : (Act.inline p next).Passive := by
  induction p with
  | done result => exact rest result
  | call c _ ih => exact ⟨passive.1, fun answer => ih answer (passive.2 answer)⟩
  | look _ ih => exact fun w => ih w (passive w)
  | change f _ ih => exact ih passive
  | setAction u action _ _ ih => exact ⟨passive.1, ih passive.2⟩
  | setHook u hook _ ih => exact ih passive
  | park u delay outcome deliver _ _ ih => exact ⟨passive.1, ih passive.2⟩
  | dispatch _ => exact passive.elim

structure Slot.Calm (slot : Slot ω) : Prop where
  action : ∀ p, slot.action = some p → p.Passive
  parked : ∀ k, slot.parked = some k → ∀ outcome, (k.deliver outcome).Passive

def Scheduler.Calm (s : Scheduler σ ω) : Prop := ∀ u, (s.slot u).Calm

/-- Whether a change puts a unit into the queue or takes one out, other than by a dispatch. -/
def Change.Schedules : Change → Prop
  | .queued _ _ | .removed _ => True
  | _ => False

theorem Slot.calm_iff {slot : Slot ω} : slot.Calm ↔ slot.Carries Program.Passive :=
  ⟨fun calm => ⟨calm.action, calm.parked⟩, fun carries => ⟨carries.action, carries.parked⟩⟩

namespace Scheduler

variable {s t : Scheduler σ ω}

theorem calm_iff : s.Calm ↔ s.Carries Program.Passive := forall_congr' fun _ => Slot.calm_iff

theorem Calm.of_slots (calm : s.Calm) (same : t.slots = s.slots) : t.Calm :=
  calm_iff.2 ((calm_iff.1 calm).of_slots same)

theorem calm_of_empty (empty : s.slots = #[]) : s.Calm := calm_iff.2 (carries_of_empty empty)

theorem Calm.modifySlot {u : UnitId} {f : Slot ω → Slot ω} (calm : s.Calm)
    (keeps : ∀ slot : Slot ω, slot.Calm → (f slot).Calm) : (s.modifySlot u f).Calm :=
  calm_iff.2 ((calm_iff.1 calm).modifySlot fun slot here =>
    Slot.calm_iff.1 (keeps slot (Slot.calm_iff.2 here)))

variable [MediaStore σ]

theorem calm_perform (calm : s.Calm) (c : Call) : (s.perform c).2.Calm :=
  calm_iff.2 ((calm_iff.1 calm).perform c)

omit [MediaStore σ] in
theorem schedules_changesOf {c : Call} (passive : c.Passive) :
    ∀ x ∈ s.changesOf c, x.Schedules := by
  intro x there
  cases c with
  | consume ticks => exact passive.elim
  | activate u ticks =>
    simp only [changesOf] at there
    split at there
    · simp at there
    · rw [List.mem_singleton.1 there]
      trivial
  | activateAfter u usecs =>
    simp only [changesOf] at there
    split at there
    · simp at there
    · rw [List.mem_singleton.1 there]
      trivial
  | cancel u =>
    simp only [changesOf] at there
    split at there
    · rw [List.mem_singleton.1 there]
      trivial
    · simp at there
  | _ => simp [changesOf] at there

end Scheduler

/-! ## Running passive programs -/

variable [MediaStore σ]

theorem Program.Passive.schedules {p : Program ω} (passive : p.Passive) (dispatch : Motion σ ω)
    (within : Chronicle σ ω) (s : Scheduler σ ω) : ∀ c ∈ p.changes dispatch within s, c.Schedules := by
  induction p generalizing s with
  | done result => exact List.forall_mem_nil _
  | call c next ih =>
    intro x there
    rcases List.mem_append.1 there with first | rest
    · exact Scheduler.schedules_changesOf passive.1 x first
    · exact ih _ (passive.2 _) _ x rest
  | look next ih => exact ih s.world (passive s.world) s
  | change f next ih => exact ih passive _
  | setAction u action next _ ih => exact ih passive.2 _
  | setHook u hook next ih => exact ih passive _
  | park u delay outcome deliver next _ ih => exact ih passive.2 _
  | dispatch next => exact passive.elim

/-- A passive program ends, leaves a calm scheduler calm, and only schedules and cancels. -/
theorem Program.Passive.exec {p : Program ω} (passive : p.Passive) (dispatch : Motion σ ω)
    (within : Chronicle σ ω) {s : Scheduler σ ω} (calm : s.Calm) :
    ∃ result t, p.exec dispatch s = some (result, t) ∧ t.Calm ∧
      ∀ c ∈ p.changes dispatch within s, c.Schedules := by
  have ends : ∃ result t, p.exec dispatch s = some (result, t) ∧ t.Calm := by
    induction p generalizing s with
    | done result => exact ⟨result, s, rfl, calm⟩
    | call c next ih => exact ih _ (passive.2 _) (Scheduler.calm_perform calm c)
    | look next ih => exact ih s.world (passive s.world) calm
    | change f next ih => exact ih passive (calm.of_slots rfl)
    | setAction u action next _ ih =>
      refine ih passive.2 (calm.modifySlot fun slot here => ⟨fun p there => ?_, here.parked⟩)
      rw [← Option.some.inj there]
      exact passive.1
    | setHook u hook next ih =>
      exact ih passive (calm.modifySlot fun slot here => ⟨here.action, here.parked⟩)
    | park u delay outcome deliver next _ ih =>
      refine ih passive.2 (calm.modifySlot fun slot here => ⟨here.action, fun k there => ?_⟩)
      rw [← Option.some.inj there]
      exact passive.1
    | dispatch next => exact passive.elim
  obtain ⟨result, t, ended, left⟩ := ends
  exact ⟨result, t, ended, left, passive.schedules dispatch within s⟩

theorem timely_of_schedules {a : Agenda} {h : List Change} (timely : a.Timely 0)
    (nodup : a.units.Nodup) (possible : Trail Change.Possible a h)
    (schedules : ∀ c ∈ h, c.Schedules) :
    Trail Change.InTime a h ∧ (a.after h).Timely 0 ∧ (a.Settled → (a.after h).Settled) := by
  induction h generalizing a with
  | nil => exact ⟨trivial, timely, id⟩
  | cons c h ih =>
    have next : c.InTime a ∧ (c.apply a).Timely 0 ∧ (c.apply a).Settled := by
      have here := schedules c List.mem_cons_self
      cases c with
      | queued u ticks => exact ⟨timely.soonest, timely_insert timely⟩
      | removed u => exact ⟨timely.soonest, timely_remove timely nodup possible.1⟩
      | spent | settled | popped | rested => exact here.elim
    obtain ⟨inTime, timely, settled⟩ := next
    obtain ⟨rest, last, folded⟩ := ih timely (Change.nodup_apply possible.1 nodup) possible.2
      fun d there => schedules d (List.mem_cons_of_mem _ there)
    exact ⟨⟨inTime, rest⟩, last, fun _ => folded settled⟩

theorem Program.Passive.run {p : Program ω} (passive : p.Passive) (pops : Nat)
    {s : Scheduler σ ω} (calm : s.Calm) (nodup : s.agenda.units.Nodup)
    (timely : s.agenda.Timely 0) :
    Trail Change.InTime s.agenda (p.runChanges pops s) ∧
      (∀ c ∈ p.runChanges pops s, c.Schedules) ∧
      ∀ result t, p.run pops s = some (result, t) → t.Calm ∧ t.agenda.Timely 0 := by
  obtain ⟨result, t, ended, quiet, schedules⟩ :=
    passive.exec (Scheduler.processEvent pops) (Scheduler.processEventChanges pops) calm
  have records := Program.run_recordedBy (σ := σ) pops p
  obtain ⟨inTime, ahead, -⟩ := timely_of_schedules timely nodup (records.possible s) schedules
  refine ⟨inTime, schedules, fun result' t' same => ?_⟩
  have left := records.agenda _ _ _ same
  unfold Program.run at same
  rw [ended] at same
  simp only [Option.some.injEq, Prod.mk.injEq] at same
  rw [← same.2] at left ⊢
  rw [left]
  exact ⟨quiet, ahead⟩

namespace Scheduler

theorem fire_calm (dispatch : Motion σ ω) (within : Chronicle σ ω) (u : UnitId)
    {s : Scheduler σ ω} (calm : s.Calm) :
    ∃ result t, fire dispatch u s = some (result, t) ∧ t.Calm ∧
      ∀ c ∈ fireChanges dispatch within u s, c.Schedules := by
  unfold fire fireChanges
  dsimp only
  split
  · refine ⟨_, _, rfl, calm_perform (c := .activateAfter u _) ?_, schedules_changesOf trivial⟩
    exact Calm.modifySlot (calm.of_slots rfl) fun slot here => ⟨here.action, here.parked⟩
  · have here := calm u
    cases parked : (s.slot u).parked with
    | some k =>
      refine (here.parked k parked k.outcome).exec dispatch within ?_
      exact Calm.modifySlot (calm.of_slots rfl) fun slot here =>
        ⟨here.action, fun k there => by simp at there⟩
    | none =>
      cases action : (s.slot u).action with
      | none =>
        refine ⟨_, _, rfl, ?_, by simp⟩
        exact calm.of_slots rfl
      | some p =>
        have passive := here.action p action
        obtain ⟨result, t, ended, left, schedules⟩ := passive.exec dispatch within
          (s := (s.tell (.firing (s.slot u).endpoint.name)).modifySlot u fun slot =>
            { slot with action := none }) (by
          exact Calm.modifySlot (calm.of_slots rfl) fun slot here =>
            ⟨fun p there => by simp at there, here.parked⟩)
        dsimp only
        rw [ended]
        refine ⟨result, _, rfl, left.modifySlot fun slot here => ⟨fun q there => ?_, here.parked⟩,
          schedules⟩
        cases installed : slot.action with
        | none =>
          simp only [installed, Option.none_or, Option.some.injEq] at there
          rwa [← there]
        | some r =>
          simp only [installed, Option.some_or, Option.some.injEq] at there
          rw [← there]
          exact here.action r installed

omit [MediaStore σ] in
theorem calm_tellAnomaly {u : UnitId} {result : Result} {s : Scheduler σ ω} (calm : s.Calm) :
    (s.tellAnomaly u result).Calm := by
  unfold tellAnomaly
  split
  · exact calm
  · split
    · exact calm
    · exact calm.of_slots rfl

omit [MediaStore σ] in
/-- A dispatch goes on exactly while units are due and neither a status nor a stop is in the way. -/
theorem goesOn_iff {result : Result} {s : Scheduler σ ω} :
    s.goesOn result ↔ result.isOk ∧ s.agenda.interval.toInt ≤ 0 ∧ s.agenda.queue ≠ [] ∧
      s.stop = false := by
  unfold goesOn
  simp only [Bool.and_eq_true, decide_eq_true_eq, Bool.not_eq_true', List.isEmpty_eq_false_iff,
    Int32.le_iff_toInt_le, and_assoc]
  rfl

/-- Firing what is due makes its changes in time. If it ends well, nothing that is due is left. -/
theorem drain_calm {k : Int} (finish : k ≤ 0) (pops : Nat) {s : Scheduler σ ω} (calm : s.Calm)
    (nodup : s.agenda.units.Nodup) (timely : s.agenda.Timely k) (settled : s.agenda.Settled)
    (due : s.agenda.interval.toInt ≤ 0) :
    Trail Change.InTime s.agenda (drainChanges pops s) ∧
      ∀ result t, drain pops s = some (result, t) → t.Calm ∧ t.agenda.Timely 0 ∧
        (result.isOk → t.stop = false → t.agenda.queue ≠ [] → 0 < t.agenda.interval.toInt) := by
  induction pops generalizing s with
  | zero => exact ⟨trivial, fun result t ended => by simp [drain] at ended⟩
  | succ pops ih =>
    rw [drainChanges, drain]
    cases popped : s.agenda.pop? with
    | none =>
      have empty : s.agenda.queue = [] := by
        rw [Agenda.pop?_eq_none_iff, Agenda.units, List.map_eq_nil_iff] at popped
        exact popped
      refine ⟨trivial, fun result t ended => ?_⟩
      simp only [Option.some.injEq, Prod.mk.injEq] at ended
      rw [← ended.2]
      exact ⟨calm, timely_of_empty empty, fun _ _ pending => absurd empty pending⟩
    | some answer =>
      obtain ⟨u, agenda⟩ := answer
      obtain ⟨possible, left⟩ := popped_of_pop? popped
      obtain ⟨rest, queue⟩ := id possible
      obtain ⟨ahead, folded⟩ := timely_popped timely queue due settled
      have unique := Change.nodup_apply possible nodup
      rw [left] at ahead folded unique
      have records := fire_recordedBy (process_recordedBy (drain_recordedBy (σ := σ) (ω := ω) pops)) u
      obtain ⟨result', t', fired, quiet, schedules⟩ := fire_calm (process (drain pops))
        (processChanges (drain pops) (drainChanges pops)) u (s := { s with agenda }) (calm.of_slots rfl)
      have trail := records.possible { s with agenda }
      have after := records.agenda _ _ _ fired
      obtain ⟨inTime, timely', folds⟩ := timely_of_schedules ahead unique trail schedules
      have settled' := folds folded
      have unique' := nodup_after trail unique
      rw [← after] at timely' settled' unique'
      rw [← agenda_tellAnomaly u result' t'] at timely' settled' unique'
      have first : (Change.popped u s.agenda.reference).InTime s.agenda := ⟨due, settled⟩
      dsimp only
      rw [fired, Trail.cons_iff, left, Trail.append, ← after]
      dsimp only
      rw [← agenda_tellAnomaly u result' t']
      split
      · rename_i on
        obtain ⟨-, more, -, -⟩ := goesOn_iff.1 on
        obtain ⟨rest, last⟩ :=
          ih (calm_tellAnomaly quiet) unique' (timely'.mono finish) settled' more
        exact ⟨⟨first, inTime, rest⟩, last⟩
      · rename_i off
        refine ⟨⟨first, inTime, trivial⟩, fun result t ended => ?_⟩
        simp only [Option.some.injEq, Prod.mk.injEq] at ended
        rw [← ended.1, ← ended.2]
        refine ⟨calm_tellAnomaly quiet, timely', fun ok clear pending => ?_⟩
        by_contra more
        exact off (goesOn_iff.2 ⟨ok, Int.not_lt.1 more, pending, clear⟩)

omit [MediaStore σ] in
theorem calm_conclude {s : Scheduler σ ω} (result : Result) (calm : s.Calm) :
    (s.conclude result).2.Calm := by
  unfold conclude
  dsimp only
  split
  · split
    · exact calm.of_slots rfl
    · exact calm.of_slots rfl
  · split
    · exact calm.of_slots rfl
    · exact calm.of_slots rfl

omit [MediaStore σ] in
theorem of_conclude_ok (result : Result) (s : Scheduler σ ω)
    (ended : (s.conclude result).1 = .ok ()) : result.isOk ∧ s.stop = false := by
  unfold conclude at ended
  cases result with
  | error status =>
    simp only [Except.isOk, Except.toBool, Bool.false_and, Bool.false_eq_true, if_false] at ended
    simp at ended
  | ok _ =>
    refine ⟨rfl, ?_⟩
    by_contra asked
    rw [Bool.not_eq_false] at asked
    cases queue : s.agenda.queue with
    | nil => simp [queue, asked, Except.isOk, Except.toBool, tell] at ended
    | cons e rest => simp [queue, asked, Except.isOk, Except.toBool, tell] at ended

theorem timely_rested {a : Agenda} {k : Int} (timely : a.Timely k) :
    (a.after (if a.queue.isEmpty then [.rested] else [])).Timely k := by
  split
  · rename_i empty
    refine timely_of_empty ?_
    show a.rearm.queue = []
    rw [queue_rearm]
    exact List.isEmpty_iff.1 empty
  · exact timely

omit [MediaStore σ] in
/-- At its end a dispatch leaves a timely agenda timely. If it ends well, what it leaves lies in the
future, provided that the head does where neither a status nor a stop has ended it. -/
theorem conclude_timely {result : Result} {s : Scheduler σ ω} (timely : s.agenda.Timely 0)
    (future : result.isOk → s.stop = false → s.agenda.queue ≠ [] → 0 < s.agenda.interval.toInt) :
    (s.conclude result).2.agenda.Timely 0 ∧
      ((s.conclude result).1 = .ok () → (s.conclude result).2.agenda.Timely 1) := by
  have agenda := agenda_conclude result s
  have rested := timely_rested timely
  rw [← agenda] at rested
  refine ⟨rested, fun ok => { rested with soonest := fun pending => ?_ }⟩
  obtain ⟨well, clear⟩ := of_conclude_ok result s ok
  rw [agenda] at pending ⊢
  by_cases empty : s.agenda.queue.isEmpty
  · rw [if_pos empty] at pending
    refine absurd ?_ pending
    show s.agenda.rearm.queue = []
    rw [queue_rearm]
    exact List.isEmpty_iff.1 empty
  · rw [if_neg empty] at pending ⊢
    exact future well clear pending

/-- A dispatch whose callbacks are passive makes its changes in time. If it ends well, all that is left
in the queue lies in the future. -/
theorem processEvent_inTime {k : Int} (finish : k ≤ 0) (pops : Nat) {s : Scheduler σ ω}
    (calm : s.Calm) (nodup : s.agenda.units.Nodup) (timely : s.agenda.Timely k)
    (due : s.agenda.interval.toInt ≤ 0) :
    Trail Change.InTime s.agenda (processEventChanges pops s) ∧
      ∀ result t, s.processEvent pops = some (result, t) → t.Calm ∧ t.agenda.Timely k ∧
        (result = .ok () → t.agenda.Timely 1) := by
  unfold processEventChanges processChanges processEvent process
  split
  · refine ⟨trivial, fun result t ended => ?_⟩
    simp only [Option.some.injEq, Prod.mk.injEq] at ended
    rw [← ended.1, ← ended.2]
    exact ⟨calm.of_slots rfl, timely, fun ok => by simp at ok⟩
  · dsimp only
    split
    · rename_i empty
      refine ⟨⟨trivial, trivial, trivial⟩, fun result t ended => ?_⟩
      simp only [Option.some.injEq, Prod.mk.injEq] at ended
      have left : t.agenda.queue = [] := by
        rw [← ended.2]
        show s.agenda.settle.rearm.queue = []
        rw [queue_rearm]
        exact List.isEmpty_iff.1 empty
      refine ⟨?_, timely_of_empty left, fun _ => timely_of_empty left⟩
      rw [← ended.2]
      exact calm.of_slots rfl
    · have unique : s.agenda.settle.units.Nodup := by rwa [Agenda.units_settle]
      have soon : s.agenda.settle.interval.toInt ≤ 0 := by rwa [interval_settle]
      obtain ⟨inTime, left⟩ := drain_calm finish pops
        (s := { s with agenda := s.agenda.settle, dispatching := true }) (calm.of_slots rfl) unique
        (timely_settle timely) (settled_settle s.agenda) soon
      refine ⟨⟨trivial, Trail.append.2 ⟨inTime, ?_⟩⟩, fun result t ended => ?_⟩
      · cases drain pops { s with agenda := s.agenda.settle, dispatching := true } with
        | none => trivial
        | some answer =>
          dsimp only
          split
          · exact ⟨trivial, trivial⟩
          · trivial
      · cases drained : drain pops { s with agenda := s.agenda.settle, dispatching := true } with
        | none => simp [drained] at ended
        | some answer =>
          obtain ⟨result', t'⟩ := answer
          simp only [drained, Option.some.injEq] at ended
          obtain ⟨quiet, ahead, future⟩ := left _ _ drained
          have quiet' := calm_conclude result' quiet
          have timely' := conclude_timely ahead future
          rw [ended] at quiet' timely'
          exact ⟨quiet', timely'.1.mono finish, timely'.2⟩

end Scheduler

end Peripheral
