import Peripheral.Proofs.Callbacks
import Peripheral.Proofs.Passive
import Peripheral.Simulation.Backend
import Peripheral.Storage.MemoryImages

/-!
# Simulated time is conserved

Simulated time lies in three places: the time folded in so far, the live interval, and the reference
that the interval is compared with, which is the offset of the head or stands in for it while the
queue is empty. Every change of the queue moves time between them. Ticks that callbacks do not spend
are neither made nor lost.

* `Agenda.Shows` : an agenda shows a number of ticks (`Shows.insert`, `Shows.remove`, `Shows.popped`,
  `Shows.rearm`);
* `Program.Frugal` : programs that spend no ticks, and whose callbacks do not; they may dispatch;
* `Frugal.exec`, `fire_conserving`, `processEvent_conserving` : programs, firings and dispatches keep
  the ticks shown;
* `Operation` : what is asked of a scheduler, `Operation.spends` : the ticks that it spends;
* `time_is_conserved` : **simulated time is the sum of the ticks spent**, and each operation adds its
  own.
-/

namespace Peripheral

variable {σ ω : Type}

/-! ## Agendas -/

namespace Agenda

variable {a : Agenda} {spent : UInt32} {folded : Prop}

/-- Simulated time is `spent`, and if `folded`, all of it has been folded in. -/
structure Shows (spent : UInt32) (folded : Prop) (a : Agenda) : Prop where
  time : a.elapsedWrapping = spent
  settled : folded → a.Settled

theorem Settled.elapsedWrapping (settled : a.Settled) : a.elapsedWrapping = a.clock := by
  have none_left : a.unaccounted = 0 := by
    unfold unaccounted
    rw [settled, Int32.sub_self]
  rw [Agenda.elapsedWrapping, none_left]
  exact UInt32.add_zero _

@[simp] theorem clock_rearm (a : Agenda) : a.rearm.clock = a.clock := by
  unfold rearm
  split <;> rfl

@[simp] theorem clock_settle (a : Agenda) : a.settle.clock = a.elapsedWrapping := by
  unfold settle
  cases a.queue <;> rfl

/-- The interval may be loaded anew wherever simulated time lies in the clock alone. -/
theorem shows_rearm (clock : a.clock = spent) : a.rearm.Shows spent folded :=
  ⟨by rw [(settled_rearm a).elapsedWrapping, clock_rearm, clock], fun _ => settled_rearm a⟩

theorem Shows.insert (shows : a.Shows spent folded) (u : UnitId) (ticks : Int32) :
    (a.insert u ticks).Shows spent folded :=
  shows_rearm (by rw [← shows.time]; exact clock_settle a)

theorem Shows.remove (shows : a.Shows spent folded) (u : UnitId) :
    (a.remove u).Shows spent folded := by
  unfold Agenda.remove
  split
  · exact shows_rearm (by rw [← shows.time]; exact clock_settle a)
  · exact shows

theorem Shows.settle (shows : a.Shows spent folded) (always : Prop) : a.settle.Shows spent always :=
  ⟨by rw [elapsedWrapping_settle, shows.time], fun _ => settled_settle a⟩

theorem Shows.rearm (shows : a.Shows spent True) : a.rearm.Shows spent True :=
  shows_rearm (by rw [← shows.time, (shows.settled trivial).elapsedWrapping])

theorem Shows.popped {u : UnitId} {rest : Agenda} (shows : a.Shows spent True)
    (popped : a.pop? = some (u, rest)) : rest.Shows spent True := by
  have settled := shows.settled trivial
  have clock : a.clock = spent := by rw [← shows.time, settled.elapsedWrapping]
  unfold pop? at popped
  unfold Settled reference at settled
  split at popped
  · simp at popped
  · simp only [Option.some.injEq, Prod.mk.injEq] at popped
    rw [← popped.2]
    exact shows_rearm clock
  · rename_i e f tail queue
    simp only [queue] at settled
    simp only [Option.some.injEq, Prod.mk.injEq] at popped
    have next : rest.Settled := by
      rw [← popped.2]
      show f.offset = a.interval - e.offset + f.offset
      rw [settled, Int32.sub_self, Int32.zero_add]
    refine ⟨?_, fun _ => next⟩
    rw [next.elapsedWrapping, ← popped.2]
    exact clock

/-- Once time is folded in, changes that spend no ticks keep it. -/
theorem Shows.after {h : List Change} (shows : a.Shows spent True)
    (possible : Trail Change.Possible a h) (quiet : ∀ ticks, .spent ticks ∉ h) :
    (a.after h).Shows spent True := by
  induction h generalizing a with
  | nil => exact shows
  | cons c h ih =>
    refine ih ?_ possible.2 fun ticks there => quiet ticks (List.mem_cons_of_mem _ there)
    cases c with
    | spent ticks => exact absurd List.mem_cons_self (quiet ticks)
    | queued u ticks => exact shows.insert u ticks
    | removed u => exact shows.remove u
    | settled => exact shows.settle True
    | popped u offset =>
      obtain ⟨rest, queue⟩ := possible.1
      obtain ⟨b, popped, -⟩ := pop?_of_queue queue
      show ((a.pop?.map Prod.snd).getD a).Shows spent True
      rw [popped]
      exact shows.popped popped
    | rested => exact shows.rearm

theorem Shows.schedules {h : List Change} (shows : a.Shows spent folded)
    (schedules : ∀ c ∈ h, c.Schedules) : (a.after h).Shows spent folded := by
  induction h generalizing a with
  | nil => exact shows
  | cons c h ih =>
    have here := schedules c List.mem_cons_self
    refine ih ?_ fun d there => schedules d (List.mem_cons_of_mem _ there)
    cases c with
    | queued u ticks => exact shows.insert u ticks
    | removed u => exact shows.remove u
    | spent | settled | popped | rested => exact here.elim

end Agenda

/-! ## Frugal programs -/

/-- Neither the program nor any callback that it installs spends ticks, whatever the answers to its
calls are. They may dispatch. -/
def Program.Frugal : Program ω → Prop
  | .done _ => True
  | .call c next => c.Passive ∧ ∀ answer, (next answer).Frugal
  | .look next => ∀ world, (next world).Frugal
  | .change _ next => next.Frugal
  | .setAction _ action next => action.Frugal ∧ next.Frugal
  | .setHook _ _ next => next.Frugal
  | .park _ _ _ deliver next => (∀ outcome, (deliver outcome).Frugal) ∧ next.Frugal
  | .dispatch next => ∀ result, (next result).Frugal

theorem Program.Frugal.inline {p : Program ω} {next : Result → Program ω} (first : p.Frugal)
    (rest : ∀ result, (next result).Frugal) : (Act.inline p next : Program ω).Frugal := by
  induction p with
  | done result => exact rest result
  | call c after ih => exact ⟨first.1, fun answer => ih answer (first.2 answer)⟩
  | look after ih => exact fun world => ih world (first world)
  | change f after ih => exact ih first
  | setAction u action after _ ih => exact ⟨first.1, ih first.2⟩
  | setHook u hook after ih => exact ih first
  | park u delay outcome deliver after _ ih => exact ⟨first.1, ih first.2⟩
  | dispatch after ih => exact fun result => ih result (first result)

theorem Program.frugal_submit (b : Backend) (u : UnitId) (request : Request)
    {done : Outcome → Program ω} {next : Result → Program ω}
    (completes : ∀ outcome, (done outcome).Frugal) (rest : ∀ result, (next result).Frugal) :
    (b.submit u request done next).Frugal := by
  cases b with
  | immediate sectorSize => exact ⟨trivial, fun outcome => (completes outcome).inline rest⟩
  | deferred sectorSize latency =>
    refine ⟨trivial, fun unit => ?_⟩
    show (if unit.ioPending then _ else _ : Act ω Result) next |>.Frugal
    split
    · exact rest _
    · exact ⟨trivial, fun outcome => ⟨trivial, fun _ => ⟨completes, trivial, fun _ =>
        ⟨trivial, fun _ => rest _⟩⟩⟩⟩

namespace Scheduler

/-- All callbacks are frugal, and the agenda shows a number of ticks. -/
structure Conserving (spent : UInt32) (folded : Prop) (s : Scheduler σ ω) : Prop where
  frugal : s.Carries Program.Frugal
  shows : s.agenda.Shows spent folded

variable {spent : UInt32} {folded : Prop} {s : Scheduler σ ω}

theorem steady_conserving : Steady (Conserving spent True : Scheduler σ ω → Prop) where
  tell _ _ here := ⟨here.frugal.of_slots rfl, here.shows⟩
  stop _ _ here := ⟨here.frugal.of_slots rfl, here.shows⟩
  dispatching _ _ here := ⟨here.frugal.of_slots rfl, here.shows⟩
  settle _ here := ⟨here.frugal.of_slots rfl, here.shows.settle True⟩
  rearm _ here _ := ⟨here.frugal.of_slots rfl, here.shows.rearm⟩

variable [MediaStore σ]

theorem Conserving.perform (here : s.Conserving spent folded) {c : Call} (passive : c.Passive) :
    (s.perform c).2.Conserving spent folded := by
  refine ⟨here.frugal.perform c, ?_⟩
  rw [agenda_perform]
  exact here.shows.schedules (schedules_changesOf passive)

end Scheduler

section
variable [MediaStore σ] {spent : UInt32} {folded : Prop}

/-- A frugal program keeps the ticks shown if dispatches from inside it do. -/
theorem Program.Frugal.exec {p : Program ω} (frugal : p.Frugal) {dispatch : Motion σ ω}
    (keeps : dispatch.Keeps (Scheduler.Conserving spent folded)) :
    Motion.Keeps (Scheduler.Conserving spent folded) (p.exec dispatch) := by
  induction p with
  | done result =>
    intro s here result t ended
    simp only [Program.exec, Option.some.injEq, Prod.mk.injEq] at ended
    rwa [← ended.2]
  | call c next ih => exact fun s here => ih _ (frugal.2 _) _ (here.perform frugal.1)
  | look next ih => exact fun s here => ih _ (frugal _) s here
  | change f next ih => exact fun s here => ih frugal _ ⟨here.frugal.of_slots rfl, here.shows⟩
  | setAction u action next _ ih =>
    exact fun s here => ih frugal.2 _ ⟨here.frugal.setAction u frugal.1, here.shows⟩
  | setHook u hook next ih =>
    exact fun s here => ih frugal _
      ⟨here.frugal.modifySlot fun _ slot => ⟨slot.action, slot.parked⟩, here.shows⟩
  | park u delay outcome deliver next _ ih =>
    exact fun s here => ih frugal.2 _ ⟨here.frugal.park u delay outcome frugal.1, here.shows⟩
  | dispatch next ih =>
    intro s here result t ended
    simp only [Program.exec] at ended
    split at ended
    · simp at ended
    · rename_i inner dispatched
      exact ih _ (frugal _) _ (keeps s here _ _ dispatched) _ _ ended

namespace Scheduler

theorem fire_conserving {dispatch : Motion σ ω}
    (keeps : dispatch.Keeps (Conserving spent True)) (u : UnitId) :
    Motion.Keeps (Conserving spent True) (fire dispatch u) := by
  intro s here result t fired
  have callbacks := here.frugal u
  cases fired_of_fire fired with
  | waits =>
    refine Conserving.perform ?_ (c := .activateAfter u (s.slot u).delay) trivial
    exact ⟨(here.frugal.of_slots (t := s.tell _) rfl).modifySlot fun _ slot =>
      ⟨slot.action, slot.parked⟩, here.shows⟩
  | @handsOver parked _ _ _ there ended =>
    refine (callbacks.parked parked there parked.outcome).exec keeps _ ?_ _ _ ended
    exact ⟨(here.frugal.of_slots (t := s.tell _) rfl).takeParked u, here.shows⟩
  | rests => exact ⟨here.frugal.of_slots rfl, here.shows⟩
  | @acts action _ t _ _ there ended =>
    have frugal := callbacks.action action there
    have left : t.Conserving spent True :=
      frugal.exec keeps _
        ⟨(here.frugal.of_slots (t := s.tell _) rfl).takeAction u, here.shows⟩ _ _ ended
    exact ⟨left.frugal.putBack u frugal, left.shows⟩

/-- A dispatch keeps the ticks shown, whether they have been folded in before it or not. -/
theorem processEvent_conserving (pops : Nat) :
    Motion.Keeps (Conserving spent folded) (processEvent pops : Motion σ ω) := by
  refine process_keeps steady_conserving
    (fun s here => ⟨here.frugal, here.shows.time, fun _ => here.shows.settled trivial⟩)
    (fun s here => ⟨here.frugal.of_slots rfl, here.shows⟩)
    (fun s here => ⟨here.frugal.of_slots rfl, here.shows.settle True⟩) ?_
  refine drain_keeps steady_conserving (fun dispatch keeps u agenda s here popped => ?_) pops
  exact fire_conserving keeps u _ ⟨here.frugal.of_slots rfl, here.shows.popped popped⟩

end Scheduler

theorem Program.Frugal.run {p : Program ω} (frugal : p.Frugal) (pops : Nat) :
    Motion.Keeps (Scheduler.Conserving spent folded) (p.run pops : Motion σ ω) :=
  frugal.exec (Scheduler.processEvent_conserving pops)

end

/-! ## Operations -/

/-- What is asked of a scheduler from outside. -/
inductive Operation (ω : Type) where
  /-- A single call, such as to spend ticks, to activate or cancel a unit, or to add one. -/
  | call (c : Call)
  | activateAbs (u : UnitId) (ticks : Int32)
  | activateNotBefore (u : UnitId) (target : UInt32)
  | activateAfterAbs (u : UnitId) (usecs : Float)
  | submit (b : Backend) (u : UnitId) (request : Request) (done : Outcome → Program ω)
  /-- A program of a device. -/
  | program (p : Program ω)
  | tick
  | processEvent

namespace Operation

def Frugal : Operation ω → Prop
  | .submit _ _ _ done => ∀ outcome, (done outcome).Frugal
  | .program p => p.Frugal
  | _ => True

/-- The ticks that an operation spends, given how it ends. -/
def spends : Operation ω → Result → UInt32
  | .call (.consume ticks), _ => ticks.toUInt32
  | .tick, .ok () => 1
  | _, _ => 0

variable [MediaStore σ]

def run (pops : Nat) : Operation ω → Motion σ ω
  | .call c => fun s => some (.ok (), (s.perform c).2)
  | .activateAbs u ticks => (Act.activateAbs u ticks fun _ => .done (.ok ())).run pops
  | .activateNotBefore u target =>
    (Act.activateNotBefore u target fun _ => .done (.ok ())).run pops
  | .activateAfterAbs u usecs => (Act.activateAfterAbs u usecs fun _ => .done (.ok ())).run pops
  | .submit b u request done => (b.submit u request done .done).run pops
  | .program p => p.run pops
  | .tick => fun s => s.tick pops
  | .processEvent => fun s => s.processEvent pops

end Operation

theorem Call.passive_or_consume (c : Call) : c.Passive ∨ ∃ ticks, c = .consume ticks := by
  cases c with
  | consume ticks => exact .inr ⟨ticks, rfl⟩
  | _ => exact .inl trivial

theorem Operation.spends_of_passive {c : Call} (passive : c.Passive) (result : Result) :
    (Operation.call c : Operation ω).spends result = 0 := by
  cases c with
  | consume ticks => exact passive.elim
  | _ => rfl

theorem Act.frugal_activateAbs (u : UnitId) (ticks : Int32) (result : Result) :
    (Act.activateAbs u ticks fun _ => .done result : Program ω).Frugal :=
  ⟨trivial, fun _ => ⟨trivial, fun _ => trivial⟩⟩

theorem Act.frugal_activateAfterAbs (u : UnitId) (usecs : Float) (result : Result) :
    (Act.activateAfterAbs u usecs fun _ => .done result : Program ω).Frugal :=
  ⟨trivial, fun _ => ⟨trivial, fun _ => trivial⟩⟩

theorem Act.frugal_activateNotBefore (u : UnitId) (target : UInt32) (result : Result) :
    (Act.activateNotBefore u target fun _ => .done result : Program ω).Frugal := by
  refine ⟨trivial, fun _ => ⟨trivial, fun agenda => ?_⟩⟩
  show (if 0x80000000 ≤ target - agenda.elapsedWrapping then _ else _ : Act ω Activation) _
    |>.Frugal
  split
  · exact ⟨trivial, fun _ => trivial⟩
  · exact ⟨trivial, fun _ => ⟨trivial, fun _ => trivial⟩⟩

namespace Scheduler

variable [MediaStore σ] {s t : Scheduler σ ω} {spent : UInt32} {result : Result}

omit [MediaStore σ] in
theorem Conserving.consume (here : s.Conserving spent False) (ticks : Int32) :
    (s.consume ticks).Conserving (spent + ticks.toUInt32) False :=
  ⟨here.frugal.of_slots rfl,
    by rw [← here.shows.time]; exact Agenda.elapsedWrapping_consume ticks s.agenda, False.elim⟩

theorem Conserving.tick (here : s.Conserving spent False) {pops : Nat}
    (ended : s.tick pops = some (result, t)) :
    t.Conserving (spent + (Operation.tick : Operation ω).spends result) False := by
  unfold Scheduler.tick at ended
  split at ended
  · split at ended
    · simp at ended
    · rename_i status t' dispatched
      simp only [Option.some.injEq, Prod.mk.injEq] at ended
      rw [← ended.1, ← ended.2]
      show t'.Conserving (spent + 0) False
      rw [UInt32.add_zero]
      exact processEvent_conserving pops s here _ _ dispatched
    · rename_i t' dispatched
      simp only [Option.some.injEq, Prod.mk.injEq] at ended
      rw [← ended.1, ← ended.2]
      exact (processEvent_conserving pops s here _ _ dispatched).consume 1
  · simp only [Option.some.injEq, Prod.mk.injEq] at ended
    rw [← ended.1, ← ended.2]
    exact here.consume 1

/-- An operation adds the ticks that it spends to those shown, and nothing else. -/
theorem Conserving.operate (here : s.Conserving spent False) {op : Operation ω}
    (frugal : op.Frugal) {pops : Nat} (ended : op.run pops s = some (result, t)) :
    t.Conserving (spent + op.spends result) False := by
  have of_program : ∀ p : Program ω, p.Frugal → p.run pops s = some (result, t) →
      t.Conserving (spent + 0) False := fun p frugal ended => by
    rw [UInt32.add_zero]
    exact frugal.run pops s here _ _ ended
  cases op with
  | call c =>
    simp only [Operation.run, Option.some.injEq, Prod.mk.injEq] at ended
    rw [← ended.2]
    obtain passive | ⟨ticks, rfl⟩ := c.passive_or_consume
    · rw [Operation.spends_of_passive passive, UInt32.add_zero]
      exact here.perform passive
    · exact here.consume ticks
  | activateAbs u ticks => exact of_program _ (Act.frugal_activateAbs u ticks _) ended
  | activateNotBefore u target => exact of_program _ (Act.frugal_activateNotBefore u target _) ended
  | activateAfterAbs u usecs => exact of_program _ (Act.frugal_activateAfterAbs u usecs _) ended
  | submit b u request done =>
    have ends : ∀ result, (Program.done result : Program ω).Frugal := fun _ => trivial
    exact of_program _ (Program.frugal_submit b u request frugal ends) ended
  | program p => exact of_program p frugal ended
  | tick => exact here.tick ended
  | processEvent =>
    show t.Conserving (spent + 0) False
    rw [UInt32.add_zero]
    exact processEvent_conserving pops s here _ _ ended

/-- Schedulers that come up when callbacks spend no ticks, with the ticks that operations have spent
so far, modulo `2 ^ 32`. -/
inductive Spent (idleWait : Int32) : Scheduler σ ω → UInt32 → Prop
  /-- The agenda is empty and time is 0. -/
  | start {s : Scheduler σ ω} :
    s.agenda = .start idleWait → s.Carries Program.Frugal → Spent idleWait s 0
  /-- All but the agenda may be changed from outside. -/
  | aside {s t : Scheduler σ ω} {spent : UInt32} :
    Spent idleWait s spent → t.agenda = s.agenda → t.Carries Program.Frugal →
      Spent idleWait t spent
  | operate {s t : Scheduler σ ω} {spent : UInt32} {op : Operation ω} {pops : Nat}
      {result : Result} :
    Spent idleWait s spent → op.Frugal → op.run pops s = some (result, t) →
      Spent idleWait t (spent + op.spends result)

theorem Spent.conserving {idleWait : Int32} (history : s.Spent idleWait spent) :
    s.Conserving spent False := by
  induction history with
  | start empty frugal =>
    have settled : (Agenda.start idleWait).Settled := rfl
    exact ⟨frugal, by rw [empty, settled.elapsedWrapping]; rfl, False.elim⟩
  | aside _ same frugal ih => exact ⟨frugal, same ▸ ih.shows⟩
  | operate _ frugal ended ih => exact ih.operate frugal ended

end Scheduler

section
variable [MediaStore σ]

/-- In every scheduler that comes up, simulated time is the sum of the ticks that operations have
spent. Spending `n` ticks adds `n`, a tick that ends well adds one, and a tick that fails, a dispatch
with any outcome and at any interval, and all scheduling, cancelling, adding of units and transfers
add nothing, whatever callbacks do that spend no ticks themselves. -/
theorem time_is_conserved {idleWait : Int32} {s : Scheduler σ ω} {spent : UInt32}
    (history : s.Spent idleWait spent) :
    s.agenda.elapsedWrapping = spent ∧
      ∀ (op : Operation ω) (pops : Nat) (result : Result) (t : Scheduler σ ω), op.Frugal →
        op.run pops s = some (result, t) →
          t.agenda.elapsedWrapping = s.agenda.elapsedWrapping + op.spends result := by
  have here := history.conserving
  refine ⟨here.shows.time, fun op pops result t frugal ended => ?_⟩
  rw [here.shows.time]
  exact (here.operate frugal ended).shows.time

end

/-- A unit that dispatches and schedules itself again whenever it fires, at a tick that comes three
ticks late. -/
theorem reentrant_tick_spends_one :
    ∃ s t : Scheduler MemoryImages Unit, s.agenda.elapsedWrapping = 3 ∧ s.agenda.interval = -3 ∧
      s.tick 4 = some (.ok (), t) ∧ t.agenda.elapsedWrapping = 4 ∧ t.agenda.interval = 4 := by
  let again : Program Unit :=
    .dispatch fun _ => .call (.activate 0 5) fun _ => .done (.ok ())
  let first : Scheduler MemoryImages Unit := .start 100 1 () default (.empty none)
  let ready := (first.perform (.addUnit { name := "A" })).2.modifySlot 0 fun slot =>
    { slot with action := some again }
  let s := ((ready.perform (.activate 0 0)).2.perform (.consume 3)).2
  have frugal : again.Frugal := fun _ => ⟨trivial, fun _ => trivial⟩
  have carries : ready.Carries Program.Frugal :=
    (Scheduler.Carries.perform (Scheduler.carries_of_empty rfl) _).setAction 0 frugal
  let activation : Operation Unit := .call (.activate 0 0)
  let spending : Operation Unit := .call (.consume 3)
  have queued : Scheduler.Spent 100 (ready.perform (.activate 0 0)).2 0 :=
    .operate (.start rfl carries) (show activation.Frugal from trivial) (show activation.run 0 ready = _ from rfl)
  have history : s.Spent 100 3 :=
    .operate queued (show spending.Frugal from trivial) (show spending.run 0 _ = _ from rfl)
  have ends : (s.tick 4).map (fun answer => (answer.1, answer.2.agenda.interval)) =
      some (.ok (), 4) := by decide +kernel
  obtain ⟨⟨result, t⟩, ended, same⟩ := Option.map_eq_some_iff.1 ends
  simp only [Prod.mk.injEq] at same
  obtain ⟨rfl, interval⟩ := same
  obtain ⟨time, adds⟩ := time_is_conserved history
  have later := adds .tick 4 (.ok ()) t trivial ended
  rw [time] at later
  exact ⟨s, t, time, by decide +kernel, ended, later, interval⟩

end Peripheral
