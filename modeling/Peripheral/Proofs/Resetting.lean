import Peripheral.Proofs.Clearing
import Peripheral.Proofs.Periods
import Peripheral.Proofs.Reachable
import Peripheral.Storage.MemoryImages

/-!
# A reset is canonical

Whatever a machine has done since it was built, a reset brings it into one of a few states: drives that hold
a finished transfer are due at once, the clock and the keyboard are due after a period and a poll time, and
nothing else is pending.

* `Peripherals.Sensible`, `plan_sensible` : units are apart and no pace is zero, as validated descriptions
  have it;
* `Machine.clears` : **what the three devices leave booked, one after the other**;
* `Machine.Canonical` : the state after a reset (`Canonical.trans`);
* `reset_is_canonical` : **a reset leads there from every machine that can be reached**, and another reset
  changes nothing of it.
-/

namespace Peripheral
open Ticks

variable {σ κ ε : Type}

/-! ## Peripherals of validated descriptions -/

namespace Peripherals

def units (p : Peripherals) : List UnitId :=
  p.clock.unit :: (p.disk.units ++ [p.terminal.keyboard, p.terminal.printer])

/-- Units are apart, and neither clock nor keyboard come up without end. -/
structure Sensible (p : Peripherals) : Prop where
  apart : p.units.Nodup
  period : 1 ≤ p.clock.period.toInt
  poll : 1 ≤ p.terminal.pollTicks.toInt

theorem units_plan (d : Description) : (plan d).units = List.range' 0 (3 + d.disk.drives.toNat) := by
  have split : 3 + d.disk.drives.toNat = 1 + (d.disk.drives.toNat + 2) := by omega
  rw [split, ← List.range'_append_1, ← List.range'_append_1]
  rfl

theorem plan_sensible {d : Description} (valid : d.validate = .ok ()) : (plan d).Sensible := by
  obtain ⟨time, rest⟩ := ok_of_bind valid
  obtain ⟨-, terminal⟩ := ok_of_bind rest
  obtain ⟨-, rate⟩ := ok_of_bind time
  replace rate := of_demand rate
  replace terminal := of_demand terminal
  rw [Bool.and_eq_true, decide_eq_true_eq] at rate
  rw [Bool.and_eq_true, decide_eq_true_eq, Int32.lt_iff_toInt_lt] at terminal
  refine ⟨?_, LineClock.one_le_periodOf rate.1 rate.2 d.clock.hz, terminal.1⟩
  rw [units_plan]
  exact List.nodup_range'

end Peripherals

/-! ## The devices, one after the other -/

namespace Registry

variable {ω : Type} [MediaStore σ] {P : Agenda → Change → Prop} {pops : Nat} {s : Scheduler σ ω}

/-- The first of some devices is reset, then the others, and the changes come in the same order. -/
theorem resetEach_cons {device : Device ω} {rest : List (Device ω)}
    (trail : Trail P s.agenda (resetEachChanges pops (device :: rest) s)) :
    Trail P s.agenda (device.reset.runChanges pops s) ∧
      ∀ t, device.reset.run pops s = some (.ok (), t) →
        resetEach pops (device :: rest) s = resetEach pops rest t ∧
          Trail P t.agenda (resetEachChanges pops rest t) := by
  rw [resetEachChanges, Trail.append] at trail
  refine ⟨trail.1, fun t ran => ?_⟩
  have later := trail.2
  rw [← (Program.run_recordedBy pops device.reset).agenda _ _ _ ran, ran] at later
  refine ⟨?_, later⟩
  rw [resetEach, ran]

theorem resetEach_schedules (pops : Nat) {devices : List (Device ω)}
    (passive : ∀ device ∈ devices, device.reset.Passive) (s : Scheduler σ ω) :
    ∀ c ∈ resetEachChanges pops devices s, c.Schedules := by
  induction devices generalizing s with
  | nil => exact List.forall_mem_nil _
  | cons device rest ih =>
    intro c there
    rw [resetEachChanges] at there
    rcases List.mem_append.1 there with own | later
    · exact (passive device List.mem_cons_self).schedules _ _ s c own
    · split at later
      · exact ih (fun device there => passive device (List.mem_cons_of_mem _ there)) _ c later
      · cases later

end Registry

namespace Peripherals

/-- When the clock, if it is enabled, and the keyboard are due after a reset: by their deadlines, the clock
first on a tie. -/
def pacing (p : Peripherals) : List (UnitId × Int) :=
  if p.clock.enabled then
    if p.clock.period.toInt ≤ p.terminal.pollTicks.toInt then
      [(p.clock.unit, p.clock.period.toInt), (p.terminal.keyboard, p.terminal.pollTicks.toInt)]
    else [(p.terminal.keyboard, p.terminal.pollTicks.toInt), (p.clock.unit, p.clock.period.toInt)]
  else [(p.terminal.keyboard, p.terminal.pollTicks.toInt)]

variable {p : Peripherals}

theorem book_keyboard (p : Peripherals) :
    book p.terminal.keyboard p.terminal.pollTicks.toInt p.clock.booking = p.pacing := by
  unfold LineClock.booking pacing
  split
  · split
    · rename_i sooner
      exact book_cons_of_le (by exact sooner)
    · rename_i later
      exact book_cons_of_lt (by exact Int.not_le.1 later)
  · rfl

theorem book_keyboard_append (sensible : p.Sensible) {early : List (UnitId × Int)}
    (due : ∀ x ∈ early, x.2 = 0) :
    book p.terminal.keyboard (max p.terminal.pollTicks.toInt 0) (early ++ p.clock.booking) =
      early ++ p.pacing := by
  have poll := sensible.poll
  have before : ∀ x ∈ early, x.2 ≤ p.terminal.pollTicks.toInt := by
    intro x there
    have now := due x there
    omega
  rw [Int.max_eq_left (by omega), book_append before, book_keyboard]

end Peripherals

namespace Board

theorem getD_modify_const {α : Type} (xs : Array α) (i : Nat) (a : α) :
    (xs.modify i fun _ => a).getD i a = a := by
  rw [Array.getD_eq_getD_getElem?, Array.getElem?_modify, if_pos rfl]
  cases xs[i]? with
  | none => rfl
  | some _ => rfl

theorem clock_forgotten (i : Nat) (b : Board κ ε) : (b.modifyClock i fun _ => 0).clock i = 0 :=
  getD_modify_const b.clocks i 0

theorem terminal_forgotten (i : Nat) (b : Board κ ε) : (b.modifyTerminal i fun _ => {}).terminal i = {} :=
  getD_modify_const b.terminals i {}

end Board

namespace Machine

variable [MediaStore σ] {p : Peripherals} {m m' : Machine σ (Board κ ε)} {pops : Nat}

omit [MediaStore σ] in
theorem allUnits_eq (devices : m.registry.devices = #[p.clock.device, p.disk.device, p.terminal.device]) :
    m.allUnits = p.units := by
  unfold allUnits
  rw [devices]
  rfl

def bookings (p : Peripherals) (m : Machine σ (Board κ ε)) : List (UnitId × Int) :=
  SectorDisk.booking p.disk.units m.scheduler ++ p.pacing

/-- Each device cancels its units and books some of them anew. -/
theorem clears (devices : m.registry.devices = #[p.clock.device, p.disk.device, p.terminal.device])
    (sensible : p.Sensible) (here : m.scheduler.Clearing m.scheduler p.units [])
    (trail : Trail Change.Precise m.scheduler.agenda (m.resetChanges pops)) :
    ∃ t, m.resetAll pops = some (.ok (), { m with scheduler := t }) ∧
      t.Clearing m.scheduler [] (m.bookings p) ∧
      t.world = p.terminal.modify (fun _ => {}) (m.scheduler.world.modifyClock p.clock.record fun _ => 0) := by
  unfold resetChanges at trail
  rw [devices] at trail
  have apart := sensible.apart
  unfold Peripherals.units at apart
  rw [List.nodup_cons] at apart
  obtain ⟨trail, rest⟩ := Registry.resetEach_cons trail
  obtain ⟨s₁, ran₁, here₁, world₁⟩ := p.clock.clears sensible.period here apart.1 trail
  have later : ∀ x ∈ p.clock.booking, 0 < x.2 := by
    have period := sensible.period
    unfold LineClock.booking
    split
    · intro x there
      rw [List.mem_singleton.1 there]
      exact period
    · exact List.forall_mem_nil _
  have now : ∀ x ∈ SectorDisk.booking p.disk.units m.scheduler, x.2 = 0 := by
    intro x there
    obtain ⟨u, -, rfl⟩ := List.mem_map.1 there
    rfl
  obtain ⟨went₁, trail⟩ := rest s₁ ran₁
  obtain ⟨trail, rest⟩ := Registry.resetEach_cons trail
  obtain ⟨s₂, ran₂, here₂, world₂⟩ := p.disk.clears here₁ apart.2 later trail
  obtain ⟨went₂, trail⟩ := rest s₂ ran₂
  obtain ⟨trail, rest⟩ := Registry.resetEach_cons trail
  obtain ⟨s₃, ran₃, here₃, world₃⟩ := p.terminal.clears here₂ trail
  obtain ⟨went₃, -⟩ := rest s₃ ran₃
  refine ⟨s₃, ?_, ?_, ?_⟩
  · have ended : m.registry.resetAll pops m.scheduler = some (.ok (), s₃) := by
      rw [Registry.resetAll, devices]
      exact went₁.trans (went₂.trans went₃)
    rw [resetAll, ended]
    rfl
  · rwa [Peripherals.book_keyboard_append sensible now] at here₃
  · rw [world₃, world₂, world₁]

/-! ## The state after a reset -/

/-- What a machine is like once `m` has been reset. -/
structure Canonical (p : Peripherals) (m m' : Machine σ (Board κ ε)) : Prop where
  /-- Drives that hold a finished transfer are due at once, in their order; clock and keyboard after them. -/
  queue : m'.scheduler.agenda.remaining = m.bookings p
  /-- Transfers are as they were. -/
  parked : ∀ u, (m'.scheduler.slot u).parked = (m.scheduler.slot u).parked
  /-- No transfer waits any longer. -/
  latency : ∀ u, ¬(m'.scheduler.slot u).delay > 0
  count : m'.scheduler.world.clock p.clock.record = 0
  characters : m'.scheduler.world.terminal p.terminal.record = {}
  time : m'.scheduler.agenda.elapsedWrapping = m.scheduler.agenda.elapsedWrapping

omit [MediaStore σ] in
theorem bookings_congr (parked : ∀ u, (m'.scheduler.slot u).parked = (m.scheduler.slot u).parked) :
    m'.bookings p = m.bookings p := by
  unfold bookings SectorDisk.booking
  simp only [parked]

omit [MediaStore σ] in
theorem Canonical.trans {m'' : Machine σ (Board κ ε)} (one : m.Canonical p m') (other : m'.Canonical p m'') :
    m.Canonical p m'' where
  queue := other.queue.trans (bookings_congr one.parked)
  parked u := (other.parked u).trans (one.parked u)
  latency := other.latency
  count := other.count
  characters := other.characters
  time := other.time.trans one.time

omit [MediaStore σ] in
theorem canonical_of_clearing {t : Scheduler σ (Board κ ε)} (here : t.Clearing m.scheduler [] (m.bookings p))
    (world : t.world =
      p.terminal.modify (fun _ => {}) (m.scheduler.world.modifyClock p.clock.record fun _ => 0)) :
    m.Canonical p { m with scheduler := t } where
  queue := here.remaining
  parked := here.parked
  latency u waiting := List.not_mem_nil (here.waits u waiting).1
  count := by
    show t.world.clock p.clock.record = 0
    rw [world]
    exact Board.clock_forgotten p.clock.record m.scheduler.world
  characters := by
    show t.world.terminal p.terminal.record = {}
    rw [world]
    exact Board.terminal_forgotten p.terminal.record _
  time := here.time

omit [MediaStore σ] in
theorem Tidy.clearing (tidy : m.Tidy p) (bare : ∀ u, (m.scheduler.slot u).hook = none)
    (own : ∀ u ∈ m.scheduler.agenda.units, u ∈ p.units) :
    m.scheduler.Clearing m.scheduler p.units [] where
  bare := bare
  parked _ := rfl
  nodup := tidy.nodup
  ordered := tidy.ordered
  waits u waiting :=
    have pending := tidy.attended.waits u waiting
    ⟨own u pending, pending⟩
  booked := by
    rw [List.filter_eq_nil_iff]
    intro x there
    rw [decide_eq_true_eq, not_not]
    refine own x.1 ?_
    rw [← map_fst_remaining]
    exact List.mem_map_of_mem there
  time := rfl

/-! ## Another reset -/

omit [MediaStore σ] in
theorem mem_bookings {x : UnitId × Int} (sensible : p.Sensible) (there : x ∈ m.bookings p) :
    x.1 ∈ p.units ∧ 0 ≤ x.2 ∧ x.2 ≤ 2147483647 := by
  have period := sensible.period
  have poll := sensible.poll
  have period_most := (inRange_iff.1 (inRange_toInt p.clock.period)).2
  have poll_most := (inRange_iff.1 (inRange_toInt p.terminal.pollTicks)).2
  unfold Peripherals.units
  rcases List.mem_append.1 there with drive | pace
  · obtain ⟨u, holds, rfl⟩ := List.mem_map.1 drive
    have unit := (List.mem_filter.1 holds).1
    exact ⟨List.mem_cons_of_mem _ (List.mem_append_left _ unit), by omega, by omega⟩
  · have either : x = (p.clock.unit, p.clock.period.toInt) ∨
        x = (p.terminal.keyboard, p.terminal.pollTicks.toInt) := by
      unfold Peripherals.pacing at pace
      split at pace
      · split at pace
        · simpa using pace
        · simpa [or_comm] using pace
      · exact .inr (List.mem_singleton.1 pace)
    rcases either with rfl | rfl
    · exact ⟨List.mem_cons_self, by omega, by omega⟩
    · exact ⟨by simp, by omega, by omega⟩

/-- What has been reset can be reset again: nothing overflows in it, since nothing is overdue. -/
theorem clears_again {t : Scheduler σ (Board κ ε)} (sensible : p.Sensible)
    (devices : m.registry.devices = #[p.clock.device, p.disk.device, p.terminal.device])
    (here : t.Clearing m.scheduler [] (m.bookings p)) (pops : Nat) :
    ({ m with scheduler := t } : Machine σ (Board κ ε)).scheduler.Clearing t p.units [] ∧
      Trail Change.Precise t.agenda (({ m with scheduler := t } : Machine σ (Board κ ε)).resetChanges pops) := by
  have timely : t.agenda.Timely 0 := by
    refine timely_of_remaining here.ordered fun x there => ?_
    rw [here.remaining] at there
    exact (mem_bookings sensible there).2
  refine ⟨⟨here.bare, fun _ => rfl, here.nodup, here.ordered, fun u waiting => ?_, ?_, rfl⟩, ?_⟩
  · exact absurd (here.waits u waiting).1 List.not_mem_nil
  · rw [List.filter_eq_nil_iff]
    intro x there
    rw [decide_eq_true_eq, not_not]
    rw [here.remaining] at there
    exact (mem_bookings sensible there).1
  · have possible := (Registry.resetEach_recordedBy (σ := σ) pops m.registry.devices.toList).possible t
    have schedules := Registry.resetEach_schedules pops
      (fun device there => (Peripherals.devices_passive devices device there).1) t
    have inTime := (timely_of_schedules timely here.nodup possible schedules).1
    have prompt := inTime.mono fun _ _ => Change.InTime.prompt 0
    exact (timely_after (by omega) (Int.le_refl 0) here.nodup possible prompt timely).1.mono
      fun _ _ => Change.Faithful.precise

end Machine

/-- Whatever a machine has done since it was built, without overflow, and wherever it stands: with an
overdue queue, characters under way or transfers in flight. If there are no hooks and only units of its
devices are pending, a reset in which nothing overflows ends well, and leaves the drives that hold a
finished transfer due at once, in their order, then the clock and the keyboard. Another reset leads to the
same state. Up to the reset a sum may be held inside the range; in the reset that counts as an overflow too,
since a unit booked for the largest tick count would go behind one that is due after it. -/
theorem reset_is_canonical [MediaStore σ] [Console κ] {d : Description} {media : σ} {console : κ}
    {extra : ε} {journal : Journal} {p : Peripherals} {first m : Machine σ (Board κ ε)} {h : List Change}
    {pops pops' : Nat} (built : Machine.build pops d media console extra journal = some (.ok p, first))
    (reached : first.Reached m h) (bare : ∀ u, (m.scheduler.slot u).hook = none)
    (own : ∀ u ∈ m.scheduler.agenda.units, u ∈ m.allUnits)
    (before : Trail Change.Exact first.scheduler.agenda h)
    (during : Trail Change.Precise m.scheduler.agenda (m.resetChanges pops')) :
    ∃ m', m.resetAll pops' = some (.ok (), m') ∧ m.Canonical p m' ∧
      ∀ pops'', ∃ m'', m'.resetAll pops'' = some (.ok (), m'') ∧ m.Canonical p m'' := by
  obtain ⟨valid, planned, -⟩ := Machine.build_cases built
  have sensible : p.Sensible := planned ▸ Peripherals.plan_sensible valid
  have tidy := reached.tidy (Machine.built_tidy built) before
  rw [Machine.allUnits_eq tidy.devices] at own
  obtain ⟨t, reset, here, world⟩ := Machine.clears tidy.devices sensible (tidy.clearing bare own) during
  have canonical := Machine.canonical_of_clearing here world
  refine ⟨_, reset, canonical, fun pops'' => ?_⟩
  obtain ⟨again, precise⟩ := Machine.clears_again sensible tidy.devices here pops''
  obtain ⟨t', reset', here', world'⟩ :=
    Machine.clears (m := { m with scheduler := t }) tidy.devices sensible again precise
  exact ⟨_, reset', canonical.trans (Machine.canonical_of_clearing here' world')⟩

theorem Scheduler.bare_of_all {ω : Type} {s : Scheduler σ ω} (all : s.slots.all fun slot => slot.hook.isNone)
    (u : UnitId) : (s.slot u).hook = none := by
  by_cases inside : u < s.slots.size
  · have there : s.slot u = s.slots[u] := by
      unfold Scheduler.slot
      rw [Array.getD_eq_getD_getElem?, Array.getElem?_eq_getElem inside]
      rfl
    rw [there]
    exact Option.isNone_iff_eq_none.1 (Array.all_eq_true.1 all u inside)
  · rw [slot_of_size_le (Nat.not_lt.1 inside)]
    rfl

/-- Twenty ticks go by without a dispatch while a boot sector is read and a character is displayed: the drive,
the clock and the keyboard are overdue, and the printer is not. After a reset the drive is due at once, and the
clock and the keyboard, which have the same pace, in this order. -/
theorem reset_of_busy_machine :
    ∃ (d : Description) (p : Peripherals) (first m m' m'' : Machine MemoryImages (Board Headless Unit))
      (h : List Change),
      Machine.build 99 d ⟨[("A", Bytes.zeros 1024)], []⟩ (Headless.withInput []) () (.empty none) =
        some (.ok p, first) ∧
      first.Reached m h ∧ m.scheduler.agenda.remaining = [(1, -20), (0, -13), (3, -13), (4, 80)] ∧
      (m.scheduler.slot 1).delay > 0 ∧ (m.scheduler.world.terminal p.terminal.record).output = [0x41] ∧
      m.resetAll 99 = some (.ok (), m') ∧
      m'.scheduler.agenda.remaining = [(1, 0), (0, 7), (3, 7)] ∧
      m'.resetAll 99 = some (.ok (), m'') ∧
      m''.scheduler.agenda.remaining = [(1, 0), (0, 7), (3, 7)] := by
  let d : Description :=
    { time := { tickRate := 420 }, disk := { drives := 2, latency := 50000 }, terminal := { pollTicks := 7 }
      attach := [{ device := "DK", path := "A" }], boot := some "DK" }
  let p := Peripherals.plan d
  let built : Option (Except Status Peripherals × Machine MemoryImages (Board Headless Unit)) :=
    Machine.build 99 d ⟨[("A", Bytes.zeros 1024)], []⟩ (Headless.withInput []) () (.empty none)
  let busy : Program (Board Headless Unit) :=
    p.terminal.putChars [0x41] fun _ => .call (.consume 20) fun _ => .done (.ok ())
  have orderly : busy.Orderly :=
    .change <| .call (c := .activate _ _) fun _ => .call (c := .consume 20) fun _ => .done _
  let met (first : Machine MemoryImages (Board Headless Unit)) (s : Scheduler MemoryImages (Board Headless Unit)) :
      Bool :=
    let m : Machine MemoryImages (Board Headless Unit) := { first with scheduler := s }
    s.slots.all (fun slot => slot.hook.isNone) && decide (∀ u ∈ s.agenda.units, u ∈ m.allUnits) &&
      decide (Trail Change.Exact first.scheduler.agenda (busy.runChanges 99 first.scheduler)) &&
      decide (Trail Change.Precise s.agenda (m.resetChanges 99))
  let found (m : Machine MemoryImages (Board Headless Unit)) : Bool :=
    decide (m.scheduler.agenda.remaining = [(1, -20), (0, -13), (3, -13), (4, 80)]) &&
      decide ((m.scheduler.slot 1).delay > 0) &&
      decide ((m.scheduler.world.terminal p.terminal.record).output = [0x41]) &&
      decide (m.bookings p = [(1, 0), (0, 7), (3, 7)])
  have builds : built.map (·.1) = some (.ok p) := by decide +kernel
  have runs : (built.bind fun a => (busy.run 99 a.2.scheduler).map fun b =>
      met a.2 b.2 && found { a.2 with scheduler := b.2 }) = some true := by decide +kernel
  obtain ⟨⟨_, first⟩, ended, rfl⟩ := Option.map_eq_some_iff.1 builds
  rw [ended, Option.bind_some] at runs
  obtain ⟨⟨result, s⟩, ran, checked⟩ := Option.map_eq_some_iff.1 runs
  simp only [met, found, Bool.and_eq_true, decide_eq_true_eq] at checked
  obtain ⟨⟨⟨⟨bare, own⟩, before⟩, during⟩, ⟨⟨queue, waits⟩, output⟩, due⟩ := checked
  have reached : first.Reached { first with scheduler := s } ([] ++ busy.runChanges 99 first.scheduler) :=
    .call .start orderly ran
  obtain ⟨m', reset, canonical, again⟩ :=
    reset_is_canonical ended reached (Scheduler.bare_of_all bare) own before during
  obtain ⟨m'', reset', canonical'⟩ := again 99
  exact ⟨d, p, first, _, m', m'', _, ended, reached, queue, waits, output, reset, canonical.queue.trans due,
    reset', canonical'.queue.trans due⟩

end Peripheral
