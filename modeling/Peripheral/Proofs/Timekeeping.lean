import Peripheral.Proofs.Devices
import Peripheral.Proofs.Stopping
import Peripheral.Proofs.Undisturbed
import Peripheral.Storage.MemoryImages

/-!
# The line clock does not drift

A clock that comes up counts, and books itself a period ahead at the tick at which it was due. However
many units share its ticks, the ticks that remain for it and the ticks spent so far always add up to a
whole number of periods, one more than it has counted.

* `LineClock.license` : what leaves a clock alone, as the other devices do;
* `LineClock.Paced` : the clock is due at the end of its current period (`bears_pacing`, `Paced.pop`,
  `Pacing.fire`, `Paced.processEvent`);
* `Paced.runSlots` : so it is after every slot of an idle run;
* `Machine.built_paced` : and on every machine that is built from a description with a clock;
* `clock_never_drifts` : **an idle run of `n` ticks counts `(n - 1) / P` interrupts**.
-/

namespace Peripheral
open Ticks

variable {σ κ ε : Type}

/-! ## What leaves a clock alone -/

namespace LineClock

variable {c : LineClock}

/-- A change of the board that leaves the count of a clock alone. -/
def Leaves (c : LineClock) (f : Board κ ε → Board κ ε) : Prop :=
  ∀ b, (f b).clocks[c.record]? = b.clocks[c.record]?

/-- Neither ticks may be spent nor the clock be touched. -/
def license (c : LineClock) : License (Board κ ε) where
  staff u := if u = c.unit then some c.action else none
  calls := Call.Passive
  changes := c.Leaves
  deeds _ := False
  passive _ := id

theorem license_none {u : UnitId} : (c.license : License (Board κ ε)).staff u = none ↔ u ≠ c.unit := by
  simp [license]

theorem license_some {u : UnitId} {p : Program (Board κ ε)} :
    c.license.staff u = some p ↔ u = c.unit ∧ p = c.action := by
  simp [license, eq_comm]

theorem license_unit : c.license.staff c.unit = some (c.action : Program (Board κ ε)) := if_pos rfl

theorem license_spares {k : Call} (spares : k.Spares c.unit) :
    (c.license : License (Board κ ε)).Spares k := by
  intro u p there
  rw [(license_some.1 there).1]
  exact spares

/-! ## The clock keeps its pace -/

def cadence (c : LineClock) : Int := max c.period.toInt 0

/-- All callbacks but that of the clock leave it alone, and nothing in the queue is overdue. -/
structure Undisturbed (c : LineClock) (s : Scheduler σ (Board κ ε)) : Prop extends
    s.Staffed c.license where
  nodup : s.agenda.units.Nodup
  timely : s.agenda.Timely 0

/-- After `spent` ticks the clock is due at the end of the period after those it has counted. -/
structure Paced (c : LineClock) (spent : Int) (s : Scheduler σ (Board κ ε)) : Prop extends
    c.Undisturbed s where
  due : ∃ count r, s.world.clocks[c.record]? = some count ∧ (c.unit, r) ∈ s.agenda.remaining ∧
    r + spent = (count + 1) * c.cadence ∧ r ≤ c.cadence

variable {s t : Scheduler σ (Board κ ε)} {spent : Int}

theorem license_timeless : (c.license : License (Board κ ε)).Timeless where
  staff u p there := by
    obtain ⟨-, rfl⟩ := license_some.1 there
    exact ⟨trivial, fun _ => trivial⟩
  calls _ := id
  deeds _ _ := False.elim

theorem undisturbed_iff : c.Undisturbed s ↔ s.Undisturbed c.license :=
  ⟨fun here => ⟨here.toStaffed, here.nodup, here.timely⟩, fun here => ⟨here.toStaffed, here.nodup, here.timely⟩⟩

theorem Undisturbed.of_same (here : c.Undisturbed s) (slots : ∀ u, t.slot u = s.slot u)
    (size : t.slots.size = s.slots.size) (agenda : t.agenda = s.agenda) : c.Undisturbed t :=
  undisturbed_iff.2 ((undisturbed_iff.1 here).of_same slots size agenda)

theorem Paced.of_same (here : c.Paced spent s) (slots : ∀ u, t.slot u = s.slot u)
    (size : t.slots.size = s.slots.size) (agenda : t.agenda = s.agenda)
    (count : t.world.clocks[c.record]? = s.world.clocks[c.record]?) : c.Paced spent t := by
  refine ⟨here.toUndisturbed.of_same slots size agenda, ?_⟩
  rw [agenda, count]
  exact here.due

theorem Paced.modifySlot (here : c.Paced spent s) {u : UnitId} (other : u ≠ c.unit)
    (f : Slot (Board κ ε) → Slot (Board κ ε)) (carries : (f (s.slot u)).Carries (Program.Within c.license))
    (hooks : ∀ hook, (f (s.slot u)).hook = some hook → c.Leaves fun b => (hook b).2) :
    c.Paced spent (s.modifySlot u f) :=
  ⟨undisturbed_iff.2 ((undisturbed_iff.1 here.toUndisturbed).modifySlot (license_none.2 other) f carries hooks),
    here.due⟩

variable [MediaStore σ]

theorem Undisturbed.book {count : Nat} (here : c.Undisturbed s)
    (counted : s.world.clocks[c.record]? = some count) (idle : c.unit ∉ s.agenda.units)
    (passed : spent = count * c.cadence) :
    c.Paced spent (s.activate c.unit c.period).2 ∧
      (s.activate c.unit c.period).2.agenda.Settled := by
  have due := (undisturbed_iff.1 here).activate_due idle c.period
  have booked := undisturbed_iff.2 ((undisturbed_iff.1 here).activate c.unit c.period).1
  refine ⟨⟨booked, count, c.cadence, ?_, due, ?_, Int.le_refl _⟩, ?_⟩
  · rw [Scheduler.world_activate]
    exact counted
  · rw [passed, Int.add_mul, Int.one_mul, Int.add_comm]
  · rw [(activate_idle c.period idle).2]
    exact (timely_insert here.timely).2

theorem Undisturbed.clocks_perform (here : c.Undisturbed s) (k : Call) :
    (s.perform k).2.world.clocks[c.record]? = s.world.clocks[c.record]? :=
  here.toStaffed.world_perform (g := fun b => b.clocks[c.record]?) (fun _ => id) k

theorem Undisturbed.perform (here : c.Undisturbed s) {k : Call} (passive : k.Passive)
    (spares : k.Spares c.unit) :
    c.Undisturbed (s.perform k).2 ∧ (s.agenda.Settled → (s.perform k).2.agenda.Settled) :=
  ⟨undisturbed_iff.2 ((undisturbed_iff.1 here).perform passive (license_spares spares)),
    ((undisturbed_iff.1 here).keeps_time passive).2.2⟩

theorem Paced.perform (here : c.Paced spent s) {k : Call} (passive : k.Passive)
    (spares : k.Spares c.unit) : c.Paced spent (s.perform k).2 := by
  obtain ⟨count, r, counted, waits, sum, most⟩ := here.due
  refine ⟨(here.toUndisturbed.perform passive spares).1, count, r, ?_, ?_, sum, most⟩
  · rw [here.toUndisturbed.clocks_perform]
    exact counted
  · exact Scheduler.keeps_deadline passive spares here.timely here.nodup waits

/-- In the middle of a dispatch no ticks are left to be folded in. -/
def Pacing (c : LineClock) (spent : Int) (s : Scheduler σ (Board κ ε)) : Prop :=
  c.Paced spent s ∧ s.agenda.Settled

omit [MediaStore σ] in
theorem Paced.settle (here : c.Paced spent s) : c.Pacing spent { s with agenda := s.agenda.settle } := by
  obtain ⟨count, r, counted, waits, rest⟩ := here.due
  refine ⟨⟨undisturbed_iff.2 (undisturbed_iff.1 here.toUndisturbed).settle, count, r, counted, ?_, rest⟩,
    settled_settle s.agenda⟩
  rw [remaining_settle]
  exact waits

theorem bears_pacing :
    (c.license : License (Board κ ε)).Bears (c.Pacing spent : Scheduler σ (Board κ ε) → Prop) where
  staffed _ here := here.1.toStaffed
  perform s k here passive spares := by
    have spared := spares c.unit _ license_unit
    exact ⟨here.1.perform passive spared, (here.1.toUndisturbed.perform passive spared).2 here.2⟩
  change s f here leaves := ⟨here.1.of_same (fun _ => rfl) rfl rfl (leaves s.world), here.2⟩
  modifySlot _ _ f here other carries hooks :=
    ⟨here.1.modifySlot (license_none.1 other) f carries hooks, here.2⟩
  deed _ _ _ _ none := none.elim

theorem exec_action (dispatch : Motion σ (Board κ ε)) (s : Scheduler σ (Board κ ε)) :
    c.action.exec dispatch s =
      some (.ok (), ({ s with world := s.world.modifyClock c.record (· + 1) }.activate c.unit c.period).2) :=
  rfl

/-- The clock comes up at the end of its period: it counts, and is booked for the end of the next. -/
theorem Undisturbed.fire {count : Nat} (here : c.Undisturbed s)
    (counted : s.world.clocks[c.record]? = some count) (idle : c.unit ∉ s.agenda.units)
    (passed : spent = (count + 1) * c.cadence) {dispatch : Motion σ (Board κ ε)} {result : Result}
    (fired : Scheduler.fire dispatch c.unit s = some (result, t)) : c.Pacing spent t := by
  obtain ⟨b, last, ran, agenda, world, agenda', world', slots, size⟩ :=
    here.toStaffed.fire_staff license_unit (fun b result last ran => by
      rw [exec_action] at ran
      cases ran
      exact ⟨fun v => Scheduler.slot_activate c.unit v c.period _, Scheduler.size_activate c.unit c.period _⟩)
      fired
  rw [exec_action] at ran
  cases ran
  let next : Scheduler σ (Board κ ε) := { s with world := s.world.modifyClock c.record (· + 1) }
  have counts : next.world.clocks[c.record]? = some (count + 1) := by
    show (s.world.clocks.modify c.record (· + 1))[c.record]? = _
    rw [Array.getElem?_modify, if_pos rfl, counted]
    rfl
  have undisturbed : c.Undisturbed next := here.of_same (fun _ => rfl) rfl rfl
  obtain ⟨paced, settled⟩ := undisturbed.book counts idle (passed.trans rfl)
  have same : t.agenda = (next.activate c.unit c.period).2.agenda := by
    have away : c.unit ∉ b.agenda.units := by rwa [agenda]
    have booked := (activate_idle (s := { b with world := b.world.modifyClock c.record (· + 1) })
      c.period away).2
    calc t.agenda = b.agenda.insert c.unit c.period := agenda'.trans booked
      _ = s.agenda.insert c.unit c.period := by rw [agenda]
      _ = _ := (activate_idle (s := next) c.period idle).2.symm
  refine ⟨paced.of_same (fun u => ?_) ?_ same ?_, ?_⟩
  · rw [slots, Scheduler.slot_activate]
    rfl
  · rw [size, Scheduler.size_activate]
  · rw [world', Scheduler.world_activate, Scheduler.world_activate, world]
  · rw [same]
    exact settled

/-! ## Dispatches -/

omit [MediaStore σ] in
/-- Taking a unit off the head that is due brings the clock to fire or leaves it where it is due. -/
theorem Paced.pop (here : c.Paced spent s) (settled : s.agenda.Settled)
    (due : s.agenda.interval.toInt ≤ 0) {u : UnitId} {agenda : Agenda}
    (popped : s.agenda.pop? = some (u, agenda)) :
    c.Undisturbed { s with agenda } ∧ agenda.Settled ∧ u ∉ agenda.units ∧
      (u ≠ c.unit → c.Paced spent { s with agenda }) ∧
      (u = c.unit → ∃ count : Nat, s.world.clocks[c.record]? = some count ∧
        spent = (count + 1) * c.cadence) := by
  obtain ⟨left, folded, idle, others, head⟩ := (undisturbed_iff.1 here.toUndisturbed).pop settled due popped
  have undisturbed : c.Undisturbed { s with agenda } := undisturbed_iff.2 left
  obtain ⟨count, r, counted, waits, sum, most⟩ := here.due
  refine ⟨undisturbed, folded, idle, fun other => ⟨undisturbed, count, r, counted, ?_, sum, most⟩, ?_⟩
  · exact others _ _ (Ne.symm other) waits
  · rintro rfl
    have now := head r waits
    exact ⟨count, counted, by omega⟩

theorem Pacing.fire (here : c.Pacing spent s) (due : s.agenda.interval.toInt ≤ 0) {u : UnitId}
    {agenda : Agenda} (popped : s.agenda.pop? = some (u, agenda)) {dispatch : Motion σ (Board κ ε)}
    {result : Result} (fired : Scheduler.fire dispatch u { s with agenda } = some (result, t)) :
    c.Pacing spent t := by
  obtain ⟨undisturbed, settled, idle, others, own⟩ := here.1.pop here.2 due popped
  by_cases clock : u = c.unit
  · obtain ⟨count, counted, passed⟩ := own clock
    subst clock
    exact undisturbed.fire counted idle passed fired
  · exact bears_pacing.fire_others (license_none.2 clock) dispatch _ ⟨others clock, settled⟩ _ _ fired

omit [MediaStore σ] in
theorem steady_pacing : Scheduler.Steady (c.Pacing spent : Scheduler σ (Board κ ε) → Prop) where
  tell _ _ here := ⟨here.1.of_same (fun _ => rfl) rfl rfl rfl, here.2⟩
  stop _ _ here := ⟨here.1.of_same (fun _ => rfl) rfl rfl rfl, here.2⟩
  dispatching _ _ here := ⟨here.1.of_same (fun _ => rfl) rfl rfl rfl, here.2⟩
  settle _ here := here.1.settle
  rearm s here empty := by
    obtain ⟨_, _, _, waits, _⟩ := here.1.due
    exact absurd empty (queue_ne_nil_of_mem waits)

/-- A dispatch keeps the pace of the clock. If it ends well, the clock lies in the future. -/
theorem Paced.processEvent {pops : Nat} {result : Result} (here : c.Paced spent s)
    (due : s.agenda.interval.toInt ≤ 0) (ended : s.processEvent pops = some (result, t)) :
    c.Paced spent t ∧ (result = .ok () → t.agenda.Timely 1) := by
  refine ⟨?_, ?_⟩
  · by_cases asked : s.stop = true
    · rw [(Scheduler.processEvent_of_stop asked pops).1] at ended
      cases ended
      exact here.of_same (fun _ => rfl) rfl rfl rfl
    · exact (Scheduler.processEvent_round (P := fun _ => c.Pacing spent) (fun _ => steady_pacing)
        (fun _ _ _ _ _ _ _ pacing soon popped fired => pacing.fire soon popped fired) here.settle due
        (Bool.not_eq_true _ ▸ asked) ended).1
  · rintro rfl
    exact (undisturbed_iff.1 here.toUndisturbed).ahead license_timeless due ended

/-! ## Idle runs -/

/-- The clock is due in the period that runs, which is not the first tick of it. -/
structure Counts (c : LineClock) (spent : Int) (s : Scheduler σ (Board κ ε)) : Prop where
  due : ∃ (count : Nat) (r : Int), s.world.clocks[c.record]? = some count ∧ 0 ≤ r ∧ r < c.cadence ∧
    r + spent = (count + 1) * c.cadence

omit [MediaStore σ] in
theorem Paced.consume (here : c.Paced spent s) (timely : s.agenda.Timely 1) :
    c.Paced (spent + 1) (s.consume 1) ∧ c.Counts (spent + 1) (s.consume 1) := by
  obtain ⟨count, r, counted, waits, sum, most⟩ := here.due
  have undisturbed := (undisturbed_iff.1 here.toUndisturbed).consume timely
  have moved := Scheduler.nears_deadline timely waits
  have least := undisturbed.least moved
  exact ⟨⟨undisturbed_iff.2 undisturbed, count, r - 1, counted, moved, by omega, by omega⟩,
    count, r - 1, counted, by omega, by omega, by omega⟩

theorem Paced.slotOf {pops : Nat} (here : c.Paced spent s)
    (ended : Machine.slotOf pops (.done (.ok ())) s = some (.ok (), t)) :
    c.Paced spent t ∧ t.agenda.Timely 1 := by
  unfold Machine.slotOf at ended
  split at ended
  · rename_i due
    split at ended
    · cases ended
    · cases ended
    · rename_i dispatched
      cases ended
      obtain ⟨paced, future⟩ := here.processEvent (Int32.le_iff_toInt_le.1 due) dispatched
      exact ⟨paced, future rfl⟩
  · rename_i ahead
    cases ended
    rw [Int32.le_iff_toInt_le, Int.not_le] at ahead
    exact ⟨here, { here.timely with soonest := fun _ => ahead }⟩

/-- After a number of idle slots the clock is where as many ticks have brought it. -/
theorem Paced.runSlots {pops slots ticks last : Nat} (here : c.Paced spent s)
    (ended : Machine.runSlots pops (.done (.ok ())) (slots + 1) ticks s = some (.exhausted, last, t)) :
    c.Counts (spent + (slots + 1 : Nat)) t := by
  induction slots generalizing s ticks spent with
  | zero =>
    rw [Machine.runSlots] at ended
    split at ended
    · cases ended
    · cases ended
    · rename_i slot
      cases ended
      obtain ⟨paced, timely⟩ := here.slotOf slot
      exact (paced.consume timely).2
  | succ slots ih =>
    rw [Machine.runSlots] at ended
    split at ended
    · cases ended
    · cases ended
    · rename_i slot
      obtain ⟨paced, timely⟩ := here.slotOf slot
      have more := ih (paced.consume timely).1 ended
      have sum : spent + 1 + (slots + 1 : Nat) = spent + (slots + 1 + 1 : Nat) := by omega
      rwa [sum] at more

omit [MediaStore σ] in
theorem Counts.count_eq (here : c.Counts spent s) :
    1 ≤ c.period.toInt ∧ (s.world.clock c.record : Int) = (spent - 1) / c.period.toInt := by
  obtain ⟨count, r, counted, least, most, sum⟩ := here.due
  have cadence : c.cadence = c.period.toInt := by
    simp only [LineClock.cadence] at most ⊢
    omega
  have same : s.world.clock c.record = count := by
    rw [Board.clock, Array.getD_eq_getD_getElem?, counted]
    rfl
  rw [cadence] at most sum
  refine ⟨by omega, ?_⟩
  have whole : spent - 1 = c.period.toInt - 1 - r + count * c.period.toInt := by
    rw [Int.add_mul] at sum
    omega
  rw [same, whole, Int.add_mul_ediv_right _ _ (by omega), Int.ediv_eq_zero_of_lt (by omega) (by omega),
    Int.zero_add]

end LineClock

/-! ## Machines that are built -/

namespace LineClock

variable {c : LineClock} {s t : Scheduler σ (Board κ ε)}

/-- The clock is installed and not booked yet. -/
structure Unset (c : LineClock) (s : Scheduler σ (Board κ ε)) : Prop extends c.Undisturbed s where
  counted : ∃ count, s.world.clocks[c.record]? = some count
  idle : c.unit ∉ s.agenda.units

variable [MediaStore σ]

theorem custody_unset : Scheduler.Custody (c.Unset : Scheduler σ (Board κ ε) → Prop) := by
  intro s k custodial here
  have quiet : k.Passive ∧ k.Spares c.unit ∧ s.changesOf k = [] := by
    cases k with
    | attach | detach | tell => exact ⟨trivial, trivial, rfl⟩
    | _ => exact custodial.elim
  refine ⟨(here.toUndisturbed.perform quiet.1 quiet.2.1).1, ?_, ?_⟩
  · rw [here.toUndisturbed.clocks_perform]
    exact here.counted
  · rw [Scheduler.agenda_perform, quiet.2.2]
    exact here.idle

theorem Unset.reset (here : c.Unset s) (enabled : c.enabled = true) {pops : Nat} {result : Result}
    (ended : (c.reset .done).run pops s = some (result, t)) : c.Pacing 0 t := by
  obtain ⟨count, counted⟩ := here.counted
  have still : s.cancel c.unit = s := by
    unfold Scheduler.cancel Scheduler.unqueue
    rw [(here.bare c.unit _ license_unit).1]
    exact if_neg fun active => here.idle (Scheduler.isActive_iff.1 active)
  let cleared : Scheduler σ (Board κ ε) := { s with world := s.world.modifyClock c.record fun _ => 0 }
  rw [Program.run, exec_reset, enabled, if_pos rfl, still] at ended
  have same : ((cleared.tell (.clockPeriod c.period)).activate c.unit c.period).2 = t :=
    congrArg (·.2) (Option.some.inj ended)
  have undisturbed : c.Undisturbed (cleared.tell (.clockPeriod c.period)) :=
    here.toUndisturbed.of_same (fun _ => rfl) rfl rfl
  rw [← same]
  refine undisturbed.book (?_ : _ = some 0) here.idle (Int.zero_mul _).symm
  show (s.world.clocks.modify c.record fun _ => 0)[c.record]? = _
  rw [Array.getElem?_modify, if_pos rfl, counted]
  rfl

end LineClock

theorem Peripherals.licensed (d : Description) :
    (plan d).disk.Licensed ((plan d).clock.license : License (Board κ ε)) ∧
      (plan d).terminal.Licensed ((plan d).clock.license : License (Board κ ε)) := by
  refine ⟨⟨fun u drive => LineClock.license_none.2 ?_, fun f b => rfl⟩,
    ⟨LineClock.license_none.2 ?_, LineClock.license_none.2 ?_, fun f kept b => ?_⟩⟩
  · rintro rfl
    simp [plan, LineClock.plan, SectorDisk.plan] at drive
  · simp [plan, LineClock.plan, Terminal.plan]
  · simp [plan, LineClock.plan, Terminal.plan]
  · obtain ⟨terminals, console, same⟩ := kept b
    rw [same]

namespace Machine

variable [MediaStore σ] [Console κ] {d : Description} {console : κ} {extra : ε}
variable {m m' : Machine σ (Board κ ε)} {pops : Nat}

omit [MediaStore σ] in
theorem Assembled.unset (assembled : m.Assembled d console extra) :
    (Peripherals.plan d).clock.Unset m.scheduler := by
  obtain ⟨disk, terminal⟩ := Peripherals.licensed (κ := κ) (ε := ε) d
  have idle : m.scheduler.agenda.queue = [] := by rw [assembled.agenda]; rfl
  have staffed : m.scheduler.Staffed (Peripherals.plan d).clock.license := by
    refine assembled.staffed (fun u p there => ?_) fun u p other there => ?_
    · obtain ⟨rfl, rfl⟩ := LineClock.license_some.1 there
      exact ⟨Nat.lt_of_lt_of_le (Nat.zero_lt_succ 2) (Nat.le_add_right _ _), rfl⟩
    · rw [Peripherals.actionOf, if_neg (show u ≠ 0 from LineClock.license_none.1 other)] at there
      split at there
      · exact Option.some.inj there ▸ terminal.poll_within
      · split at there
        · exact Option.some.inj there ▸ terminal.display_within
        · cases there
  refine ⟨⟨staffed, ?_, ?_⟩, ⟨0, ?_⟩, ?_⟩
  · rw [Agenda.units, idle]
    exact List.nodup_nil
  · exact timely_of_empty idle
  · rw [assembled.world]
    rfl
  · rw [Agenda.units, idle]
    exact List.not_mem_nil

omit [Console κ] in
theorem resetAll_paced (enabled : d.clock.enabled = true)
    (devices : m.registry.devices = #[(Peripherals.plan d).clock.device, (Peripherals.plan d).disk.device,
      (Peripherals.plan d).terminal.device])
    (here : (Peripherals.plan d).clock.Unset m.scheduler)
    (reset : m.resetAll pops = some (.ok (), m')) :
    (Peripherals.plan d).clock.Pacing 0 m'.scheduler ∧ m'.registry = m.registry := by
  obtain ⟨disk, terminal⟩ := Peripherals.licensed (κ := κ) (ε := ε) d
  obtain ⟨⟨result, t⟩, ended, same⟩ := Option.map_eq_some_iff.1 reset
  cases same
  rw [Registry.resetAll, devices, Registry.resetEach] at ended
  split at ended
  · cases ended
  · cases ended
  · rename_i s first
    refine ⟨?_, rfl⟩
    refine Registry.resetEach_keeps _ (List.forall_mem_cons.2 ⟨?_, List.forall_mem_singleton.2 ?_⟩) s
      (here.reset enabled first) _ _ ended
    · exact disk.reset_within.keeps LineClock.bears_pacing _
    · exact terminal.reset_within.keeps LineClock.bears_pacing _

theorem Assembled.equip_paced (assembled : m.Assembled d console extra) (enabled : d.clock.enabled = true)
    (equipped : m.equip pops d = some (.ok (), m')) :
    (Peripherals.plan d).clock.Paced 0 m'.scheduler := by
  obtain ⟨before, after, same, reset, rest⟩ := equip_cases equipped
  have attached := attachEach_keeps LineClock.custody_unset d.attach assembled.unset
  rw [same] at attached
  have devices := (congrArg Registry.devices attached.2).trans assembled.devices
  have paced := resetAll_paced enabled devices attached.1 reset
  rcases rest with rfl | ⟨device, booted⟩
  · exact paced.1.1
  · obtain ⟨disk, -⟩ := Peripherals.licensed (κ := κ) (ε := ε) d
    refine (boot_keeps (fun device there u => ?_) paced.1 booted).1.1
    rw [paced.2, devices] at there
    exact (Peripherals.boots_within disk device there u).keeps LineClock.bears_pacing _

/-- On every machine that is built from a description with a clock, the clock starts a period ahead. -/
theorem built_paced {media : σ} {journal : Journal} {p : Peripherals} (enabled : d.clock.enabled = true)
    (built : build pops d media console extra journal = some (.ok p, m)) :
    p.clock.Paced 0 m.scheduler := by
  obtain ⟨-, rfl, bare, ended, equipped⟩ := build_cases built
  exact (assembled_of_assemble ended).equip_paced enabled equipped

end Machine

/-- Whatever else goes on in a machine that was built from a description with a clock: once it has idled
for a budget of ticks, its clock has counted as many interrupts as whole periods lie between the first and
the last of them. -/
theorem clock_never_drifts [MediaStore σ] [Console κ] {d : Description} {media : σ} {console : κ}
    {extra : ε} {journal : Journal} {p : Peripherals} {m m' : Machine σ (Board κ ε)}
    {pops pops' slots n : Nat} {report : RunReport}
    (built : Machine.build pops d media console extra journal = some (.ok p, m))
    (enabled : d.clock.enabled = true) (budget : 1 ≤ n)
    (ran : m.run pops' slots (.done (.ok ())) (some n) = some (.ok report, m'))
    (limit : report.reason = .tickLimit) :
    1 ≤ p.clock.period.toInt ∧
      (m'.scheduler.world.clock p.clock.record : Int) = ((n : Int) - 1) / p.clock.period.toInt := by
  have paced := Machine.built_paced enabled built
  obtain ⟨pause, ticks, t, ended, same⟩ := Machine.run_cases ran
  obtain ⟨slots, rfl⟩ := Nat.exists_eq_add_of_le' budget
  obtain ⟨told, left⟩ := Prod.mk.inj same
  cases Machine.exhausted_of_report told.symm limit
  have counts := paced.runSlots ended
  rw [Int.zero_add] at counts
  rw [left]
  exact counts.count_eq

/-- A clock with a period of 7 ticks counts 3 interrupts in 28 ticks and 4 in 29: the fourth is due after
28 ticks, and is counted at the beginning of the next one. The keyboard is looked at in the same ticks, and
a transfer is handed over in one of them. -/
theorem clock_counts_whole_periods :
    ∃ (d : Description) (p : Peripherals) (m m' m'' : Machine MemoryImages (Board Headless Unit))
      (r r' : RunReport),
      Machine.build 99 d ⟨[("A", Bytes.zeros 1024)], []⟩ (Headless.withInput []) () (.empty none) =
        some (.ok p, m) ∧
      d.clock.enabled = true ∧ d.boot = some "DK" ∧ p.clock.period.toInt = 7 ∧
      m.run 99 0 (.done (.ok ())) (some 28) = some (.ok r, m') ∧ r.reason = .tickLimit ∧
      m'.scheduler.world.clock p.clock.record = 3 ∧
      m.run 99 0 (.done (.ok ())) (some 29) = some (.ok r', m'') ∧ r'.reason = .tickLimit ∧
      m''.scheduler.world.clock p.clock.record = 4 := by
  let d : Description :=
    { time := { tickRate := 420 }, disk := { latency := 50000 }, terminal := { pollTicks := 7 }
      attach := [{ device := "DK", path := "A" }], boot := some "DK" }
  let built : Option (Except Status Peripherals × Machine MemoryImages (Board Headless Unit)) :=
    Machine.build 99 d ⟨[("A", Bytes.zeros 1024)], []⟩ (Headless.withInput []) () (.empty none)
  have period : (Peripherals.plan d).clock.period.toInt = 7 := by decide +kernel
  have builds : built.map (·.1) = some (.ok (Peripherals.plan d)) := by decide +kernel
  have runs : ∀ n ∈ [28, 29], (built.bind fun a => a.2.run 99 0 (.done (.ok ())) (some n)).map
      (fun a => a.1.map RunReport.reason) = some (.ok .tickLimit) := by decide +kernel
  obtain ⟨⟨_, m⟩, ended, rfl⟩ := Option.map_eq_some_iff.1 builds
  rw [ended] at runs
  have course : ∀ n ∈ [28, 29], ∃ r m', m.run 99 0 (.done (.ok ())) (some n) = some (.ok r, m') ∧
      r.reason = .tickLimit ∧ (m'.scheduler.world.clock (Peripherals.plan d).clock.record : Int) =
        ((n : Int) - 1) / 7 := by
    intro n there
    obtain ⟨⟨report, m'⟩, ran, told⟩ := Option.map_eq_some_iff.1 (runs n there)
    cases report with
    | error status => cases told
    | ok r =>
      have limit : r.reason = .tickLimit := Except.ok.inj told
      have least : 1 ≤ n := by
        simp only [List.mem_cons, List.not_mem_nil, or_false] at there
        omega
      have counts := (clock_never_drifts ended rfl least ran limit).2
      rw [period] at counts
      exact ⟨r, m', ran, limit, counts⟩
  obtain ⟨r, m', ran, limit, counts⟩ := course 28 (by decide)
  obtain ⟨r', m'', ran', limit', counts'⟩ := course 29 (by decide)
  exact ⟨d, _, m, m', m'', r, r', ended, rfl, rfl, period, ran, limit, by omega, ran', limit', by omega⟩

end Peripheral
