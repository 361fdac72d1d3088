import Mathlib.Data.List.Forall2
import Peripheral.Machine.Build
import Peripheral.Proofs.Likeness

/-!
# Machines that are alike

Devices whose resets and boots are alike make for machines that are alike. Whatever is done with such
machines has the same answers and leaves them alike.

* `Device.Like R`, `Machine.Alike R` : devices and machines that are alike;
* `register_alike`, `attach_alike`, `detach_alike`, `detachAll_alike` : operations that end in any case;
* `resetAll_alike`, `boot_alike`, `run_alike`, `equip_alike` : operations that run programs.
-/

namespace Peripheral

variable {σ ω ω' : Type}

/-- Devices of one name and with the same units, whose resets and boots are alike. -/
structure Device.Like (R : ω → ω' → Prop) (device : Device ω) (device' : Device ω') :
    Prop where
  name : device.name = device'.name
  units : device.units = device'.units
  reset : Program.Like R device.reset device'.reset
  boot : ∀ u, Program.Like R (device.boot u) (device'.boot u)

/-! ## Machines -/

variable {R : ω → ω' → Prop}

/-- Schedulers that are alike, with devices that are alike in the same order. -/
structure Machine.Alike (R : ω → ω' → Prop) (m : Machine σ ω) (m' : Machine σ ω') : Prop where
  scheduler : m.scheduler.Alike R m'.scheduler
  devices : List.Forall₂ (Device.Like R) m.registry.devices.toList m'.registry.devices.toList

structure Machine.EndsAlike {α : Type} (R : ω → ω' → Prop) (a : α × Machine σ ω)
    (b : α × Machine σ ω') : Prop where
  answer : a.1 = b.1
  alike : a.2.Alike R b.2

namespace Registry

variable {r : Registry ω} {r' : Registry ω'}

theorem findId_alike (likes : List.Forall₂ (Device.Like R) r.devices.toList r'.devices.toList)
    (name : String) : r.findId? name = r'.findId? name := by
  unfold findId?
  generalize r.devices.toList = devices, r'.devices.toList = devices' at likes ⊢
  induction likes with
  | nil => rfl
  | cons like _ ih => rw [List.findIdx?_cons, List.findIdx?_cons, like.name, ih]

theorem find_alike (likes : List.Forall₂ (Device.Like R) r.devices.toList r'.devices.toList)
    (name : String) : Option.Rel (Device.Like R) (r.find? name) (r'.find? name) := by
  unfold find?
  rw [findId_alike likes]
  cases r'.findId? name with
  | none => exact .none
  | some id =>
    simp only [Option.bind_some, ← Array.getElem?_toList]
    generalize r.devices.toList = devices, r'.devices.toList = devices' at likes ⊢
    induction likes generalizing id with
    | nil => exact .none
    | cons like _ ih =>
      cases id with
      | zero => exact .some like
      | succ id => exact ih id

theorem setOwner_alike (id : Nat) (units : List UnitId) {s : Scheduler σ ω} {t : Scheduler σ ω'}
    (alike : s.Alike R t) : (setOwner id units s).Alike R (setOwner id units t) := by
  unfold setOwner
  induction units generalizing s t with
  | nil => exact alike
  | cons u units ih =>
    exact ih (alike.modifySlot (fun slot => { slot with owner := some id }) (by intro slot; rfl)
      (by intro slot; rfl) fun like => ⟨like.action, like.hook, like.parked⟩)

end Registry

namespace Machine

variable {m : Machine σ ω} {m' : Machine σ ω'}

theorem locate_alike (alike : m.Alike R m') (device : String) (unit : UInt64) :
    (∃ status, m.locate device unit = .error status ∧ m'.locate device unit = .error status) ∨
      ∃ d d' u, m.locate device unit = .ok (d, u) ∧ m'.locate device unit = .ok (d', u) ∧
        d.Like R d' := by
  unfold locate
  have found := Registry.find_alike alike.devices device
  generalize m.registry.find? device = d, m'.registry.find? device = d' at found ⊢
  cases found with
  | none => exact .inl ⟨_, rfl, rfl⟩
  | some like =>
    dsimp only
    rw [like.units]
    split
    · exact .inl ⟨_, rfl, rfl⟩
    · exact .inr ⟨_, _, _, rfl, rfl, like⟩

/-- What becomes of the scheduler becomes of the machine. -/
theorem Alike.afterwards {α : Type} (alike : m.Alike R m') {a : α × Scheduler σ ω}
    {b : α × Scheduler σ ω'} (ended : Scheduler.EndsAlike R a b) :
    EndsAlike R (m.afterwards a) (m'.afterwards b) :=
  ⟨ended.answer, ended.alike, alike.devices⟩

theorem Alike.map_afterwards {α : Type} (alike : m.Alike R m') {a : Option (α × Scheduler σ ω)}
    {b : Option (α × Scheduler σ ω')} (ended : Option.Rel (Scheduler.EndsAlike R) a b) :
    Option.Rel (EndsAlike R) (a.map m.afterwards) (b.map m'.afterwards) := by
  cases ended with
  | none => exact .none
  | some ended => exact .some (alike.afterwards ended)

theorem allUnits_alike (alike : m.Alike R m') : m.allUnits = m'.allUnits := by
  unfold allUnits
  have likes := alike.devices
  generalize m.registry.devices.toList = devices, m'.registry.devices.toList = devices' at likes ⊢
  induction likes with
  | nil => rfl
  | cons like _ ih => rw [List.flatMap_cons, List.flatMap_cons, like.units, ih]

theorem register_alike (alike : m.Alike R m') {device : Device ω} {device' : Device ω'}
    (like : device.Like R device') : EndsAlike R (m.register device) (m'.register device') := by
  unfold register Registry.register
  rw [Registry.findId_alike alike.devices, like.name]
  cases m'.registry.findId? device'.name with
  | some id => exact ⟨rfl, alike.scheduler.tell _, alike.devices⟩
  | none =>
    have size : m.registry.devices.size = m'.registry.devices.size := alike.devices.length_eq
    dsimp only
    rw [size, like.units]
    refine ⟨rfl, (Registry.setOwner_alike _ _ alike.scheduler).tell _, ?_⟩
    simp only [Array.toList_push]
    exact List.rel_append alike.devices (.cons like .nil)

variable [MediaStore σ]

theorem attach_alike (alike : m.Alike R m') (device : String) (unit : UInt64) (name : String) :
    EndsAlike R (m.attach device unit name) (m'.attach device unit name) := by
  unfold attach
  rcases locate_alike alike device unit with ⟨status, left, right⟩ | ⟨d, d', u, left, right, -⟩
  · rw [left, right]
    exact ⟨rfl, alike⟩
  · rw [left, right]
    dsimp only
    have attached : Scheduler.EndsAlike R (m.scheduler.attach u name) (m'.scheduler.attach u name) :=
      alike.scheduler.perform (.attach u name)
    generalize m.scheduler.attach u name = a, m'.scheduler.attach u name = b at attached ⊢
    obtain ⟨result, s⟩ := a
    obtain ⟨result', t⟩ := b
    obtain ⟨rfl, after⟩ := attached
    cases result with
    | error status => exact ⟨rfl, after, alike.devices⟩
    | ok =>
      dsimp only
      rw [after.nameOf u]
      exact ⟨rfl, after.tell _, alike.devices⟩

theorem detach_alike (alike : m.Alike R m') (device : String) (unit : UInt64) :
    EndsAlike R (m.detach device unit) (m'.detach device unit) := by
  unfold detach
  rcases locate_alike alike device unit with ⟨status, left, right⟩ | ⟨d, d', u, left, right, -⟩
  · rw [left, right]
    exact ⟨rfl, alike⟩
  · rw [left, right]
    exact alike.afterwards (alike.scheduler.perform (.detach u))

theorem detachEach_alike (units : List UnitId) (first : Result) {s : Scheduler σ ω}
    {t : Scheduler σ ω'} (alike : s.Alike R t) :
    Scheduler.EndsAlike R (detachEach units first s) (detachEach units first t) := by
  induction units generalizing first s t with
  | nil => exact ⟨rfl, alike⟩
  | cons u rest ih =>
    unfold detachEach
    have endpoint : (s.slot u).endpoint = (t.slot u).endpoint := congrArg Slot.endpoint (alike.slot u)
    rw [endpoint]
    split
    · have detached : Scheduler.EndsAlike R (s.detach u) (t.detach u) := alike.perform (.detach u)
      generalize s.detach u = a, t.detach u = b at detached ⊢
      obtain ⟨result, s⟩ := a
      obtain ⟨result', t⟩ := b
      obtain ⟨rfl, after⟩ := detached
      cases result with
      | ok => exact ih first after
      | error status =>
        dsimp only
        rw [after.nameOf u]
        exact ih _ (after.tell _)
    · exact ih first alike

theorem detachAll_alike (alike : m.Alike R m') : EndsAlike R m.detachAll m'.detachAll := by
  unfold detachAll
  rw [allUnits_alike alike]
  exact alike.afterwards (detachEach_alike _ _ alike.scheduler)

theorem resetEach_alike (pops : Nat) {devices : List (Device ω)} {devices' : List (Device ω')}
    (likes : List.Forall₂ (Device.Like R) devices devices') :
    Motion.Alike R (Registry.resetEach pops devices : Motion σ ω) (Registry.resetEach pops devices') := by
  induction likes with
  | nil => exact fun s t alike => .some ⟨rfl, alike⟩
  | cons like _ ih =>
    intro s t alike
    rw [Registry.resetEach, Registry.resetEach]
    rcases Scheduler.ends_alike (like.reset.run pops s t alike) with
      ⟨left, right⟩ | ⟨result, s', t', left, right, after⟩
    · rw [left, right]
      exact .none
    · rw [left, right]
      cases result with
      | error status => exact .some ⟨rfl, after⟩
      | ok => exact ih s' t' after

theorem resetAll_alike (alike : m.Alike R m') (pops : Nat) :
    Option.Rel (EndsAlike R) (m.resetAll pops) (m'.resetAll pops) :=
  alike.map_afterwards (resetEach_alike pops alike.devices _ _ alike.scheduler)

theorem boot_alike (alike : m.Alike R m') (pops : Nat) (device : String) (unit : UInt64) :
    Option.Rel (EndsAlike R) (m.boot pops device unit) (m'.boot pops device unit) := by
  unfold boot
  rcases locate_alike alike device unit with ⟨status, left, right⟩ | ⟨d, d', u, left, right, like⟩
  · rw [left, right]
    exact .some ⟨rfl, alike⟩
  · rw [left, right]
    exact alike.map_afterwards ((like.boot u).run pops _ _ alike.scheduler)

section
variable {instruction : Program ω} {instruction' : Program ω'}

theorem slotOf_alike (like : Program.Like R instruction instruction') (pops : Nat) :
    Motion.Alike R (slotOf pops instruction : Motion σ ω) (slotOf pops instruction') := by
  intro s t alike
  rw [slotOf, slotOf, alike.agenda]
  split
  · rcases Scheduler.ends_alike (Scheduler.processEvent_alike pops s t alike) with
      ⟨left, right⟩ | ⟨result, s', t', left, right, after⟩
    · rw [left, right]
      exact .none
    · rw [left, right]
      cases result with
      | error status => exact .some ⟨rfl, after⟩
      | ok => exact like.run pops s' t' after
  · exact like.run pops s t alike

theorem runSlots_alike (like : Program.Like R instruction instruction') (pops slots ticks : Nat)
    {s : Scheduler σ ω} {t : Scheduler σ ω'} (alike : s.Alike R t) :
    (runSlots pops instruction slots ticks s = none ∧ runSlots pops instruction' slots ticks t = none) ∨
      ∃ pause ticks' s' t', runSlots pops instruction slots ticks s = some (pause, ticks', s') ∧
        runSlots pops instruction' slots ticks t = some (pause, ticks', t') ∧ s'.Alike R t' := by
  induction slots generalizing ticks s t with
  | zero => exact .inr ⟨_, _, s, t, rfl, rfl, alike⟩
  | succ slots ih =>
    rw [runSlots, runSlots]
    rcases Scheduler.ends_alike (slotOf_alike like pops s t alike) with
      ⟨left, right⟩ | ⟨result, s', t', left, right, after⟩
    · rw [left, right]
      exact .inl ⟨rfl, rfl⟩
    · rw [left, right]
      cases result with
      | error status => exact .inr ⟨_, _, s', t', rfl, rfl, after⟩
      | ok => exact ih (ticks + 1) (after.perform (.consume 1)).alike

omit [MediaStore σ] in
theorem report_alike {s : Scheduler σ ω} {t : Scheduler σ ω'} (alike : s.Alike R t) (ticks : Nat)
    (pause : Pause) : Scheduler.EndsAlike R (report ticks s pause) (report ticks t pause) := by
  cases pause with
  | exhausted =>
    unfold report
    rw [alike.agenda]
    exact ⟨rfl, alike⟩
  | ended status =>
    unfold report
    dsimp only
    split
    · refine ⟨?_, alike.tell _⟩
      show Except.ok _ = Except.ok _
      rw [show (s.tell _).agenda = (t.tell _).agenda from alike.agenda]
    · exact ⟨rfl, alike⟩

theorem run_alike (alike : m.Alike R m') (like : Program.Like R instruction instruction')
    (pops slots : Nat) (budget : Option Nat) :
    Option.Rel (EndsAlike R) (m.run pops slots instruction budget)
      (m'.run pops slots instruction' budget) := by
  unfold run
  rcases runSlots_alike like pops (budget.getD slots) 0 alike.scheduler with
    ⟨left, right⟩ | ⟨pause, ticks, s, t, left, right, after⟩
  · rw [left, right]
    exact .none
  · rw [left, right]
    dsimp only
    split
    · exact .none
    · exact .some (alike.afterwards (report_alike after ticks pause))

end

/-! ## Equipping -/

theorem attachEach_alike (entries : List AttachEntry) (alike : m.Alike R m') :
    EndsAlike R (attachEach entries m) (attachEach entries m') := by
  induction entries generalizing m m' with
  | nil => exact ⟨rfl, alike⟩
  | cons entry rest ih =>
    unfold attachEach
    have attached := attach_alike alike entry.device entry.unit entry.path
    generalize m.attach entry.device entry.unit entry.path = a,
      m'.attach entry.device entry.unit entry.path = b at attached ⊢
    obtain ⟨result, n⟩ := a
    obtain ⟨result', n'⟩ := b
    obtain ⟨rfl, after⟩ := attached
    cases result with
    | error status => exact ⟨rfl, after⟩
    | ok => exact ih after

theorem equip_alike (alike : m.Alike R m') (pops : Nat) (settings : Description) :
    Option.Rel (EndsAlike R) (m.equip pops settings) (m'.equip pops settings) := by
  unfold equip
  have attached := attachEach_alike settings.attach alike
  generalize attachEach settings.attach m = a, attachEach settings.attach m' = b at attached ⊢
  obtain ⟨result, n⟩ := a
  obtain ⟨result', n'⟩ := b
  obtain ⟨rfl, after⟩ := attached
  cases result with
  | error status => exact .some ⟨rfl, after⟩
  | ok =>
    dsimp only
    have reset := resetAll_alike after pops
    generalize n.resetAll pops = a, n'.resetAll pops = b at reset ⊢
    cases reset with
    | none => exact .none
    | @some a b reset =>
      obtain ⟨result, l⟩ := a
      obtain ⟨result', l'⟩ := b
      obtain ⟨rfl, after⟩ := reset
      cases result with
      | error status => exact .some ⟨rfl, after⟩
      | ok =>
        cases settings.boot with
        | none => exact .some ⟨rfl, after⟩
        | some device => exact boot_alike after pops device 0

end Machine

end Peripheral
