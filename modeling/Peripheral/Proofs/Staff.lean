import Peripheral.Proofs.Passive
import Peripheral.Proofs.Submission
import Peripheral.Simulation.Pops

/-!
# Units that belong to a device

A device runs a few units of its own: each has an action that does the work, no cancel hook, no parked
transfer and no delay. A license says what programs around the device may do. As long as they keep to it,
its units stay as they are, also through their own firings.

* `Call.Spares u` : the call neither schedules nor cancels a unit (`delay_perform`);
* `License`, `Program.Within` : the units of a device and what is permitted around them;
* `Scheduler.Staffed` : the units are as the device left them, all other callbacks keep to the license
  (`Staffed.perform`, `Staffed.modifySlot`);
* `Staffed.acts` : **a unit of the device that fires runs its action**, with the action out of it meanwhile;
* `slot_restored`, `Staffed.fire_staff` : once the action is back, the unit is as it was;
* `License.Bears`, `Within.keeps`, `Bears.fire_others` : **what each permitted step leaves standing, so does
  every permitted program**, and any other unit that fires;
* `Bears.dispatch_keeps`, `bears_keeping`, `Bears.world_kept` : dispatches, and what is said of the world.
-/

namespace Peripheral

variable {σ ω : Type}

/-- A call that neither schedules nor cancels a unit. -/
def Call.Spares (u : UnitId) : Call → Prop
  | .activate v _ | .activateAfter v _ | .cancel v => v ≠ u
  | _ => True

namespace Scheduler

section
variable {u v : UnitId} {s t : Scheduler σ ω}

theorem mem_units_spared [MediaStore σ] {c : Call} (spares : c.Spares u)
    (pending : u ∈ s.agenda.units) : u ∈ (s.perform c).2.agenda.units :=
  mem_units_perform pending (by rintro rfl; exact spares rfl)

theorem mem_units_activate_of_mem (v : UnitId) (ticks : Int32) (pending : u ∈ s.agenda.units) :
    u ∈ (s.activate v ticks).2.agenda.units := by
  by_cases active : v ∈ s.agenda.units
  · rwa [activate_pending active]
  · obtain ⟨before, after, split, placed⟩ := s.agenda.units_insert v ticks
    rw [(activate_idle ticks active).2, placed]
    rw [split, List.mem_append] at pending
    exact List.mem_append.2 (pending.imp_right (List.mem_cons_of_mem v))

theorem delay_perform [MediaStore σ] {c : Call} (spares : c.Spares u) :
    ((s.perform c).2.slot u).delay = (s.slot u).delay := by
  cases c with
  | activate w ticks => exact congrArg Slot.delay (slot_activate w u ticks s)
  | activateAfter w usecs =>
    dsimp only [perform]
    rw [slot_activateAfter, if_neg fun all => spares all.1]
  | cancel w => exact congrArg Slot.delay (slot_cancel_of_ne spares)
  | addUnit e =>
    dsimp only [perform]
    rw [slot_addUnit]
    split
    · rename_i new
      rw [slot_of_size_le (Nat.le_of_eq new.symm)]
      rfl
    · rfl
  | setPosition w offset => exact field_modifySlot Slot.delay w u _ s (by intro slot; rfl)
  | setCapacity w bytes => exact field_modifySlot Slot.delay w u _ s (by intro slot; rfl)
  | attach w name => exact field_modifySlot Slot.delay w u _ { s with media := _ } (by intro slot; rfl)
  | detach w => exact field_modifySlot Slot.delay w u _ { s with media := _ } (by intro slot; rfl)
  | write w offset data =>
    exact field_modifySlot Slot.delay w u _ { s with media := _ } (by intro slot; rfl)
  | transfer w sectorSize request =>
    exact field_modifySlot Slot.delay w u _ { s with media := _ } (by intro slot; rfl)
  | _ => rfl

theorem slot_restored {action : Program ω} (there : (s.slot u).action = some action)
    (same : ∀ v, t.slot v = (s.modifySlot u fun slot => { slot with action := none }).slot v)
    (size : t.slots.size = s.slots.size) (v : UnitId) :
    (t.modifySlot u fun slot => { slot with action := slot.action.or (some action) }).slot v =
      s.slot v := by
  rw [slot_modifySlot, same, slot_modifySlot, size]
  split
  · rename_i both
    obtain ⟨rfl, -⟩ := both
    dsimp only
    rw [Option.none_or, ← there]
  · rfl

end

end Scheduler

/-! ## Licenses -/

/-- What programs may do around the units of a device. -/
structure License (ω : Type) where
  /-- The units of the device, and what each of them does when it fires. -/
  staff : UnitId → Option (Program ω)
  calls : Call → Prop
  changes : (ω → ω) → Prop
  /-- What takes several steps and is permitted as a whole only. -/
  deeds : {α : Type} → Act ω α → Prop
  passive : ∀ c, c.Passive → calls c

def License.Spares (l : License ω) (c : Call) : Prop := ∀ u p, l.staff u = some p → c.Spares u

/-- The program and all callbacks that it installs keep to a license. They leave the units of the device
alone and do not dispatch. -/
inductive Program.Within (l : License ω) : Program ω → Prop
  | done (result : Result) : Within l (.done result)
  | call {c : Call} {next : c.Answer → Program ω} :
    l.calls c → l.Spares c → (∀ answer, Within l (next answer)) → Within l (.call c next)
  | look {next : ω → Program ω} : (∀ w, Within l (next w)) → Within l (.look next)
  | change {f : ω → ω} {next : Program ω} : l.changes f → Within l next → Within l (.change f next)
  | setAction {u : UnitId} {action next : Program ω} :
    l.staff u = none → Within l action → Within l next → Within l (.setAction u action next)
  | setHook {u : UnitId} {hook : Hook ω} {next : Program ω} :
    l.staff u = none → l.changes (fun w => (hook w).2) → Within l next → Within l (.setHook u hook next)
  | park {u : UnitId} {delay : Float} {outcome : Outcome} {deliver : Outcome → Program ω}
      {next : Program ω} :
    l.staff u = none → (∀ outcome, Within l (deliver outcome)) → Within l next →
      Within l (.park u delay outcome deliver next)
  | deed {α : Type} {m : Act ω α} {next : α → Program ω} :
    l.deeds m → (∀ a, Within l (next a)) → Within l (m next)
  | inline {p : Program ω} {next : Result → Program ω} :
    Within l p → (∀ result, Within l (next result)) → Within l (Act.inline p next)

section
variable {l : License ω} {next : Unit → Program ω}

theorem Program.Within.tell (message : Message) (rest : Within l (next ())) :
    Within l (Act.perform (.tell message) next) :=
  .call (l.passive _ trivial) (fun _ _ _ => trivial) fun _ => rest

def License.quiet (l : License ω) : License ω := { l with deeds := fun _ => False }

theorem Program.Within.of_quiet {p : Program ω} (within : p.Within l.quiet) : p.Within l := by
  induction within with
  | done result => exact .done result
  | call permitted spares _ ih => exact .call permitted spares ih
  | look _ ih => exact .look ih
  | change permitted _ ih => exact .change permitted ih
  | setAction other _ _ ih ih' => exact .setAction other ih ih'
  | setHook other permitted _ ih => exact .setHook other permitted ih
  | park other _ _ ih ih' => exact .park other ih ih'
  | deed permitted => exact permitted.elim
  | inline _ _ ih ih' => exact .inline ih ih'

/-- A program that keeps to a license that permits passive calls only, and deeds that are made of them, is
passive. -/
theorem Program.Within.passive {p : Program ω} (within : p.Within l)
    (calls : ∀ c, l.calls c → c.Passive)
    (deeds : ∀ {α : Type} (m : Act ω α) next, l.deeds m → (∀ a, (next a).Passive) → (m next).Passive) :
    p.Passive := by
  induction within with
  | done result => trivial
  | call permitted _ _ ih => exact ⟨calls _ permitted, ih⟩
  | look _ ih => exact ih
  | change _ _ ih => exact ih
  | setAction _ _ _ ih ih' => exact ⟨ih, ih'⟩
  | setHook _ _ _ ih => exact ih
  | park _ _ _ ih ih' => exact ⟨ih, ih'⟩
  | deed permitted _ ih => exact deeds _ _ permitted ih
  | inline _ _ ih ih' => exact ih.inline ih'

theorem License.ne_of_staff {u v : UnitId} {p : Program ω} (other : l.staff u = none)
    (there : l.staff v = some p) : u ≠ v := by
  rintro rfl
  rw [other] at there
  cases there

end

namespace Scheduler

/-- The units of the device have their actions and nothing else. The callbacks of all other units keep to
the license. -/
structure Staffed (l : License ω) (s : Scheduler σ ω) : Prop where
  inside : ∀ u p, l.staff u = some p → u < s.slots.size
  action : ∀ u p, l.staff u = some p → (s.slot u).action = some p
  bare : ∀ u p, l.staff u = some p → (s.slot u).hook = none ∧ (s.slot u).parked = none ∧
    ¬(s.slot u).delay > 0
  others : ∀ u, l.staff u = none → (s.slot u).Carries (Program.Within l)
  hooks : ∀ u hook, (s.slot u).hook = some hook → l.changes fun w => (hook w).2

namespace Staffed

variable {l : License ω} {s t : Scheduler σ ω}

theorem keep (staffed : s.Staffed l) (size : s.slots.size ≤ t.slots.size)
    (callbacks : ∀ u, (t.slot u).callbacks = (s.slot u).callbacks)
    (delay : ∀ u p, l.staff u = some p → (t.slot u).delay = (s.slot u).delay) : t.Staffed l where
  inside u p there := Nat.lt_of_lt_of_le (staffed.inside u p there) size
  action u p there := (congrArg (·.1) (callbacks u)).trans (staffed.action u p there)
  bare u p there := by
    obtain ⟨hook, parked, waits⟩ := staffed.bare u p there
    refine ⟨(congrArg (·.2.1) (callbacks u)).trans hook, (congrArg (·.2.2) (callbacks u)).trans parked, ?_⟩
    rwa [delay u p there]
  others u other := (staffed.others u other).keep (callbacks u)
  hooks u hook there := staffed.hooks u hook ((congrArg (·.2.1) (callbacks u)).symm.trans there)

theorem of_slots (staffed : s.Staffed l) (same : ∀ u, t.slot u = s.slot u)
    (size : t.slots.size = s.slots.size) : t.Staffed l :=
  staffed.keep (Nat.le_of_eq size.symm) (fun u => by rw [same]) fun u _ _ => by rw [same]

theorem of_same_slots (staffed : s.Staffed l) (same : t.slots = s.slots) : t.Staffed l :=
  staffed.of_slots (slot_of_slots same) (by rw [same])

theorem modifySlot (staffed : s.Staffed l) {u : UnitId} (other : l.staff u = none)
    (f : Slot ω → Slot ω) (carries : (f (s.slot u)).Carries (Program.Within l))
    (hooks : ∀ hook, (f (s.slot u)).hook = some hook → l.changes fun w => (hook w).2) :
    (s.modifySlot u f).Staffed l := by
  have slots : ∀ v p, l.staff v = some p → (s.modifySlot u f).slot v = s.slot v := by
    intro v p there
    refine slot_modifySlot_of_ne ?_ f
    rintro rfl
    rw [other] at there
    cases there
  refine ⟨fun v p there => ?_, fun v p there => ?_, fun v p there => ?_, fun v free => ?_,
    fun v hook there => ?_⟩
  · rw [size_modifySlot]
    exact staffed.inside v p there
  · rw [slots v p there]
    exact staffed.action v p there
  · rw [slots v p there]
    exact staffed.bare v p there
  · rw [slot_modifySlot]
    split
    · rename_i both
      exact both.1 ▸ carries
    · exact staffed.others v free
  · rw [slot_modifySlot] at there
    split at there
    · rename_i both
      exact hooks hook (both.1 ▸ there)
    · exact staffed.hooks v hook there

variable [MediaStore σ]

theorem perform (staffed : s.Staffed l) {c : Call}
    (spares : ∀ u p, l.staff u = some p → c.Spares u) : (s.perform c).2.Staffed l :=
  staffed.keep (size_perform s c) (callbacks_perform s c) fun u p there => delay_perform (spares u p there)

theorem world_perform {α : Type} (staffed : s.Staffed l) {g : ω → α}
    (leaves : ∀ f, l.changes f → ∀ w, g (f w) = g w) (c : Call) :
    g (s.perform c).2.world = g s.world := by
  rw [Scheduler.world_perform]
  cases c with
  | cancel u =>
    dsimp only [asked]
    cases installed : (s.slot u).hook with
    | none => rfl
    | some hook => exact leaves _ (staffed.hooks u hook installed) s.world
  | _ => rfl

omit [MediaStore σ] in
/-- A cancellation leaves the units of the device as they are, even if it is one of them that is
cancelled. -/
theorem cancel (staffed : s.Staffed l) (v : UnitId) : (s.cancel v).Staffed l where
  inside u p there := by
    rw [size_cancel]
    exact staffed.inside u p there
  action u p there := (congrArg (·.1) (callbacks_cancel v u s)).trans (staffed.action u p there)
  bare u p there := by
    obtain ⟨hook, parked, due⟩ := staffed.bare u p there
    refine ⟨(congrArg (·.2.1) (callbacks_cancel v u s)).trans hook,
      (congrArg (·.2.2) (callbacks_cancel v u s)).trans parked, ?_⟩
    rw [slot_cancel]
    split
    · show ¬(0 : Float) > 0
      decide +kernel
    · exact due
  others u other := (staffed.others u other).keep (callbacks_cancel v u s)
  hooks u hook there := staffed.hooks u hook ((congrArg (·.2.1) (callbacks_cancel v u s)).symm.trans there)

omit [MediaStore σ] in
theorem world_cancel (staffed : s.Staffed l) {u : UnitId} {p : Program ω} (there : l.staff u = some p) :
    (s.cancel u).world = s.world := by
  rw [Scheduler.world_cancel, asked, (staffed.bare u p there).1]

omit [MediaStore σ] in
theorem of_quiet (staffed : s.Staffed l.quiet) : s.Staffed l where
  inside := staffed.inside
  action := staffed.action
  bare := staffed.bare
  others u other := by
    have slot := staffed.others u other
    exact ⟨fun p there => (slot.action p there).of_quiet,
      fun k there outcome => (slot.parked k there outcome).of_quiet⟩
  hooks := staffed.hooks

/-- A staff unit that fires runs its action, which is out of the unit meanwhile. -/
theorem acts (staffed : s.Staffed l) {dispatch : Motion σ ω} {u : UnitId} {p : Program ω}
    {result : Result} (there : l.staff u = some p) (fired : fire dispatch u s = some (result, t)) :
    ∃ name last, p.exec dispatch ((s.tell (.firing name)).modifySlot u
        fun slot => { slot with action := none }) = some (result, last) ∧
      t = last.modifySlot u fun slot => { slot with action := slot.action.or (some p) } := by
  have installed := staffed.action u p there
  obtain ⟨-, idle, due⟩ := staffed.bare u p there
  cases fired_of_fire fired with
  | waits waiting => exact absurd waiting due
  | handsOver _ parked => simp [idle] at parked
  | rests _ _ none => simp [installed] at none
  | acts _ _ action ran =>
    rw [installed] at action
    cases action
    exact ⟨_, _, ran, rfl⟩

/-- If the action of a staff unit leaves all units alone while it runs, they are as they were when it is
back. -/
theorem fire_staff (staffed : s.Staffed l) {dispatch : Motion σ ω} {u : UnitId} {p : Program ω}
    {result : Result} (there : l.staff u = some p)
    (keeps : ∀ b result last, p.exec dispatch b = some (result, last) →
      (∀ v, last.slot v = b.slot v) ∧ last.slots.size = b.slots.size)
    (fired : fire dispatch u s = some (result, t)) :
    ∃ b last, p.exec dispatch b = some (result, last) ∧ b.agenda = s.agenda ∧ b.world = s.world ∧
      t.agenda = last.agenda ∧ t.world = last.world ∧ (∀ v, t.slot v = s.slot v) ∧
      t.slots.size = s.slots.size := by
  obtain ⟨name, last, ran, rfl⟩ := staffed.acts there fired
  obtain ⟨slots, size⟩ := keeps _ _ _ ran
  have same_size : last.slots.size = s.slots.size := size.trans (size_modifySlot u _ (s.tell _))
  exact ⟨_, last, ran, rfl, rfl, rfl, rfl,
    slot_restored (s := s.tell (.firing name)) (staffed.action u p there) slots same_size,
    (size_modifySlot u _ last).trans same_size⟩

end Staffed

end Scheduler

namespace License

variable [MediaStore σ]

/-- What the units of a device and all that its license permits leave standing. -/
structure Bears (l : License ω) (I : Scheduler σ ω → Prop) : Prop where
  staffed : ∀ s, I s → s.Staffed l
  perform : ∀ s c, I s → l.calls c → l.Spares c → I (s.perform c).2
  change : ∀ s f, I s → l.changes f → I { s with world := f s.world }
  modifySlot : ∀ s u f, I s → l.staff u = none → (f (s.slot u)).Carries (Program.Within l) →
    (∀ hook, (f (s.slot u)).hook = some hook → l.changes fun w => (hook w).2) → I (s.modifySlot u f)
  deed : ∀ s {α : Type} (m : Act ω α), I s → l.deeds m → ∃ a t, I t ∧
    ∀ (dispatch : Motion σ ω) next, (m next).exec dispatch s = (next a).exec dispatch t

variable {l : License ω} {I : Scheduler σ ω → Prop}

theorem Bears.tell (bears : l.Bears I) {s : Scheduler σ ω} (holds : I s) (m : Message) : I (s.tell m) :=
  bears.perform s (.tell m) holds (l.passive _ trivial) fun _ _ _ => trivial

end License

variable [MediaStore σ] {l : License ω} {I : Scheduler σ ω → Prop}

/-- What each permitted step leaves standing, a permitted program does. -/
theorem Program.Within.keeps {p : Program ω} (within : p.Within l) (bears : l.Bears I)
    (dispatch : Motion σ ω) : Motion.Keeps I (p.exec dispatch) := by
  induction within with
  | done result =>
    rintro s holds _ _ ⟨⟩
    exact holds
  | call permitted spares _ ih =>
    exact fun s holds result t ended => ih _ _ (bears.perform s _ holds permitted spares) result t ended
  | look _ ih => exact fun s holds result t ended => ih s.world s holds result t ended
  | change permitted _ ih =>
    exact fun s holds result t ended => ih _ (bears.change s _ holds permitted) result t ended
  | @setAction u action _ other meets _ _ ih =>
    intro s holds result t ended
    have staffed := bears.staffed s holds
    have changed := bears.modifySlot s u (fun slot => { slot with action := some action }) holds other
      ⟨fun p there => Option.some.inj there ▸ meets, (staffed.others u other).parked⟩ (staffed.hooks u)
    exact ih _ changed result t ended
  | @setHook u hook _ other permitted _ ih =>
    intro s holds result t ended
    have slot := (bears.staffed s holds).others u other
    have changed := bears.modifySlot s u (fun slot => { slot with hook := some hook }) holds other
      ⟨slot.action, slot.parked⟩ fun hook there => Option.some.inj there ▸ permitted
    exact ih _ changed result t ended
  | @park u delay outcome deliver _ other meets _ _ ih =>
    intro s holds result t ended
    have staffed := bears.staffed s holds
    have changed := bears.modifySlot s u
      (fun slot => { slot with delay, parked := some ⟨outcome, deliver⟩ }) holds other
      ⟨(staffed.others u other).action, fun k there => Option.some.inj there ▸ meets⟩ (staffed.hooks u)
    exact ih _ changed result t ended
  | deed permitted _ ih =>
    intro s holds result t ended
    obtain ⟨a, after, kept, same⟩ := bears.deed s _ holds permitted
    rw [same] at ended
    exact ih a after kept result t ended
  | inline _ _ ih ih' =>
    intro s holds result t ended
    rw [Program.exec_inline] at ended
    split at ended
    · cases ended
    · rename_i first
      exact ih' _ _ (ih s holds _ _ first) result t ended

theorem License.Bears.fire_others (bears : l.Bears I) {u : UnitId} (other : l.staff u = none)
    (dispatch : Motion σ ω) : Motion.Keeps I (Scheduler.fire dispatch u) := by
  intro s holds result t fired
  have slot := (bears.staffed s holds).others u other
  have hooks := (bears.staffed s holds).hooks u
  cases Scheduler.fired_of_fire fired with
  | waits =>
    exact bears.perform _ (.activateAfter u _) (bears.modifySlot _ u _ (bears.tell holds _) other
      ⟨slot.action, slot.parked⟩ hooks) (l.passive _ trivial) fun v p there => ne_of_staff other there
  | @handsOver k _ _ _ parked ran =>
    have taken := bears.modifySlot _ u (fun slot => { slot with parked := none })
      (bears.tell holds (.completing (s.slot u).endpoint.name)) other ⟨slot.action, nofun⟩ hooks
    exact (slot.parked k parked k.outcome).keeps bears dispatch _ taken _ _ ran
  | rests => exact bears.tell holds _
  | @acts action _ last _ _ installed ran =>
    have meets := slot.action action installed
    have taken := bears.modifySlot _ u (fun slot => { slot with action := none })
      (bears.tell holds (.firing (s.slot u).endpoint.name)) other ⟨nofun, slot.parked⟩ hooks
    have ended := meets.keeps bears dispatch _ taken _ _ ran
    have after := (bears.staffed _ ended).others u other
    refine bears.modifySlot last u _ ended other ⟨fun q there => ?_, after.parked⟩
      ((bears.staffed _ ended).hooks u)
    cases replaced : (last.slot u).action with
    | none =>
      rw [replaced] at there
      exact Option.some.inj there ▸ meets
    | some r =>
      rw [replaced] at there
      exact Option.some.inj there ▸ after.action r replaced

/-- What stays with the units of a device and outside the queue is left standing by dispatches, if each of
these units leaves it standing when it fires. -/
theorem License.Bears.dispatch_keeps (bears : l.Bears I) (steady : Scheduler.Steady I)
    (requeue : ∀ s agenda, I s → I { s with agenda })
    (staff : ∀ (dispatch : Motion σ ω) u p, l.staff u = some p → Motion.Keeps I (Scheduler.fire dispatch u))
    (pops : Nat) : Motion.Keeps I (Scheduler.processEvent pops : Motion σ ω) := by
  refine Scheduler.process_keeps steady (fun _ => id) (fun s => steady.stop s false) steady.settle
    (Scheduler.drain_keeps steady (fun dispatch _ u agenda s holds _ => ?_) pops)
  cases there : l.staff u with
  | none => exact bears.fire_others there dispatch _ (requeue s agenda holds)
  | some p => exact staff dispatch u p there _ (requeue s agenda holds)

section
variable {W : ω → Prop}

/-- The units of a device are as it left them, and the world meets `W`. -/
def Scheduler.Keeping (l : License ω) (W : ω → Prop) (s : Scheduler σ ω) : Prop :=
  s.Staffed l ∧ W s.world

theorem License.bears_keeping (changes : ∀ f w, l.changes f → W w → W (f w))
    (deeds : ∀ s {α : Type} (m : Act ω α), s.Keeping l W → l.deeds m → ∃ a t, t.Keeping l W ∧
      ∀ (dispatch : Motion σ ω) next, (m next).exec dispatch s = (next a).exec dispatch t) :
    l.Bears (Scheduler.Keeping l W : Scheduler σ ω → Prop) where
  staffed _ here := here.1
  perform s c here _ spares := by
    refine ⟨here.1.perform spares, ?_⟩
    rw [Scheduler.world_perform]
    cases c with
    | cancel u =>
      unfold Scheduler.asked
      dsimp only
      cases installed : (s.slot u).hook with
      | none => exact here.2
      | some hook => exact changes _ _ (here.1.hooks u hook installed) here.2
    | _ => exact here.2
  change s f here permitted := ⟨here.1.of_same_slots rfl, changes f _ permitted here.2⟩
  modifySlot _ _ f here other carries hooks := ⟨here.1.modifySlot other f carries hooks, here.2⟩
  deed := deeds

omit [MediaStore σ] in
theorem Scheduler.steady_keeping : Scheduler.Steady (Scheduler.Keeping l W : Scheduler σ ω → Prop) where
  tell _ _ here := ⟨here.1.of_same_slots rfl, here.2⟩
  stop _ _ here := ⟨here.1.of_same_slots rfl, here.2⟩
  dispatching _ _ here := ⟨here.1.of_same_slots rfl, here.2⟩
  settle _ here := ⟨here.1.of_same_slots rfl, here.2⟩
  rearm _ here _ := ⟨here.1.of_same_slots rfl, here.2⟩

/-- Dispatches leave `W` standing if the actions of the device do, and leave all units as they are. -/
theorem License.Bears.world_kept (bears : l.Bears (Scheduler.Keeping l W : Scheduler σ ω → Prop))
    (staff : ∀ (dispatch : Motion σ ω) u p, l.staff u = some p →
      ∀ s result t, p.exec dispatch s = some (result, t) →
        (W s.world → W t.world) ∧ (∀ v, t.slot v = s.slot v) ∧ t.slots.size = s.slots.size)
    (pops : Nat) :
    Motion.Keeps (Scheduler.Keeping l W) (Scheduler.processEvent pops : Motion σ ω) := by
  refine bears.dispatch_keeps Scheduler.steady_keeping (fun _ _ here => ⟨here.1.of_same_slots rfl, here.2⟩)
    (fun dispatch u p there s here result t fired => ?_) pops
  obtain ⟨b, last, ran, -, world, -, world', slots, size⟩ :=
    here.1.fire_staff there (fun b result last ran => (staff dispatch u p there b result last ran).2) fired
  refine ⟨here.1.of_slots slots size, ?_⟩
  rw [world']
  exact (staff dispatch u p there b result last ran).1 (world ▸ here.2)

end

end Peripheral
