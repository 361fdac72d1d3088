import Peripheral.Simulation.Dispatch

/-!
# Callbacks of units

The action, the cancel hook and the parked completion of a unit are installed by programs and taken
out by the dispatcher. No call touches them, so what holds of every callback that is installed holds
of every callback that is ever fired.

* `slot_modifySlot`, `slot_addUnit`, `callbacks_perform` : a unit after a change of another one, or
  after a call;
* `Scheduler.Carries P` : every callback meets `P` (`Carries.perform`, `Carries.modifySlot`);
* `Scheduler.Fired` : all that a unit does when it comes up;
* `Scheduler.Installs P H D` : actions and completions meet `P`, hooks meet `H`, but for the completions
  of the units in `D`;
* `Motion.Keeps I` : the motion leaves `I` standing wherever it ends;
* `Scheduler.Steady I` : `I` does not depend on the journal, on flags or on the folding of time;
* `drain_keeps`, `process_keeps` : **what every firing keeps, a dispatch keeps**.
-/

namespace Peripheral

variable {σ ω : Type}

/-! ## Units through changes -/

namespace Slot

def callbacks (slot : Slot ω) : Option (Program ω) × Option (Hook ω) × Option (Parked ω) :=
  (slot.action, slot.hook, slot.parked)

end Slot

namespace Scheduler

variable {s t : Scheduler σ ω}

theorem slot_of_slots (same : t.slots = s.slots) (u : UnitId) : t.slot u = s.slot u := by
  rw [slot, slot, same]

theorem slot_modifySlot (u v : UnitId) (f : Slot ω → Slot ω) (s : Scheduler σ ω) :
    (s.modifySlot u f).slot v = if u = v ∧ u < s.slots.size then f (s.slot v) else s.slot v := by
  simp only [slot, modifySlot, Array.getD_eq_getD_getElem?, Array.getElem?_modify]
  by_cases same : u = v
  · subst same
    by_cases inside : u < s.slots.size
    · simp [inside]
    · simp [inside]
  · simp [same]

@[simp] theorem slot_modifySlot_self {u : UnitId} (inside : u < s.slots.size)
    (f : Slot ω → Slot ω) : (s.modifySlot u f).slot u = f (s.slot u) := by
  rw [slot_modifySlot, if_pos ⟨rfl, inside⟩]

theorem slot_modifySlot_of_ne {u v : UnitId} (other : u ≠ v) (f : Slot ω → Slot ω) :
    (s.modifySlot u f).slot v = s.slot v := by
  rw [slot_modifySlot, if_neg fun both => other both.1]

theorem slot_addUnit (e : Endpoint) (s : Scheduler σ ω) (v : UnitId) :
    (s.addUnit e).2.slot v = if v = s.slots.size then { endpoint := e } else s.slot v := by
  simp only [slot, addUnit, Array.getD_eq_getD_getElem?, Array.getElem?_push]
  split <;> rfl

theorem slot_of_size_le {u : UnitId} (outside : s.slots.size ≤ u) : s.slot u = default := by
  simp [slot, Array.getD_eq_getD_getElem?, outside]

theorem callbacks_of_empty (empty : s.slots = #[]) (u : UnitId) :
    (s.slot u).callbacks = (none, none, none) := by
  rw [slot_of_size_le (by simp [empty])]
  rfl

@[simp] theorem size_modifySlot (u : UnitId) (f : Slot ω → Slot ω) (s : Scheduler σ ω) :
    (s.modifySlot u f).slots.size = s.slots.size := by
  simp [modifySlot]

/-- What a change of one unit leaves alone in it, it leaves alone in all units. -/
theorem field_modifySlot {α : Type} (field : Slot ω → α) (u v : UnitId) (f : Slot ω → Slot ω)
    (s : Scheduler σ ω) (keeps : ∀ slot, field (f slot) = field slot) :
    field ((s.modifySlot u f).slot v) = field (s.slot v) := by
  rw [slot_modifySlot]
  split
  · exact keeps _
  · rfl

theorem callbacks_unqueue (u v : UnitId) (s : Scheduler σ ω) :
    ((s.unqueue u).slot v).callbacks = (s.slot v).callbacks := by
  unfold unqueue
  split
  · exact field_modifySlot Slot.callbacks u v _ _ (by intro slot; rfl)
  · rfl

theorem callbacks_cancel (u v : UnitId) (s : Scheduler σ ω) :
    ((s.cancel u).slot v).callbacks = (s.slot v).callbacks := by
  unfold cancel
  split
  · exact callbacks_unqueue u v s
  · dsimp only
    split
    · rfl
    · rw [callbacks_unqueue]
      rfl

theorem slot_activate (u v : UnitId) (ticks : Int32) (s : Scheduler σ ω) :
    (s.activate u ticks).2.slot v = s.slot v := by
  unfold activate
  split <;> rfl

theorem callbacks_activateAfter (u v : UnitId) (usecs : Float) (s : Scheduler σ ω) :
    ((s.activateAfter u usecs).2.slot v).callbacks = (s.slot v).callbacks := by
  unfold activateAfter
  split
  · rfl
  · refine (field_modifySlot Slot.callbacks u v _ _ (by intro slot; rfl)).trans ?_
    rw [slot_activate]

theorem callbacks_setEndpoint (u v : UnitId) (e : Endpoint) (s : Scheduler σ ω) :
    ((s.setEndpoint u e).slot v).callbacks = (s.slot v).callbacks :=
  field_modifySlot Slot.callbacks u v _ s (by intro slot; rfl)

variable [MediaStore σ]

theorem callbacks_perform (s : Scheduler σ ω) (c : Call) (v : UnitId) :
    ((s.perform c).2.slot v).callbacks = (s.slot v).callbacks := by
  cases c with
  | activate u ticks => exact congrArg Slot.callbacks (slot_activate u v ticks s)
  | activateAfter u usecs => exact callbacks_activateAfter u v usecs s
  | cancel u => exact callbacks_cancel u v s
  | addUnit e =>
    dsimp only [perform]
    rw [slot_addUnit]
    split
    · rename_i new
      rw [slot_of_size_le (Nat.le_of_eq new.symm)]
      rfl
    · rfl
  | setPosition u offset => exact field_modifySlot Slot.callbacks u v _ s (by intro slot; rfl)
  | setCapacity u bytes => exact field_modifySlot Slot.callbacks u v _ s (by intro slot; rfl)
  | attach u name => exact callbacks_setEndpoint u v _ { s with media := _ }
  | detach u => exact callbacks_setEndpoint u v _ { s with media := _ }
  | write u offset data => exact callbacks_setEndpoint u v _ { s with media := _ }
  | transfer u sectorSize request => exact callbacks_setEndpoint u v _ { s with media := _ }
  | _ => rfl

end Scheduler

/-! ## Callbacks of one kind -/

/-- The action of a unit meets `P`, and so does its completion whatever the outcome. -/
structure Slot.Carries (P : Program ω → Prop) (slot : Slot ω) : Prop where
  action : ∀ p, slot.action = some p → P p
  parked : ∀ k, slot.parked = some k → ∀ outcome, P (k.deliver outcome)

def Scheduler.Carries (P : Program ω → Prop) (s : Scheduler σ ω) : Prop :=
  ∀ u, (s.slot u).Carries P

theorem Slot.Carries.keep {P : Program ω → Prop} {slot new : Slot ω} (carries : slot.Carries P)
    (same : new.callbacks = slot.callbacks) : new.Carries P := by
  simp only [callbacks, Prod.mk.injEq] at same
  exact ⟨fun p there => carries.action p (same.1 ▸ there),
    fun k there => carries.parked k (same.2.2 ▸ there)⟩

namespace Scheduler

variable {P : Program ω → Prop} {s t : Scheduler σ ω}

theorem Carries.of_callbacks (carries : s.Carries P)
    (same : ∀ u, (t.slot u).callbacks = (s.slot u).callbacks) : t.Carries P :=
  fun u => (carries u).keep (same u)

theorem Carries.of_slots (carries : s.Carries P) (same : t.slots = s.slots) : t.Carries P :=
  carries.of_callbacks fun u => by rw [slot_of_slots same]

theorem carries_of_empty (empty : s.slots = #[]) : s.Carries P := by
  intro u
  rw [slot_of_size_le (by simp [empty])]
  constructor
  · intro p there
    cases there
  · intro k there
    cases there

theorem Carries.modifySlot {u : UnitId} {f : Slot ω → Slot ω} (carries : s.Carries P)
    (keeps : ∀ slot : Slot ω, slot.Carries P → (f slot).Carries P) :
    (s.modifySlot u f).Carries P := by
  intro v
  rw [slot_modifySlot]
  split
  · exact keeps _ (carries v)
  · exact carries v

theorem Carries.setAction {p : Program ω} (carries : s.Carries P) (u : UnitId) (meets : P p) :
    (s.modifySlot u fun slot => { slot with action := some p }).Carries P :=
  carries.modifySlot fun _ here =>
    ⟨fun _ there => Option.some.inj there ▸ meets, here.parked⟩

theorem Carries.park {deliver : Outcome → Program ω} (carries : s.Carries P) (u : UnitId)
    (delay : Float) (outcome : Outcome) (meets : ∀ outcome, P (deliver outcome)) :
    (s.modifySlot u fun slot => { slot with delay, parked := some ⟨outcome, deliver⟩ }).Carries P :=
  carries.modifySlot fun _ here =>
    ⟨here.action, fun _ there => Option.some.inj there ▸ meets⟩

theorem Carries.takeAction (carries : s.Carries P) (u : UnitId) :
    (s.modifySlot u fun slot => { slot with action := none }).Carries P :=
  carries.modifySlot fun _ here => ⟨fun p none => (by cases none), here.parked⟩

theorem Carries.takeParked (carries : s.Carries P) (u : UnitId) :
    (s.modifySlot u fun slot => { slot with parked := none }).Carries P :=
  carries.modifySlot fun _ here => ⟨here.action, fun k none => (by cases none)⟩

/-- An action that goes back unless another one was installed. -/
theorem Carries.putBack {p : Program ω} (carries : s.Carries P) (u : UnitId) (meets : P p) :
    (s.modifySlot u fun slot => { slot with action := slot.action.or (some p) }).Carries P := by
  refine carries.modifySlot fun slot here => ⟨fun q there => ?_, here.parked⟩
  cases installed : slot.action with
  | none =>
    rw [installed] at there
    rwa [← Option.some.inj there]
  | some r =>
    rw [installed] at there
    rw [← Option.some.inj there]
    exact here.action r installed

theorem Carries.perform [MediaStore σ] (carries : s.Carries P) (c : Call) :
    (s.perform c).2.Carries P :=
  carries.of_callbacks (callbacks_perform s c)

end Scheduler

/-- Actions and the completions of units outside `D` meet `P`, hooks meet `H`. -/
structure Scheduler.Installs (P : Program ω → Prop) (H : Hook ω → Prop) (D : UnitId → Prop)
    (s : Scheduler σ ω) : Prop where
  actions : ∀ u p, (s.slot u).action = some p → P p
  hooks : ∀ u hook, (s.slot u).hook = some hook → H hook
  guests : ∀ u, ¬D u → ∀ k, (s.slot u).parked = some k → ∀ outcome, P (k.deliver outcome)

namespace Scheduler

variable {P : Program ω → Prop} {H : Hook ω → Prop} {D : UnitId → Prop} {s t : Scheduler σ ω}

theorem Installs.keep (installs : s.Installs P H D)
    (actions : ∀ u, (t.slot u).action = (s.slot u).action)
    (hooks : ∀ u, (t.slot u).hook = (s.slot u).hook)
    (guests : ∀ u, ¬D u → (t.slot u).parked = (s.slot u).parked) : t.Installs P H D where
  actions u p there := installs.actions u p (actions u ▸ there)
  hooks u hook there := installs.hooks u hook (hooks u ▸ there)
  guests u other k there := installs.guests u other k (guests u other ▸ there)

theorem Installs.of_callbacks (installs : s.Installs P H D)
    (same : ∀ u, (t.slot u).callbacks = (s.slot u).callbacks) : t.Installs P H D :=
  installs.keep (fun u => congrArg (·.1) (same u)) (fun u => congrArg (·.2.1) (same u))
    fun u _ => congrArg (·.2.2) (same u)

theorem installs_of_blank (blank : ∀ u, (s.slot u).callbacks = (none, none, none)) :
    s.Installs P H D where
  actions u p there := by
    have none : (s.slot u).action = none := congrArg (·.1) (blank u)
    rw [none] at there
    cases there
  hooks u hook there := by
    have none : (s.slot u).hook = none := congrArg (·.2.1) (blank u)
    rw [none] at there
    cases there
  guests u _ k there := by
    have none : (s.slot u).parked = none := congrArg (·.2.2) (blank u)
    rw [none] at there
    cases there

theorem Installs.modifySlot (installs : s.Installs P H D) {u : UnitId} (f : Slot ω → Slot ω)
    (actions : ∀ p, (f (s.slot u)).action = some p → P p)
    (hooks : ∀ hook, (f (s.slot u)).hook = some hook → H hook)
    (guests : ¬D u → ∀ k, (f (s.slot u)).parked = some k → ∀ outcome, P (k.deliver outcome)) :
    (s.modifySlot u f).Installs P H D := by
  have slots : ∀ v, (s.modifySlot u f).slot v = s.slot v ∨
      u = v ∧ (s.modifySlot u f).slot v = f (s.slot u) := by
    intro v
    rw [slot_modifySlot]
    split
    · rename_i both
      exact .inr ⟨both.1, both.1 ▸ rfl⟩
    · exact .inl rfl
  refine ⟨fun v p there => ?_, fun v hook there => ?_, fun v other k there => ?_⟩
  · rcases slots v with same | ⟨rfl, new⟩
    · exact installs.actions v p (same ▸ there)
    · exact actions p (new ▸ there)
  · rcases slots v with same | ⟨rfl, new⟩
    · exact installs.hooks v hook (same ▸ there)
    · exact hooks hook (new ▸ there)
  · rcases slots v with same | ⟨rfl, new⟩
    · exact installs.guests v other k (same ▸ there)
    · exact guests other k (new ▸ there)

end Scheduler

/-! ## What a unit does when it comes up -/

/-- How a unit that was taken off the queue fires: it waits on, hands its transfer over, has nothing to
do, or runs its action, which is out of the unit meanwhile. -/
inductive Scheduler.Fired [MediaStore σ] (dispatch : Motion σ ω) (u : UnitId) (s : Scheduler σ ω) :
    Result → Scheduler σ ω → Prop
  | waits : (s.slot u).delay > 0 →
    Fired dispatch u s (.ok ())
      (((s.tell (.requeueing (s.slot u).endpoint.name (s.slot u).delay)).modifySlot u
        fun slot => { slot with delay := 0 }).activateAfter u (s.slot u).delay).2
  | handsOver {k : Parked ω} {result : Result} {t : Scheduler σ ω} : ¬(s.slot u).delay > 0 →
    (s.slot u).parked = some k →
    (k.deliver k.outcome).exec dispatch ((s.tell (.completing (s.slot u).endpoint.name)).modifySlot u
      fun slot => { slot with parked := none }) = some (result, t) → Fired dispatch u s result t
  | rests : ¬(s.slot u).delay > 0 → (s.slot u).parked = none → (s.slot u).action = none →
    Fired dispatch u s (.ok ()) (s.tell (.firing (s.slot u).endpoint.name))
  | acts {action : Program ω} {result : Result} {t : Scheduler σ ω} : ¬(s.slot u).delay > 0 →
    (s.slot u).parked = none → (s.slot u).action = some action →
    action.exec dispatch ((s.tell (.firing (s.slot u).endpoint.name)).modifySlot u
      fun slot => { slot with action := none }) = some (result, t) →
    Fired dispatch u s result
      (t.modifySlot u fun slot => { slot with action := slot.action.or (some action) })

theorem Scheduler.fired_of_fire [MediaStore σ] {dispatch : Motion σ ω} {u : UnitId}
    {s t : Scheduler σ ω} {result : Result} (fired : fire dispatch u s = some (result, t)) :
    Fired dispatch u s result t := by
  simp only [fire] at fired
  split at fired
  · rename_i waiting
    cases fired
    exact .waits waiting
  · rename_i due
    cases parked : (s.slot u).parked with
    | some k =>
      rw [parked] at fired
      exact .handsOver due parked fired
    | none =>
      rw [parked] at fired
      cases installed : (s.slot u).action with
      | none =>
        simp only [installed, Option.some.injEq, Prod.mk.injEq] at fired
        obtain ⟨rfl, rfl⟩ := fired
        exact .rests due parked installed
      | some action =>
        simp only [installed] at fired
        split at fired
        · cases fired
        · rename_i ended
          cases fired
          exact .acts due parked installed ended

/-! ## What a dispatch keeps -/

/-- The motion leaves `I` standing wherever it ends. -/
def Motion.Keeps (I : Scheduler σ ω → Prop) (m : Motion σ ω) : Prop :=
  ∀ s, I s → ∀ result t, m s = some (result, t) → I t

namespace Scheduler

/-- What does not depend on the journal, on flags, on the folding of time, or on the wait of an empty
queue. -/
structure Steady (I : Scheduler σ ω → Prop) : Prop where
  tell : ∀ s m, I s → I (s.tell m)
  stop : ∀ s stop, I s → I { s with stop }
  dispatching : ∀ s dispatching, I s → I { s with dispatching }
  settle : ∀ s, I s → I { s with agenda := s.agenda.settle }
  rearm : ∀ s, I s → s.agenda.queue = [] → I { s with agenda := s.agenda.rearm }

variable {I J : Scheduler σ ω → Prop}

theorem Steady.tellAnomaly (steady : Steady I) {s : Scheduler σ ω} (holds : I s) (u : UnitId)
    (result : Result) : I (s.tellAnomaly u result) := by
  unfold Scheduler.tellAnomaly
  split
  · exact holds
  · split
    · exact holds
    · exact steady.tell s _ holds

theorem Steady.conclude (steady : Steady I) {s : Scheduler σ ω} (holds : I s) (result : Result) :
    I (s.conclude result).2 := by
  unfold Scheduler.conclude
  cases queue : s.agenda.queue with
  | nil =>
    have rested := steady.tell _ (.drained s.agenda.rearm.interval none) (steady.rearm s holds queue)
    dsimp only
    split
    · exact steady.dispatching _ false (steady.stop _ false rested)
    · exact steady.dispatching _ false rested
  | cons e rest =>
    have told := steady.tell s (.drained s.agenda.interval (some (s.nameOf e.unit))) holds
    dsimp only
    split
    · exact steady.dispatching _ false (steady.stop _ false told)
    · exact steady.dispatching _ false told

/-- A dispatch keeps `I` if draining keeps `J`, which holds once time is folded in. -/
theorem process_keeps (steady : Steady J) (weaker : ∀ s, J s → I s)
    (stop : ∀ s, I s → I { s with stop := false })
    (settles : ∀ s, I s → J { s with agenda := s.agenda.settle }) {drain : Motion σ ω}
    (keeps : drain.Keeps J) : (process drain).Keeps I := by
  intro s holds result t ended
  simp only [process] at ended
  split at ended
  · simp only [Option.some.injEq, Prod.mk.injEq] at ended
    rw [← ended.2]
    exact stop s holds
  · have settled := settles s holds
    split at ended
    · rename_i empty
      simp only [Option.some.injEq, Prod.mk.injEq] at ended
      rw [← ended.2]
      exact weaker _ (steady.tell _ _ (steady.rearm _ settled (List.isEmpty_iff.1 empty)))
    · split at ended
      · simp at ended
      · rename_i result' t' drained
        have left := steady.conclude
          (keeps _ (steady.dispatching _ true settled) _ _ drained) result'
        rw [Option.some.inj ended] at left
        exact weaker _ left

variable [MediaStore σ]

/-- Whatever every firing keeps, given that dispatches from inside it do, a drain keeps. -/
theorem drain_keeps (steady : Steady I)
    (fires : ∀ dispatch : Motion σ ω, dispatch.Keeps I → ∀ u agenda s, I s →
      s.agenda.pop? = some (u, agenda) →
      ∀ result t, fire dispatch u { s with agenda } = some (result, t) → I t) (pops : Nat) :
    (drain pops : Motion σ ω).Keeps I := by
  induction pops with
  | zero => intro s _ result t ended; simp [drain] at ended
  | succ pops ih =>
    intro s holds result t ended
    have inner : (process (drain pops) : Motion σ ω).Keeps I :=
      process_keeps steady (fun _ => id) (fun s => steady.stop s false) steady.settle ih
    rw [drain] at ended
    split at ended
    · simp only [Option.some.injEq, Prod.mk.injEq] at ended
      rwa [← ended.2]
    · rename_i u agenda popped
      cases fired : fire (process (drain pops)) u { s with agenda } with
      | none => simp [fired] at ended
      | some answer =>
        obtain ⟨result', t'⟩ := answer
        have told := steady.tellAnomaly (fires _ inner u agenda s holds popped _ _ fired) u result'
        simp only [fired] at ended
        split at ended
        · exact ih _ told _ _ ended
        · simp only [Option.some.injEq, Prod.mk.injEq] at ended
          rwa [← ended.2]

end Scheduler

end Peripheral
