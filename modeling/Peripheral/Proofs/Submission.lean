import Peripheral.Proofs.Callbacks
import Peripheral.Proofs.Bookings
import Peripheral.Simulation.Backend
import Peripheral.Simulation.Pops

/-!
# Deferred transfers

A deferred transfer moves its data when it is asked for, takes the unit out of the queue, leaves the
outcome with it and puts it back.

* `slot_cancel`, `slot_activateAfter` : a unit after cancellations and activations;
* `Scheduler.Alters`, `Scheduler.mediaAfter` : all that a call can make of an endpoint and of the media
  (`alters_perform`, `mediaAfter_perform`);
* `Scheduler.leave` : leave a finished transfer with a unit; `Scheduler.defer` : all that a deferred
  transfer does;
* `exec_submit_immediate`, `exec_submit_deferred` : **what a backend does when a transfer is asked
  for**: a unit with a transfer in flight is left as it is;
* `slot_defer_self`, `mem_units_defer`, `world_defer`, `media_defer` : what a deferred transfer leaves behind.
-/

namespace Peripheral

variable {σ ω : Type}

namespace Scheduler

variable {u v : UnitId} {s : Scheduler σ ω}

/-! ## A unit through cancellations and activations -/

/-- The world once the hook of a unit has been asked. -/
def asked (u : UnitId) (s : Scheduler σ ω) : ω :=
  match (s.slot u).hook with
  | none => s.world
  | some hook => (hook s.world).2

theorem cancel_eq (u : UnitId) (s : Scheduler σ ω) :
    s.cancel u =
      if s.swallows u then { s with world := s.asked u }
      else { s with world := s.asked u }.unqueue u := by
  unfold cancel swallows asked
  cases (s.slot u).hook with
  | none => rfl
  | some hook => rfl

@[simp] theorem size_unqueue (u : UnitId) (s : Scheduler σ ω) :
    (s.unqueue u).slots.size = s.slots.size := by
  unfold unqueue
  split
  · exact size_modifySlot u _ _
  · rfl

@[simp] theorem size_cancel (u : UnitId) (s : Scheduler σ ω) :
    (s.cancel u).slots.size = s.slots.size := by
  rw [cancel_eq]
  split
  · rfl
  · exact size_unqueue u _

@[simp] theorem size_activate (u : UnitId) (ticks : Int32) (s : Scheduler σ ω) :
    (s.activate u ticks).2.slots.size = s.slots.size := by
  unfold activate
  split <;> rfl

theorem media_activate (u : UnitId) (ticks : Int32) (s : Scheduler σ ω) :
    (s.activate u ticks).2.media = s.media := by
  unfold activate
  split <;> rfl

theorem world_activate (u : UnitId) (ticks : Int32) (s : Scheduler σ ω) :
    (s.activate u ticks).2.world = s.world := by
  unfold activate
  split <;> rfl

theorem rate_activate (u : UnitId) (ticks : Int32) (s : Scheduler σ ω) :
    (s.activate u ticks).2.rate = s.rate := by
  unfold activate
  split <;> rfl

theorem slot_unqueue (u v : UnitId) (s : Scheduler σ ω) :
    (s.unqueue u).slot v = if u = v ∧ s.isActive u then { s.slot v with delay := 0 } else s.slot v := by
  unfold unqueue
  by_cases active : s.isActive u
  · simp only [active, if_true, and_true]
    refine (slot_modifySlot u v _ _).trans ?_
    by_cases same : u = v
    · subst same
      by_cases inside : u < s.slots.size
      · rw [if_pos ⟨rfl, inside⟩, if_pos rfl]
        rfl
      · have outside := slot_of_size_le (Nat.not_lt.1 inside)
        rw [if_neg fun both => inside both.2, if_pos rfl]
        show s.slot u = _
        rw [outside]
        rfl
    · rw [if_neg fun both => same both.1, if_neg same]
      rfl
  · rw [if_neg active, if_neg fun both => active both.2]

/-- A cancellation stops the waiting of its unit unless the hook has swallowed it. -/
theorem slot_cancel (u v : UnitId) (s : Scheduler σ ω) :
    (s.cancel u).slot v =
      if u = v ∧ s.isActive u ∧ ¬s.swallows u then { s.slot v with delay := 0 } else s.slot v := by
  rw [cancel_eq]
  by_cases swallowed : s.swallows u
  · rw [if_pos swallowed, if_neg fun all => all.2.2 swallowed]
    rfl
  · rw [if_neg swallowed, slot_unqueue]
    simp only [swallowed, Bool.false_eq_true, not_false_eq_true, and_true]
    rfl

theorem media_cancel (u : UnitId) (s : Scheduler σ ω) : (s.cancel u).media = s.media := by
  rw [cancel_eq]
  split
  · rfl
  · unfold unqueue
    split <;> rfl

theorem world_cancel (u : UnitId) (s : Scheduler σ ω) : (s.cancel u).world = s.asked u := by
  rw [cancel_eq]
  split
  · rfl
  · unfold unqueue
    split <;> rfl

theorem rate_cancel (u : UnitId) (s : Scheduler σ ω) : (s.cancel u).rate = s.rate := by
  rw [cancel_eq]
  split
  · rfl
  · unfold unqueue
    split <;> rfl

theorem slot_cancel_of_ne (other : u ≠ v) : (s.cancel u).slot v = s.slot v := by
  rw [slot_cancel, if_neg fun both => other both.1]

theorem slot_activateAfter (u v : UnitId) (usecs : Float) (s : Scheduler σ ω) :
    (s.activateAfter u usecs).2.slot v =
      if u = v ∧ u < s.slots.size ∧ s.isActive u = false then
        { s.slot v with delay := (s.legs usecs).2 }
      else s.slot v := by
  unfold activateAfter
  by_cases active : s.isActive u
  · rw [if_pos active, if_neg (by simp [active])]
  · rw [if_neg active]
    rw [Bool.not_eq_true] at active
    refine (slot_modifySlot u v _ _).trans ?_
    rw [slot_activate, size_activate, active]
    simp only [and_true]

theorem mem_units_insert (u : UnitId) (ticks : Int32) (a : Agenda) : u ∈ (a.insert u ticks).units := by
  obtain ⟨before, after, -, placed⟩ := a.units_insert u ticks
  rw [placed]
  exact List.mem_append_right _ List.mem_cons_self

theorem mem_units_activate (u : UnitId) (ticks : Int32) (s : Scheduler σ ω) :
    u ∈ (s.activate u ticks).2.agenda.units := by
  by_cases pending : u ∈ s.agenda.units
  · rwa [activate_pending pending]
  · rw [(activate_idle ticks pending).2]
    exact mem_units_insert u ticks s.agenda

theorem mem_units_activateAfter (u : UnitId) (usecs : Float) (s : Scheduler σ ω) :
    u ∈ (s.activateAfter u usecs).2.agenda.units := by
  unfold activateAfter
  split
  · rename_i active
    exact isActive_iff.1 active
  · exact mem_units_activate u _ s

theorem media_activateAfter (u : UnitId) (usecs : Float) (s : Scheduler σ ω) :
    (s.activateAfter u usecs).2.media = s.media := by
  unfold activateAfter
  split
  · rfl
  · exact media_activate u _ s

section
variable [MediaStore σ]

theorem rate_perform (s : Scheduler σ ω) (c : Call) : (s.perform c).2.rate = s.rate := by
  cases c with
  | activate u ticks => exact rate_activate u ticks s
  | activateAfter u usecs =>
    dsimp only [perform]
    unfold activateAfter
    split
    · rfl
    · exact rate_activate u _ s
  | cancel u => exact rate_cancel u s
  | _ => rfl

theorem size_perform (s : Scheduler σ ω) (c : Call) :
    s.slots.size ≤ (s.perform c).2.slots.size := by
  have modified : ∀ (t : Scheduler σ ω) (u : UnitId) (f : Slot ω → Slot ω),
      t.slots.size ≤ (t.modifySlot u f).slots.size := fun t u f =>
    Nat.le_of_eq (size_modifySlot u f t).symm
  cases c with
  | activate u ticks => exact Nat.le_of_eq (size_activate u ticks s).symm
  | activateAfter u usecs =>
    dsimp only [perform]
    unfold activateAfter
    split
    · exact Nat.le_refl _
    · refine Nat.le_trans ?_ (modified _ u _)
      exact Nat.le_of_eq (size_activate u _ s).symm
  | cancel u => exact Nat.le_of_eq (size_cancel u s).symm
  | addUnit e =>
    show _ ≤ (s.slots.push _).size
    rw [Array.size_push]
    exact Nat.le_succ _
  | setPosition u offset => exact modified s u _
  | setCapacity u bytes => exact modified s u _
  | attach u name => exact modified { s with media := _ } u _
  | detach u => exact modified { s with media := _ } u _
  | write u offset data => exact modified { s with media := _ } u _
  | transfer u sectorSize request => exact modified { s with media := _ } u _
  | _ => exact Nat.le_refl _

/-- The only call that touches the world is a cancellation, through the hook of its unit. -/
theorem world_perform (s : Scheduler σ ω) (c : Call) :
    (s.perform c).2.world = match c with
      | .cancel u => s.asked u
      | _ => s.world := by
  cases c with
  | activate u ticks => exact world_activate u ticks s
  | activateAfter u usecs =>
    dsimp only [perform]
    unfold activateAfter
    split
    · rfl
    · exact world_activate u _ s
  | cancel u => exact world_cancel u s
  | _ => rfl

/-- Nothing but its cancellation takes a unit out of the queue. -/
theorem mem_units_perform {u : UnitId} {s : Scheduler σ ω} {c : Call} (pending : u ∈ s.agenda.units)
    (other : c ≠ .cancel u) : u ∈ (s.perform c).2.agenda.units := by
  have inserted : ∀ (v : UnitId) (ticks : Int32), u ∈ (s.agenda.insert v ticks).units := by
    intro v ticks
    obtain ⟨before, after, split, placed⟩ := s.agenda.units_insert v ticks
    rw [split, List.mem_append] at pending
    rw [placed, List.mem_append, List.mem_cons]
    exact pending.imp id .inr
  rw [agenda_perform]
  cases c with
  | activate v ticks =>
    simp only [changesOf]
    split
    · exact pending
    · exact inserted v ticks
  | activateAfter v usecs =>
    simp only [changesOf]
    split
    · exact pending
    · exact inserted v _
  | cancel v =>
    simp only [changesOf]
    split
    · rw [Agenda.after_cons, Agenda.after_nil, Change.apply, Agenda.units_remove]
      exact (List.mem_erase_of_ne fun same => other (congrArg Call.cancel same.symm)).2 pending
    · exact pending
  | _ => exact pending

/-- A call changes the agenda once at most. The wait of a pending unit does not change unless the unit
is taken out of the queue. -/
theorem perform_moves (s : Scheduler σ ω) (c : Call) :
    (s.changesOf c = [] ∧ ∀ u, ((s.perform c).2.slot u).delay = (s.slot u).delay) ∨
      ∃ x, s.changesOf c = [x] ∧ (∀ v offset, x ≠ .popped v offset) ∧
        ∀ u ∈ s.agenda.units, x ≠ .removed u →
          ((s.perform c).2.slot u).delay = (s.slot u).delay := by
  cases c with
  | consume ticks => exact .inr ⟨_, rfl, fun v offset => Change.noConfusion, fun u _ _ => rfl⟩
  | activate v ticks =>
    have same := fun u => congrArg Slot.delay (slot_activate v u ticks s)
    by_cases active : s.isActive v
    · exact .inl ⟨if_pos active, same⟩
    · exact .inr ⟨_, if_neg active, fun v offset => Change.noConfusion, fun u _ _ => same u⟩
  | activateAfter v usecs =>
    by_cases active : s.isActive v
    · refine .inl ⟨if_pos active, fun u => ?_⟩
      dsimp only [perform]
      rw [slot_activateAfter, if_neg (by simp [active])]
    · refine .inr ⟨_, if_neg active, fun v offset => Change.noConfusion, fun u pending _ => ?_⟩
      have other : v ≠ u := by
        rintro rfl
        exact active (isActive_iff.2 pending)
      dsimp only [perform]
      rw [slot_activateAfter, if_neg fun all => other all.1]
  | cancel v =>
    by_cases removes : (s.isActive v && !s.swallows v) = true
    · refine .inr ⟨_, if_pos removes, fun v offset => Change.noConfusion, fun u _ stays => ?_⟩
      have other : v ≠ u := fun same => stays (congrArg Change.removed same)
      exact congrArg Slot.delay (slot_cancel_of_ne other)
    · refine .inl ⟨if_neg removes, fun u => congrArg Slot.delay ?_⟩
      dsimp only [perform]
      rw [slot_cancel, if_neg]
      rintro ⟨-, active, passed⟩
      simp [active, passed] at removes
  | addUnit e =>
    refine .inl ⟨rfl, fun u => ?_⟩
    dsimp only [perform]
    rw [slot_addUnit]
    split
    · rename_i new
      rw [slot_of_size_le (Nat.le_of_eq new.symm)]
      rfl
    · rfl
  | setPosition v offset =>
    exact .inl ⟨rfl, fun u => field_modifySlot Slot.delay v u _ s (by intro slot; rfl)⟩
  | setCapacity v bytes =>
    exact .inl ⟨rfl, fun u => field_modifySlot Slot.delay v u _ s (by intro slot; rfl)⟩
  | attach v name =>
    exact .inl ⟨rfl, fun u => field_modifySlot Slot.delay v u _ { s with media := _ }
      (by intro slot; rfl)⟩
  | detach v =>
    exact .inl ⟨rfl, fun u => field_modifySlot Slot.delay v u _ { s with media := _ }
      (by intro slot; rfl)⟩
  | write v offset data =>
    exact .inl ⟨rfl, fun u => field_modifySlot Slot.delay v u _ { s with media := _ }
      (by intro slot; rfl)⟩
  | transfer v sectorSize request =>
    exact .inl ⟨rfl, fun u => field_modifySlot Slot.delay v u _ { s with media := _ }
      (by intro slot; rfl)⟩
  | _ => exact .inl ⟨rfl, fun u => rfl⟩

end

/-! ## Endpoints and media through a call -/

section
variable [MediaStore σ]

/-- What a call can make of the endpoint of a unit. -/
inductive Alters (s : Scheduler σ ω) (u : UnitId) : Call → Endpoint → Prop
  | kept (c : Call) : Alters s u c (s.slot u).endpoint
  | added (e : Endpoint) : u = s.slots.size → Alters s u (.addUnit e) e
  | positioned (offset : UInt64) :
    Alters s u (.setPosition u offset) { (s.slot u).endpoint with position := offset }
  | resized (bytes : UInt64) : Alters s u (.setCapacity u bytes) { (s.slot u).endpoint with capacity := bytes }
  | attached (name : String) : Alters s u (.attach u name) ((s.slot u).endpoint.attach name s.media).2.1
  | detached : Alters s u (.detach u) ((s.slot u).endpoint.detach s.media).2.1
  | written (offset : UInt64) (data : Bytes) :
    Alters s u (.write u offset data) ((s.slot u).endpoint.write offset data s.media).2.1
  | moved (sectorSize : UInt64) (request : Request) :
    Alters s u (.transfer u sectorSize request) ((s.slot u).endpoint.transfer sectorSize request s.media).2.1

theorem alters_perform (s : Scheduler σ ω) (c : Call) (u : UnitId) :
    s.Alters u c ((s.perform c).2.slot u).endpoint := by
  have modified : ∀ {c : Call} (t : Scheduler σ ω) (v : UnitId) (f : Slot ω → Slot ω), t.slots = s.slots →
      (v = u → s.Alters u c (f (s.slot u)).endpoint) → s.Alters u c ((t.modifySlot v f).slot u).endpoint := by
    intro c t v f slots alters
    rw [slot_modifySlot, slot_of_slots slots]
    split
    · rename_i both
      exact alters both.1
    · exact .kept c
  cases c with
  | activate v ticks =>
    rw [show ((s.perform (.activate v ticks)).2.slot u) = s.slot u from slot_activate v u ticks s]
    exact .kept _
  | activateAfter v usecs =>
    dsimp only [Scheduler.perform]
    rw [slot_activateAfter]
    split <;> exact .kept _
  | cancel v =>
    dsimp only [Scheduler.perform]
    rw [slot_cancel]
    split <;> exact .kept _
  | addUnit e =>
    dsimp only [Scheduler.perform]
    rw [slot_addUnit]
    split
    · rename_i new
      exact .added e new
    · exact .kept _
  | setPosition v offset => exact modified s v _ rfl (by rintro rfl; exact .positioned offset)
  | setCapacity v bytes => exact modified s v _ rfl (by rintro rfl; exact .resized bytes)
  | attach v name => exact modified { s with media := _ } v _ rfl (by rintro rfl; exact .attached name)
  | detach v => exact modified { s with media := _ } v _ rfl (by rintro rfl; exact .detached)
  | write v offset data => exact modified { s with media := _ } v _ rfl (by rintro rfl; exact .written offset data)
  | transfer v sectorSize request =>
    exact modified { s with media := _ } v _ rfl (by rintro rfl; exact .moved sectorSize request)
  | _ => exact .kept _

def mediaAfter (s : Scheduler σ ω) : Call → σ
  | .attach u name => ((s.slot u).endpoint.attach name s.media).2.2.1
  | .detach u => ((s.slot u).endpoint.detach s.media).2.2.1
  | .read u offset count => ((s.slot u).endpoint.read offset count s.media).2
  | .write u offset data => ((s.slot u).endpoint.write offset data s.media).2.2
  | .transfer u sectorSize request => ((s.slot u).endpoint.transfer sectorSize request s.media).2.2
  | .openMedium name readOnly => (MediaStore.openMedium name readOnly s.media).2
  | .mediumLength medium => (MediaStore.length medium s.media).2
  | .readMedium medium offset count => (MediaStore.read medium offset count s.media).2
  | .writeMedium medium offset data => (MediaStore.write medium offset data s.media).2
  | .flushMedium medium => (MediaStore.flush medium s.media).2
  | .install name data => MediaStore.install name data s.media
  | _ => s.media

theorem mediaAfter_perform (s : Scheduler σ ω) (c : Call) : (s.perform c).2.media = s.mediaAfter c := by
  cases c with
  | activate u ticks => exact media_activate u ticks s
  | activateAfter u usecs => exact media_activateAfter u usecs s
  | cancel u => exact media_cancel u s
  | _ => rfl

end

/-! ## Deferring a transfer -/

/-- Leave a finished transfer with a unit, to be handed over after a delay. -/
def leave (u : UnitId) (delay : Float) (k : Parked ω) (s : Scheduler σ ω) : Scheduler σ ω :=
  s.modifySlot u fun slot => { slot with delay, parked := some k }

theorem slot_leave_self (inside : u < s.slots.size) (delay : Float) (k : Parked ω) :
    (s.leave u delay k).slot u = { s.slot u with delay, parked := some k } :=
  slot_modifySlot_self inside _

theorem slot_leave_of_ne (other : u ≠ v) (delay : Float) (k : Parked ω) :
    (s.leave u delay k).slot v = s.slot v :=
  slot_modifySlot_of_ne other _

theorem action_hook_leave (u v : UnitId) (delay : Float) (k : Parked ω) (s : Scheduler σ ω) :
    ((s.leave u delay k).slot v).action = (s.slot v).action ∧
      ((s.leave u delay k).slot v).hook = (s.slot v).hook :=
  ⟨field_modifySlot Slot.action u v _ s (by intro slot; rfl),
    field_modifySlot Slot.hook u v _ s (by intro slot; rfl)⟩

variable [MediaStore σ]

theorem slot_transfer_of_ne (other : u ≠ v) (sectorSize : UInt64) (request : Request) :
    (s.transfer u sectorSize request).2.slot v = s.slot v :=
  slot_modifySlot_of_ne other _

/-- Move the data of a transfer, and leave its outcome with the unit, which waits for the latency from
now on. -/
def defer (u : UnitId) (sectorSize : UInt64) (latency : Float) (request : Request)
    (done : Outcome → Program ω) (s : Scheduler σ ω) : Scheduler σ ω :=
  let (outcome, t) := s.transfer u sectorSize request
  let t := (t.cancel u).leave u (Ticks.nonnegative latency) ⟨outcome, done⟩
  ((t.tell (.deferred (s.nameOf u) latency)).activate u 0).2

end Scheduler

section
variable [MediaStore σ] {u : UnitId} {request : Request} {done : Outcome → Program ω}
  {next : Result → Program ω} {dispatch : Motion σ ω} {s : Scheduler σ ω}

theorem exec_submit_immediate (sectorSize : UInt64) :
    ((Backend.immediate sectorSize).submit u request done next).exec dispatch s =
      match (done (s.transfer u sectorSize request).1).exec dispatch
          (s.transfer u sectorSize request).2 with
      | none => none
      | some (result, t) => (next result).exec dispatch t :=
  Program.exec_inline dispatch _ next _

/-- A deferred transfer is refused while another one is in flight on the unit. -/
theorem exec_submit_deferred (sectorSize : UInt64) (latency : Float) :
    ((Backend.deferred sectorSize latency).submit u request done next).exec dispatch s =
      if (s.slot u).parked.isSome then
        (next (.error (.internal (.transferInFlight (s.nameOf u))))).exec dispatch s
      else (next (.ok ())).exec dispatch (s.defer u sectorSize latency request done) := by
  show Program.exec dispatch
    ((if (s.view u).ioPending then _ else _ : Act ω Result) next) s = _
  by_cases pending : (s.slot u).parked.isSome
  · rw [if_pos pending, if_pos (show (s.view u).ioPending = true from pending)]
    rfl
  · rw [if_neg pending, if_neg (show ¬(s.view u).ioPending = true from pending)]
    rfl

end

namespace Scheduler

section
variable [MediaStore σ] {u v : UnitId} {sectorSize : UInt64} {latency : Float} {request : Request}
  {done : Outcome → Program ω} {s : Scheduler σ ω}

theorem size_defer : (s.defer u sectorSize latency request done).slots.size = s.slots.size := by
  unfold defer
  rw [size_activate]
  show (Scheduler.leave _ _ _ _).slots.size = _
  unfold leave
  rw [size_modifySlot, size_cancel]
  exact size_modifySlot u _ _

theorem slot_defer_of_ne (other : u ≠ v) :
    (s.defer u sectorSize latency request done).slot v = s.slot v := by
  unfold defer
  rw [slot_activate]
  show (Scheduler.leave _ _ _ _).slot v = _
  rw [slot_leave_of_ne other, slot_cancel_of_ne other, slot_transfer_of_ne other]

theorem slot_defer_self (inside : u < s.slots.size) :
    (s.defer u sectorSize latency request done).slot u =
      { (s.transfer u sectorSize request).2.slot u with
        delay := Ticks.nonnegative latency
        parked := some ⟨(s.transfer u sectorSize request).1, done⟩ } := by
  have still : u < ((s.transfer u sectorSize request).2.cancel u).slots.size := by
    rw [size_cancel]
    exact (size_modifySlot u _ _).symm ▸ inside
  unfold defer
  rw [slot_activate]
  show (Scheduler.leave _ _ _ _).slot u = _
  rw [slot_leave_self still, slot_cancel]
  split <;> rfl

theorem action_hook_defer (u v : UnitId) :
    ((s.defer u sectorSize latency request done).slot v).action = (s.slot v).action ∧
      ((s.defer u sectorSize latency request done).slot v).hook = (s.slot v).hook := by
  have moved : (((s.transfer u sectorSize request).2.cancel u).slot v).callbacks =
      (s.slot v).callbacks :=
    (callbacks_cancel u v _).trans (callbacks_perform s (.transfer u sectorSize request) v)
  unfold defer
  rw [slot_activate]
  obtain ⟨action, hook⟩ := action_hook_leave u v (Ticks.nonnegative latency)
    ⟨(s.transfer u sectorSize request).1, done⟩ ((s.transfer u sectorSize request).2.cancel u)
  exact ⟨action.trans (congrArg (·.1) moved), hook.trans (congrArg (·.2.1) moved)⟩

theorem mem_units_defer : u ∈ (s.defer u sectorSize latency request done).agenda.units :=
  mem_units_activate u 0 _

theorem mem_units_defer_of_mem (pending : v ∈ s.agenda.units) :
    v ∈ (s.defer u sectorSize latency request done).agenda.units := by
  by_cases same : u = v
  · subst same
    exact mem_units_defer
  · have stays : v ∈ ((s.transfer u sectorSize request).2.cancel u).agenda.units :=
      mem_units_perform (c := .cancel u) pending (by rintro ⟨⟩; exact same rfl)
    exact mem_units_perform (c := .activate u 0) stays nofun

theorem media_defer :
    (s.defer u sectorSize latency request done).media =
      (s.transfer u sectorSize request).2.media := by
  unfold defer
  rw [media_activate]
  exact media_cancel u _

theorem world_defer :
    (s.defer u sectorSize latency request done).world =
      (s.transfer u sectorSize request).2.asked u := by
  unfold defer
  rw [world_activate]
  exact world_cancel u _

end

end Scheduler

end Peripheral
