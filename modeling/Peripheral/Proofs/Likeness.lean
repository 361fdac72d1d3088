import Mathlib.Data.Option.Basic
import Peripheral.Proofs.Submission

/-!
# Programs that behave alike over different worlds

What can be seen of a scheduler does not depend on its callbacks, nor on its world unless a hook swallows
a cancellation. Programs that make the same calls over worlds that are related therefore do the same, and
one of them may keep notes in its world besides.

* `Scheduler.shadow` : a scheduler without callbacks and world (`perform_shadow`, `shadow_cancel`);
* `Program.Like R p q` : `q` does what `p` does, over a world related by `R`, and may look at units and
  at its world and keep notes (`Like.inline`);
* `Scheduler.Alike R` : schedulers of one shadow, with related worlds and callbacks that are alike
  (`Alike.perform`, `Alike.modifySlot`);
* `Like.exec`, `fire_alike`, `processEvent_alike`, `tick_alike` : **programs, firings and dispatches that
  are alike end alike**.
-/

namespace Peripheral

variable {σ ω ω' : Type}

/-! ## Shadows -/

/-- A unit without its callbacks; what a finished transfer came to remains. -/
def Slot.shadow (slot : Slot ω) : Slot Unit :=
  { endpoint := slot.endpoint, owner := slot.owner, delay := slot.delay
    parked := slot.parked.map fun k => ⟨k.outcome, fun _ => .done (.ok ())⟩ }

namespace Scheduler

/-- A scheduler without its callbacks and its world. -/
def shadow (s : Scheduler σ ω) : Scheduler σ Unit :=
  { agenda := s.agenda, slots := s.slots.map Slot.shadow, rate := s.rate, stop := s.stop
    dispatching := s.dispatching, world := (), media := s.media, journal := s.journal }

variable {u : UnitId} {s : Scheduler σ ω}

theorem slot_shadow (u : UnitId) (s : Scheduler σ ω) : s.shadow.slot u = (s.slot u).shadow := by
  unfold slot shadow
  rw [Array.getD_eq_getD_getElem?, Array.getD_eq_getD_getElem?, Array.getElem?_map]
  cases s.slots[u]? <;> rfl

theorem nameOf_shadow (u : UnitId) (s : Scheduler σ ω) : s.shadow.nameOf u = s.nameOf u := by
  rw [nameOf, slot_shadow]
  rfl

theorem shadow_modifySlot {f : Slot ω → Slot ω} {g : Slot Unit → Slot Unit}
    (same : ∀ slot, (f slot).shadow = g slot.shadow) :
    (s.modifySlot u f).shadow = s.shadow.modifySlot u g := by
  have slots : (s.slots.modify u f).map Slot.shadow = (s.slots.map Slot.shadow).modify u g := by
    refine Array.ext_getElem? fun v => ?_
    rw [Array.getElem?_map, Array.getElem?_modify, Array.getElem?_modify, Array.getElem?_map]
    split
    · cases s.slots[v]? with
      | none => rfl
      | some slot => exact congrArg some (same slot)
    · rfl
  unfold shadow modifySlot
  rw [slots]

theorem shadow_setEndpoint (e : Endpoint) (media : σ) :
    ({ s with media }.setEndpoint u e).shadow = { s.shadow with media }.setEndpoint u e :=
  shadow_modifySlot (s := { s with media }) (by intro slot; rfl)

theorem shadow_activate (ticks : Int32) :
    s.shadow.activate u ticks = ((s.activate u ticks).1, (s.activate u ticks).2.shadow) := by
  unfold activate
  rw [nameOf_shadow]
  by_cases active : s.isActive u
  · rw [if_pos active, if_pos (show s.shadow.isActive u = true from active)]
  · rw [if_neg active, if_neg (show ¬s.shadow.isActive u = true from active)]
    rfl

theorem shadow_activateAfter (usecs : Float) :
    s.shadow.activateAfter u usecs =
      ((s.activateAfter u usecs).1, (s.activateAfter u usecs).2.shadow) := by
  unfold activateAfter
  by_cases active : s.isActive u
  · rw [if_pos active, if_pos (show s.shadow.isActive u = true from active)]
  · rw [if_neg active, if_neg (show ¬s.shadow.isActive u = true from active)]
    show ((s.shadow.activate u _).1, (s.shadow.activate u _).2.modifySlot u _) = _
    rw [shadow_activate]
    exact congrArg _ (shadow_modifySlot (by intro slot; rfl)).symm

theorem shadow_unqueue (u : UnitId) (s : Scheduler σ ω) :
    (s.unqueue u).shadow = s.shadow.unqueue u := by
  unfold unqueue
  rw [nameOf_shadow]
  by_cases active : s.isActive u
  · rw [if_pos active, if_pos (show s.shadow.isActive u = true from active)]
    exact shadow_modifySlot (by intro slot; rfl)
  · rw [if_neg active, if_neg (show ¬s.shadow.isActive u = true from active)]

/-- Of the hook, a cancellation shows only whether it was swallowed. -/
theorem shadow_cancel (u : UnitId) (s : Scheduler σ ω) :
    (s.cancel u).shadow = if s.swallows u then s.shadow else s.shadow.unqueue u := by
  rw [cancel_eq]
  split
  · rfl
  · rw [shadow_unqueue]
    rfl

variable [MediaStore σ]

/-- The answer to a call and what it leaves behind can be read off the shadow, but for a
cancellation. -/
theorem perform_shadow (s : Scheduler σ ω) {c : Call} (other : ∀ u, c ≠ .cancel u) :
    s.shadow.perform c = ((s.perform c).1, (s.perform c).2.shadow) := by
  cases c with
  | activate u ticks => exact shadow_activate ticks
  | activateAfter u usecs => exact shadow_activateAfter usecs
  | cancel u => exact absurd rfl (other u)
  | activationTime u =>
    dsimp only [perform]
    rw [activationTime, activationTime, slot_shadow]
    rfl
  | activationUsecs u =>
    dsimp only [perform]
    rw [activationUsecs, activationUsecs, slot_shadow]
    rfl
  | addUnit e =>
    dsimp only [perform, addUnit, shadow]
    rw [Array.size_map, Array.map_push]
    rfl
  | unitCount =>
    dsimp only [perform, shadow]
    rw [Array.size_map]
  | unit u =>
    dsimp only [perform]
    rw [view, view, slot_shadow]
    simp only [Slot.shadow, Option.isSome_map]
  | setPosition u offset =>
    exact congrArg (Prod.mk ()) (shadow_modifySlot (by intro slot; rfl)).symm
  | setCapacity u bytes =>
    exact congrArg (Prod.mk ()) (shadow_modifySlot (by intro slot; rfl)).symm
  | attach u name =>
    dsimp only [perform, attach]
    rw [slot_shadow]
    exact congrArg (fun t => (_, tellAll _ t)) (shadow_setEndpoint _ _).symm
  | detach u =>
    dsimp only [perform, detach]
    rw [slot_shadow]
    exact congrArg (fun t => (_, tellAll _ t)) (shadow_setEndpoint _ _).symm
  | read u offset count =>
    dsimp only [perform]
    rw [read, read, slot_shadow]
    rfl
  | write u offset data =>
    dsimp only [perform, write]
    rw [slot_shadow]
    exact congrArg (Prod.mk _) (shadow_setEndpoint _ _).symm
  | transfer u sectorSize request =>
    dsimp only [perform, transfer]
    rw [slot_shadow]
    exact congrArg (Prod.mk _) (shadow_setEndpoint _ _).symm
  | _ => rfl

end Scheduler

/-! ## Programs that are alike -/

/-- Hooks that decide the same and leave related worlds behind. -/
def Hook.Like (R : ω → ω' → Prop) (hook : Hook ω) (hook' : Hook ω') : Prop :=
  ∀ w w', R w w' → (hook w).1 = (hook' w').1 ∧ R (hook w).2 (hook' w').2

/-- The second program makes the calls of the first one over a world related by `R`. Besides, it may look
at units and at its world, and change the world where that leaves it related. -/
inductive Program.Like (R : ω → ω' → Prop) : Program ω → Program ω' → Prop
  | done (result : Result) : Like R (.done result) (.done result)
  | call {c : Call} {p : c.Answer → Program ω} {q : c.Answer → Program ω'} :
    (∀ answer, Like R (p answer) (q answer)) → Like R (.call c p) (.call c q)
  | look {p : ω → Program ω} {q : ω' → Program ω'} :
    (∀ w w', R w w' → Like R (p w) (q w')) → Like R (.look p) (.look q)
  | change {f : ω → ω} {g : ω' → ω'} {p : Program ω} {q : Program ω'} :
    (∀ w w', R w w' → R (f w) (g w')) → Like R p q → Like R (.change f p) (.change g q)
  | setAction {u : UnitId} {action p : Program ω} {action' q : Program ω'} :
    Like R action action' → Like R p q → Like R (.setAction u action p) (.setAction u action' q)
  | setHook {u : UnitId} {hook : Hook ω} {hook' : Hook ω'} {p : Program ω} {q : Program ω'} :
    Hook.Like R hook hook' → Like R p q → Like R (.setHook u hook p) (.setHook u hook' q)
  | park {u : UnitId} {delay : Float} {outcome : Outcome} {deliver : Outcome → Program ω}
      {deliver' : Outcome → Program ω'} {p : Program ω} {q : Program ω'} :
    (∀ outcome, Like R (deliver outcome) (deliver' outcome)) → Like R p q →
      Like R (.park u delay outcome deliver p) (.park u delay outcome deliver' q)
  | dispatch {p : Result → Program ω} {q : Result → Program ω'} :
    (∀ result, Like R (p result) (q result)) → Like R (.dispatch p) (.dispatch q)
  -- what the second program does for itself
  | view {u : UnitId} {p : Program ω} {q : UnitView → Program ω'} :
    (∀ unit, Like R p (q unit)) → Like R p (.call (.unit u) q)
  | peek {p : Program ω} {q : ω' → Program ω'} : (∀ w', Like R p (q w')) → Like R p (.look q)
  | note {f : ω' → ω'} {p : Program ω} {q : Program ω'} :
    (∀ w w', R w w' → R w (f w')) → Like R p q → Like R p (.change f q)

variable {R : ω → ω' → Prop}

theorem Program.Like.inline {p : Program ω} {q : Program ω'} (like : Like R p q)
    {next : Result → Program ω} {next' : Result → Program ω'}
    (rest : ∀ result, Like R (next result) (next' result)) :
    Like R (Act.inline p next) (Act.inline q next') := by
  induction like with
  | done result => exact rest result
  | call _ ih => exact .call ih
  | look _ ih => exact .look ih
  | change keeps _ ih => exact .change keeps ih
  | setAction action _ _ ih => exact .setAction action ih
  | setHook hook _ ih => exact .setHook hook ih
  | park deliver _ _ ih => exact .park deliver ih
  | dispatch _ ih => exact .dispatch ih
  | view _ ih => exact .view ih
  | peek _ ih => exact .peek ih
  | note keeps _ ih => exact .note keeps ih

structure Parked.Like (R : ω → ω' → Prop) (k : Parked ω) (k' : Parked ω') : Prop where
  outcome : k.outcome = k'.outcome
  deliver : ∀ outcome, Program.Like R (k.deliver outcome) (k'.deliver outcome)

structure Slot.Like (R : ω → ω' → Prop) (slot : Slot ω) (slot' : Slot ω') : Prop where
  action : Option.Rel (Program.Like R) slot.action slot'.action
  hook : Option.Rel (Hook.Like R) slot.hook slot'.hook
  parked : Option.Rel (Parked.Like R) slot.parked slot'.parked

theorem Slot.Like.keep {slot new : Slot ω} {slot' new' : Slot ω'} (like : slot.Like R slot')
    (same : new.callbacks = slot.callbacks) (same' : new'.callbacks = slot'.callbacks) :
    new.Like R new' := by
  simp only [callbacks, Prod.mk.injEq] at same same'
  obtain ⟨action, hook, parked⟩ := same
  obtain ⟨action', hook', parked'⟩ := same'
  exact ⟨action ▸ action' ▸ like.action, hook ▸ hook' ▸ like.hook, parked ▸ parked' ▸ like.parked⟩

/-! ## Schedulers that are alike -/

/-- Schedulers of one shadow, with related worlds and callbacks that are alike. -/
structure Scheduler.Alike (R : ω → ω' → Prop) (s : Scheduler σ ω) (t : Scheduler σ ω') : Prop where
  seen : s.shadow = t.shadow
  worlds : R s.world t.world
  likes : ∀ u, (s.slot u).Like R (t.slot u)

structure Scheduler.EndsAlike {α : Type} (R : ω → ω' → Prop) (a : α × Scheduler σ ω)
    (b : α × Scheduler σ ω') : Prop where
  answer : a.1 = b.1
  alike : a.2.Alike R b.2

/-- Steps that end alike, if they end, where the schedulers are alike before. -/
def Motion.Alike (R : ω → ω' → Prop) (m : Motion σ ω) (m' : Motion σ ω') : Prop :=
  ∀ s t, Scheduler.Alike R s t → Option.Rel (Scheduler.EndsAlike R) (m s) (m' t)

/-- Of two steps that end alike, neither ends, or both do with one answer. -/
theorem Scheduler.ends_alike {α : Type} {a : Option (α × Scheduler σ ω)}
    {b : Option (α × Scheduler σ ω')} (ended : Option.Rel (EndsAlike R) a b) :
    a = none ∧ b = none ∨
      ∃ answer s t, a = some (answer, s) ∧ b = some (answer, t) ∧ s.Alike R t := by
  cases ended with
  | none => exact .inl ⟨rfl, rfl⟩
  | @some a b ended =>
    obtain ⟨answer, s⟩ := a
    obtain ⟨answer', t⟩ := b
    cases ended.answer
    exact .inr ⟨answer, s, t, rfl, rfl, ended.alike⟩

namespace Scheduler

section
variable {s : Scheduler σ ω} {t : Scheduler σ ω'} {u : UnitId}

theorem Alike.slot (alike : s.Alike R t) (u : UnitId) : (s.slot u).shadow = (t.slot u).shadow := by
  rw [← slot_shadow, alike.seen, slot_shadow]

theorem Alike.agenda (alike : s.Alike R t) : s.agenda = t.agenda :=
  congrArg (fun s : Scheduler σ Unit => s.agenda) alike.seen

theorem Alike.stop (alike : s.Alike R t) : s.stop = t.stop :=
  congrArg (fun s : Scheduler σ Unit => s.stop) alike.seen

theorem Alike.nameOf (alike : s.Alike R t) (u : UnitId) : s.nameOf u = t.nameOf u := by
  rw [← nameOf_shadow, alike.seen, nameOf_shadow]

theorem Alike.size (alike : s.Alike R t) : s.slots.size = t.slots.size := by
  have same := congrArg (fun s : Scheduler σ Unit => s.slots.size) alike.seen
  simpa only [shadow, Array.size_map] using same

theorem Alike.beside (alike : s.Alike R t) {s' : Scheduler σ ω} {t' : Scheduler σ ω'}
    (f : Scheduler σ Unit → Scheduler σ Unit) (left : s'.shadow = f s.shadow)
    (right : t'.shadow = f t.shadow) (slots : s'.slots = s.slots) (slots' : t'.slots = t.slots)
    (world : s'.world = s.world) (world' : t'.world = t.world) : s'.Alike R t' where
  seen := by rw [left, right, alike.seen]
  worlds := by rw [world, world']; exact alike.worlds
  likes u := by rw [slot_of_slots slots, slot_of_slots slots']; exact alike.likes u

theorem start_alike (idleWait : Int32) (rate : Float) {w : ω} {w' : ω'} (worlds : R w w') (media : σ)
    (journal : Journal) :
    (Scheduler.start idleWait rate w media journal).Alike R (.start idleWait rate w' media journal) where
  seen := by
    unfold shadow start
    rw [Array.map_empty, Array.map_empty]
  worlds := worlds
  likes u := ⟨.none, .none, .none⟩

theorem Alike.tell (alike : s.Alike R t) (m : Message) : (s.tell m).Alike R (t.tell m) :=
  alike.beside (·.tell m) rfl rfl rfl rfl rfl rfl

theorem Alike.modifySlot (alike : s.Alike R t) {f : Slot ω → Slot ω} {g : Slot ω' → Slot ω'}
    (h : Slot Unit → Slot Unit) (left : ∀ slot, (f slot).shadow = h slot.shadow)
    (right : ∀ slot, (g slot).shadow = h slot.shadow)
    (likes : (s.slot u).Like R (t.slot u) → (f (s.slot u)).Like R (g (t.slot u))) :
    (s.modifySlot u f).Alike R (t.modifySlot u g) where
  seen := by rw [shadow_modifySlot left, shadow_modifySlot right, alike.seen]
  worlds := alike.worlds
  likes v := by
    rw [slot_modifySlot, slot_modifySlot, alike.size]
    split
    · rename_i both
      rw [← both.1]
      exact likes (alike.likes u)
    · exact alike.likes v

theorem Alike.swallows (alike : s.Alike R t) (u : UnitId) :
    s.swallows u = t.swallows u ∧ R (s.asked u) (t.asked u) := by
  unfold Scheduler.swallows asked
  have hooks := (alike.likes u).hook
  generalize (s.slot u).hook = hook, (t.slot u).hook = hook' at hooks ⊢
  cases hooks with
  | none => exact ⟨rfl, alike.worlds⟩
  | some hook => exact hook _ _ alike.worlds

variable [MediaStore σ]

theorem Alike.perform (alike : s.Alike R t) (c : Call) :
    EndsAlike R (s.perform c) (t.perform c) := by
  have likes : ∀ v, ((s.perform c).2.slot v).Like R ((t.perform c).2.slot v) := fun v =>
    (alike.likes v).keep (callbacks_perform s c v) (callbacks_perform t c v)
  -- A cancellation alone asks a callback; any other call can be read off the shadow.
  by_cases cancels : ∃ u, c = .cancel u
  · obtain ⟨u, rfl⟩ := cancels
    obtain ⟨swallows, asked⟩ := alike.swallows u
    refine ⟨rfl, ?_, ?_, likes⟩
    · show (s.cancel u).shadow = (t.cancel u).shadow
      rw [shadow_cancel, shadow_cancel, swallows, alike.seen]
    · rw [world_perform, world_perform]
      exact asked
  · have other : ∀ u, c ≠ .cancel u := fun u same => cancels ⟨u, same⟩
    have same : ((s.perform c).1, (s.perform c).2.shadow) = ((t.perform c).1, (t.perform c).2.shadow) := by
      rw [← perform_shadow s other, ← perform_shadow t other, alike.seen]
    obtain ⟨answer, seen⟩ := Prod.mk.inj same
    refine ⟨answer, seen, ?_, likes⟩
    rw [world_perform, world_perform]
    cases c with
    | cancel u => exact absurd rfl (other u)
    | _ => exact alike.worlds

end

end Scheduler

section
variable [MediaStore σ]

/-- Programs that are alike end alike, if dispatches from inside them do. -/
theorem Program.Like.exec {p : Program ω} {q : Program ω'} (like : Like R p q) {dispatch : Motion σ ω}
    {dispatch' : Motion σ ω'} (inner : dispatch.Alike R dispatch') :
    Motion.Alike R (p.exec dispatch) (q.exec dispatch') := by
  induction like with
  | done result => exact fun s t alike => .some ⟨rfl, alike⟩
  | @call c p q _ ih =>
    intro s t alike
    have performed := alike.perform c
    simp only [Program.exec]
    generalize s.perform c = a, t.perform c = b at performed ⊢
    obtain ⟨answer, s⟩ := a
    obtain ⟨answer', t⟩ := b
    obtain ⟨rfl, after⟩ := performed
    exact ih _ _ _ after
  | look _ ih => exact fun s t alike => ih _ _ alike.worlds s t alike
  | change keeps _ ih => exact fun s t alike => ih _ _ ⟨alike.seen, keeps _ _ alike.worlds, alike.likes⟩
  | setAction action _ _ ih =>
    exact fun s t alike => ih _ _ <| alike.modifySlot id (by intro slot; rfl) (by intro slot; rfl)
      fun like => ⟨.some action, like.hook, like.parked⟩
  | setHook hook _ ih =>
    exact fun s t alike => ih _ _ <| alike.modifySlot id (by intro slot; rfl) (by intro slot; rfl)
      fun like => ⟨like.action, .some hook, like.parked⟩
  | @park u delay outcome deliver deliver' p q likes _ _ ih =>
    exact fun s t alike => ih _ _ <| alike.modifySlot
      (fun slot => { slot with delay, parked := some ⟨outcome, fun _ => .done (.ok ())⟩ })
      (by intro slot; rfl) (by intro slot; rfl)
      fun like => ⟨like.action, like.hook, .some ⟨rfl, likes⟩⟩
  | dispatch _ ih =>
    intro s t alike
    simp only [Program.exec]
    rcases Scheduler.ends_alike (inner s t alike) with ⟨left, right⟩ | ⟨result, s', t', left, right, after⟩
    · rw [left, right]
      exact .none
    · rw [left, right]
      exact ih result s' t' after
  | @view u p q _ ih => exact fun s t alike => ih (t.view u) s t alike
  | peek _ ih => exact fun s t alike => ih _ s t alike
  | note keeps _ ih => exact fun s t alike => ih _ _ ⟨alike.seen, keeps _ _ alike.worlds, alike.likes⟩

namespace Scheduler

/-- A unit fires the same for schedulers that are alike. -/
theorem fire_alike {dispatch : Motion σ ω} {dispatch' : Motion σ ω'} (inner : dispatch.Alike R dispatch')
    (u : UnitId) : Motion.Alike R (fire dispatch u) (fire dispatch' u) := by
  intro s t alike
  have delay : (s.slot u).delay = (t.slot u).delay := congrArg Slot.delay (alike.slot u)
  have name : (s.slot u).endpoint.name = (t.slot u).endpoint.name := alike.nameOf u
  simp only [fire]
  rw [delay, name]
  split
  · have ready := (alike.tell (.requeueing (t.slot u).endpoint.name (t.slot u).delay)).modifySlot
      (u := u) (f := fun slot => { slot with delay := 0 }) (g := fun slot => { slot with delay := 0 })
      (fun slot => { slot with delay := 0 }) (by intro slot; rfl) (by intro slot; rfl)
      fun like => ⟨like.action, like.hook, like.parked⟩
    exact .some ⟨rfl, (ready.perform (.activateAfter u (t.slot u).delay)).alike⟩
  · have parked := (alike.likes u).parked
    have action := (alike.likes u).action
    generalize (s.slot u).parked = k, (t.slot u).parked = k' at parked ⊢
    cases parked with
    | some likes =>
      dsimp only
      rw [likes.outcome]
      exact (likes.deliver _).exec inner _ _ <| (alike.tell _).modifySlot
        (fun slot => { slot with parked := none }) (by intro slot; rfl) (by intro slot; rfl)
        fun like => ⟨like.action, like.hook, .none⟩
    | none =>
      dsimp only
      generalize (s.slot u).action = a, (t.slot u).action = a' at action ⊢
      cases action with
      | none => exact .some ⟨rfl, alike.tell _⟩
      | some like =>
        dsimp only
        have taken := (alike.tell (.firing (t.slot u).endpoint.name)).modifySlot (u := u)
          (f := fun slot => { slot with action := none }) (g := fun slot => { slot with action := none })
          id (by intro slot; rfl) (by intro slot; rfl) fun like => ⟨.none, like.hook, like.parked⟩
        rcases ends_alike (like.exec inner _ _ taken) with
          ⟨left, right⟩ | ⟨result, s', t', left, right, after⟩
        · rw [left, right]
          exact .none
        · rw [left, right]
          refine .some ⟨rfl, after.modifySlot id (by intro slot; rfl) (by intro slot; rfl) fun like' => ?_⟩
          refine ⟨?_, like'.hook, like'.parked⟩
          have installed := like'.action
          generalize (s'.slot u).action = b, (t'.slot u).action = b' at installed ⊢
          cases installed with
          | none => exact .some like
          | some other => exact .some other

section
variable {s : Scheduler σ ω} {t : Scheduler σ ω'}

omit [MediaStore σ] in
theorem Alike.tellAnomaly (alike : s.Alike R t) (u : UnitId) (result : Result) :
    (s.tellAnomaly u result).Alike R (t.tellAnomaly u result) := by
  unfold Scheduler.tellAnomaly
  split
  · exact alike
  · rw [alike.nameOf u]
    split
    · exact alike
    · exact alike.tell _

omit [MediaStore σ] in
theorem Alike.leave (alike : s.Alike R t) (result : Result) :
    EndsAlike R
      (if result.isOk && s.stop then
        (Except.error Status.stopped, { s with stop := false, dispatching := false })
      else (result, { s with dispatching := false }))
      (if result.isOk && t.stop then
        (Except.error Status.stopped, { t with stop := false, dispatching := false })
      else (result, { t with dispatching := false })) := by
  by_cases asked : result.isOk && t.stop
  · rw [if_pos asked, if_pos (alike.stop ▸ asked)]
    exact ⟨rfl, alike.beside (fun s => { s with stop := false, dispatching := false })
      rfl rfl rfl rfl rfl rfl⟩
  · rw [if_neg asked, if_neg (alike.stop ▸ asked)]
    exact ⟨rfl, alike.beside (fun s => { s with dispatching := false }) rfl rfl rfl rfl rfl rfl⟩

omit [MediaStore σ] in
theorem Alike.conclude (alike : s.Alike R t) (result : Result) :
    EndsAlike R (s.conclude result) (t.conclude result) := by
  unfold Scheduler.conclude
  rw [alike.agenda]
  cases t.agenda.queue with
  | nil =>
    have rested : ({ s with agenda := t.agenda.rearm } : Scheduler σ ω).Alike R
        { t with agenda := t.agenda.rearm } :=
      alike.beside (fun s => { s with agenda := t.agenda.rearm }) rfl rfl rfl rfl rfl rfl
    exact (rested.tell (.drained t.agenda.rearm.interval none)).leave result
  | cons e rest =>
    dsimp only
    rw [alike.nameOf]
    exact (alike.tell (.drained t.agenda.interval (some (t.nameOf e.unit)))).leave result

end

omit [MediaStore σ] in
theorem process_alike {drain : Motion σ ω} {drain' : Motion σ ω'} (inner : drain.Alike R drain') :
    Motion.Alike R (process drain) (process drain') := by
  intro s t alike
  simp only [process]
  by_cases asked : t.stop
  · rw [if_pos asked, if_pos (alike.stop ▸ asked)]
    exact .some ⟨rfl, alike.beside (fun s => { s with stop := false }) rfl rfl rfl rfl rfl rfl⟩
  · rw [if_neg asked, if_neg (alike.stop ▸ asked), alike.agenda]
    split
    · have rested : ({ s with agenda := t.agenda.settle.rearm } : Scheduler σ ω).Alike R
          { t with agenda := t.agenda.settle.rearm } :=
        alike.beside (fun s => { s with agenda := t.agenda.settle.rearm }) rfl rfl rfl rfl rfl rfl
      exact .some ⟨rfl, rested.tell _⟩
    · have started : ({ s with agenda := t.agenda.settle, dispatching := true } : Scheduler σ ω).Alike R
          { t with agenda := t.agenda.settle, dispatching := true } :=
        alike.beside (fun s => { s with agenda := t.agenda.settle, dispatching := true })
          rfl rfl rfl rfl rfl rfl
      rcases ends_alike (inner _ _ started) with ⟨left, right⟩ | ⟨result, s', t', left, right, after⟩
      · rw [left, right]
        exact .none
      · rw [left, right]
        exact .some (after.conclude result)

theorem drain_alike (pops : Nat) :
    Motion.Alike R (drain pops : Motion σ ω) (drain pops : Motion σ ω') := by
  induction pops with
  | zero => exact fun s t _ => .none
  | succ pops ih =>
    intro s t alike
    rw [drain, drain, alike.agenda]
    cases t.agenda.pop? with
    | none => exact .some ⟨rfl, alike⟩
    | some head =>
      obtain ⟨u, agenda⟩ := head
      have popped : ({ s with agenda } : Scheduler σ ω).Alike R { t with agenda } :=
        alike.beside (fun s => { s with agenda }) rfl rfl rfl rfl rfl rfl
      dsimp only
      rcases ends_alike (fire_alike (process_alike ih) u _ _ popped) with
        ⟨left, right⟩ | ⟨result, s', t', left, right, after⟩
      · rw [left, right]
        exact .none
      · have told := after.tellAnomaly u result
        have on : (s'.tellAnomaly u result).goesOn result = (t'.tellAnomaly u result).goesOn result := by
          rw [goesOn, goesOn, told.agenda, told.stop]
        rw [left, right]
        dsimp only
        rw [on]
        split
        · exact ih _ _ told
        · exact .some ⟨rfl, told⟩

theorem processEvent_alike (pops : Nat) :
    Motion.Alike R (processEvent pops : Motion σ ω) (processEvent pops : Motion σ ω') :=
  process_alike (drain_alike pops)

theorem tick_alike (pops : Nat) :
    Motion.Alike R (tick pops : Motion σ ω) (tick pops : Motion σ ω') := by
  intro s t alike
  rw [tick, tick, alike.agenda]
  split
  · rcases ends_alike (processEvent_alike pops s t alike) with
      ⟨left, right⟩ | ⟨result, s', t', left, right, after⟩
    · rw [left, right]
      exact .none
    · rw [left, right]
      cases result with
      | error status => exact .some ⟨rfl, after⟩
      | ok => exact .some ⟨rfl, (after.perform (.consume 1)).alike⟩
  · exact .some ⟨rfl, (alike.perform (.consume 1)).alike⟩

end Scheduler

theorem Program.Like.run {p : Program ω} {q : Program ω'} (like : Like R p q) (pops : Nat) :
    Motion.Alike R (p.run pops : Motion σ ω) (q.run pops) :=
  like.exec (Scheduler.processEvent_alike pops)

end

end Peripheral
