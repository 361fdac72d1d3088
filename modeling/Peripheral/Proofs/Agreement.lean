import Peripheral.Proofs.Course
import Peripheral.Proofs.Submission
import Peripheral.Storage.MemoryImages

/-!
# Deferred and immediate transfers agree

The same requests are made of one unit over an immediate and over a deferred backend, by programs whose
completions only note the outcome in the world.

* `note` : note an outcome; `Deed` : requests, and what else becomes of the medium of the unit;
* `Program.Aloof u` : programs that leave media, the unit and the notes alone;
* `Mirrors u a b` : the schedulers `a` and `b` differ in the outcome that the unit still holds in `b`
  (`Aloof.keeps`, `Mirrors.fire`, `Aloof.run`);
* `Mirrors.deed` : what the immediate backend does, the deferred one does, its outcome noted later;
* `Leisurely` : deeds over a deferred backend, with ticks in between;
* `deferred_agrees_with_immediate` : **both give the same results, media and outcomes**.
-/

namespace Peripheral

variable {σ ω : Type}

/-! ## Programs that keep out of the way -/

def Call.Aloof (u : UnitId) : Call → Prop
  | .setPosition v _ | .setCapacity v _ => v ≠ u
  | .attach _ _ | .detach _ | .read _ _ _ | .write _ _ _ | .transfer _ _ _ => False
  | .openMedium _ _ | .mediumLength _ | .readMedium _ _ _ | .writeMedium _ _ _ => False
  | .flushMedium _ | .install _ _ => False
  | _ => True

def Hook.Aloof (hook : Hook ω) : Prop := ∀ world, (hook world).2 = world

/-- Neither the program nor any callback that it installs touches media, the world, or the endpoint and
the transfer of a unit. -/
inductive Program.Aloof (u : UnitId) : Program ω → Prop
  | done (result : Result) : Aloof u (.done result)
  | call {c : Call} {next : c.Answer → Program ω} :
    c.Aloof u → (∀ answer, Aloof u (next answer)) → Aloof u (.call c next)
  | look {next : ω → Program ω} : (∀ world, Aloof u (next world)) → Aloof u (.look next)
  | setAction {v : UnitId} {action next : Program ω} :
    Aloof u action → Aloof u next → Aloof u (.setAction v action next)
  | setHook {v : UnitId} {hook : Hook ω} {next : Program ω} :
    hook.Aloof → Aloof u next → Aloof u (.setHook v hook next)
  | park {v : UnitId} {delay : Float} {outcome : Outcome} {deliver : Outcome → Program ω}
      {next : Program ω} :
    v ≠ u → (∀ outcome, Aloof u (deliver outcome)) → Aloof u next →
      Aloof u (.park v delay outcome deliver next)
  | dispatch {next : Result → Program ω} :
    (∀ result, Aloof u (next result)) → Aloof u (.dispatch next)

theorem Act.aloof_tick (u : UnitId) : (Act.tick .done : Program ω).Aloof u := by
  have spend : (Program.call (.consume 1) fun _ => .done (.ok ()) : Program ω).Aloof u :=
    .call trivial fun _ => .done _
  rw [Scheduler.tick_program]
  refine .call trivial fun agenda => ?_
  split
  · refine .dispatch fun result => ?_
    cases result with
    | error status => exact .done _
    | ok => exact spend
  · exact spend

namespace Scheduler

section
variable [MediaStore σ] {u : UnitId} {s : Scheduler σ ω} {c : Call}

theorem media_perform (aloof : c.Aloof u) : (s.perform c).2.media = s.media := by
  rw [mediaAfter_perform]
  cases c with
  | attach | detach | read | write | transfer => exact aloof.elim
  | openMedium | mediumLength | readMedium | writeMedium | flushMedium | install => exact aloof.elim
  | _ => rfl

theorem endpoint_perform (aloof : c.Aloof u) (inside : u < s.slots.size) :
    ((s.perform c).2.slot u).endpoint = (s.slot u).endpoint := by
  have altered := alters_perform s c u
  generalize ((s.perform c).2.slot u).endpoint = e at altered ⊢
  cases altered with
  | kept => rfl
  | added e new => exact absurd new (Nat.ne_of_lt inside)
  | positioned | resized => exact absurd rfl aloof
  | attached | detached | written | moved => exact aloof.elim

end

end Scheduler

/-! ## Schedulers that mirror each other -/

def note (outcome : Outcome) : Program (List Outcome) :=
  .change (· ++ [outcome]) (.done (.ok ()))

def Scheduler.held (u : UnitId) (s : Scheduler σ (List Outcome)) : List Outcome :=
  ((s.slot u).parked.map Parked.outcome).toList

/-- In `b` the unit may still hold an outcome that is noted in `a`. Apart from that, media, notes and the
unit are the same, and all that is installed in `b` keeps out of the way. -/
structure Mirrors (u : UnitId) (a b : Scheduler σ (List Outcome)) : Prop where
  installs : b.Installs (Program.Aloof u) Hook.Aloof (· = u)
  inside : u < a.slots.size ∧ u < b.slots.size
  endpoint : (b.slot u).endpoint = (a.slot u).endpoint
  media : b.media = a.media
  completes : ∀ k, (b.slot u).parked = some k → k.deliver = note
  world : a.world = b.world ++ b.held u

namespace Mirrors

variable {u : UnitId} {a b c : Scheduler σ (List Outcome)}

/-- What is neither callback, endpoint, medium nor note may change. -/
theorem move (mirrors : Mirrors u a b) (callbacks : ∀ v, (c.slot v).callbacks = (b.slot v).callbacks)
    (size : b.slots.size ≤ c.slots.size) (endpoint : (c.slot u).endpoint = (b.slot u).endpoint)
    (media : c.media = b.media) (world : c.world = b.world) : Mirrors u a c := by
  have parked : (c.slot u).parked = (b.slot u).parked := congrArg (·.2.2) (callbacks u)
  refine ⟨mirrors.installs.of_callbacks callbacks,
    ⟨mirrors.inside.1, Nat.lt_of_lt_of_le mirrors.inside.2 size⟩, endpoint.trans mirrors.endpoint,
    media.trans mirrors.media, fun k there => mirrors.completes k (parked ▸ there), ?_⟩
  rw [world, Scheduler.held, parked]
  exact mirrors.world

theorem of_same (mirrors : Mirrors u a b) (slots : c.slots = b.slots) (media : c.media = b.media)
    (world : c.world = b.world) : Mirrors u a c := by
  have slot : ∀ v, c.slot v = b.slot v := Scheduler.slot_of_slots slots
  exact mirrors.move (fun v => by rw [slot]) (Nat.le_of_eq (by rw [slots])) (by rw [slot]) media world

theorem steady : Scheduler.Steady (Mirrors u a) where
  tell _ _ mirrors := mirrors.of_same rfl rfl rfl
  stop _ _ mirrors := mirrors.of_same rfl rfl rfl
  dispatching _ _ mirrors := mirrors.of_same rfl rfl rfl
  settle _ mirrors := mirrors.of_same rfl rfl rfl
  rearm _ mirrors _ := mirrors.of_same rfl rfl rfl

theorem modifySlot (mirrors : Mirrors u a b) {v : UnitId}
    (f : Slot (List Outcome) → Slot (List Outcome))
    (actions : ∀ p, (f (b.slot v)).action = some p → p.Aloof u)
    (hooks : ∀ hook, (f (b.slot v)).hook = some hook → hook.Aloof)
    (guests : v ≠ u → ∀ k, (f (b.slot v)).parked = some k → ∀ outcome, (k.deliver outcome).Aloof u)
    (self : v = u → (f (b.slot v)).endpoint = (b.slot v).endpoint ∧
      (f (b.slot v)).parked = (b.slot v).parked) : Mirrors u a (b.modifySlot v f) := by
  have same : ((b.modifySlot v f).slot u).endpoint = (b.slot u).endpoint ∧
      ((b.modifySlot v f).slot u).parked = (b.slot u).parked := by
    rw [Scheduler.slot_modifySlot]
    split
    · rename_i both
      obtain ⟨rfl, -⟩ := both
      exact self rfl
    · exact ⟨rfl, rfl⟩
  refine ⟨mirrors.installs.modifySlot f actions hooks guests, ?_, same.1.trans mirrors.endpoint,
    mirrors.media, fun k there => mirrors.completes k (same.2 ▸ there), ?_⟩
  · rw [Scheduler.size_modifySlot]
    exact mirrors.inside
  · rw [Scheduler.held, same.2]
    exact mirrors.world

theorem asked (mirrors : Mirrors u a b) (v : UnitId) : b.asked v = b.world := by
  unfold Scheduler.asked
  cases installed : (b.slot v).hook with
  | none => rfl
  | some hook => exact mirrors.installs.hooks v hook installed b.world

variable [MediaStore σ]

theorem perform (mirrors : Mirrors u a b) {c : Call} (aloof : c.Aloof u) :
    Mirrors u a (b.perform c).2 := by
  refine mirrors.move (b.callbacks_perform c) (b.size_perform c)
    (Scheduler.endpoint_perform aloof mirrors.inside.2) (Scheduler.media_perform aloof) ?_
  rw [Scheduler.world_perform]
  cases c with
  | cancel v => exact mirrors.asked v
  | _ => rfl

end Mirrors

section
variable [MediaStore σ] {u : UnitId} {a b : Scheduler σ (List Outcome)}

/-- Programs that keep out of the way keep the mirror image. -/
theorem Program.Aloof.keeps {p : Program (List Outcome)} (aloof : p.Aloof u)
    {dispatch : Motion σ (List Outcome)} (inner : dispatch.Keeps (Mirrors u a)) :
    Motion.Keeps (Mirrors u a) (p.exec dispatch) := by
  induction aloof with
  | done result =>
    intro s mirrors result t ended
    cases ended
    exact mirrors
  | call aloof _ ih => exact fun s mirrors => ih _ _ (mirrors.perform aloof)
  | look _ ih => exact fun s mirrors => ih _ s mirrors
  | setAction action _ _ ih =>
    exact fun s mirrors => ih _ (mirrors.modifySlot _
      (fun p there => Option.some.inj there ▸ action) (mirrors.installs.hooks _)
      (mirrors.installs.guests _) fun _ => ⟨rfl, rfl⟩)
  | setHook aloof _ ih =>
    exact fun s mirrors => ih _ (mirrors.modifySlot _ (mirrors.installs.actions _)
      (fun hook there => Option.some.inj there ▸ aloof) (mirrors.installs.guests _)
      fun _ => ⟨rfl, rfl⟩)
  | park other deliver _ _ ih =>
    exact fun s mirrors => ih _ (mirrors.modifySlot _ (mirrors.installs.actions _)
      (mirrors.installs.hooks _) (fun _ k there => Option.some.inj there ▸ deliver)
      fun same => absurd same other)
  | dispatch _ ih =>
    intro s mirrors result t ended
    simp only [Program.exec] at ended
    split at ended
    · cases ended
    · rename_i dispatched
      exact ih _ _ (inner s mirrors _ _ dispatched) _ _ ended

namespace Mirrors

omit [MediaStore σ] in
theorem handOver (mirrors : Mirrors u a b) {k : Parked (List Outcome)}
    (holds : (b.slot u).parked = some k) :
    Mirrors u a { b.modifySlot u fun slot => { slot with parked := none } with
      world := b.world ++ [k.outcome] } := by
  have emptied := Scheduler.slot_modifySlot_self mirrors.inside.2
    fun slot => { slot with parked := none }
  refine ⟨?_, ?_, ?_, mirrors.media, fun k there => ?_, ?_⟩
  · refine (mirrors.installs.modifySlot (fun slot => { slot with parked := none })
      (mirrors.installs.actions u) (mirrors.installs.hooks u) fun _ _ => nofun).of_callbacks fun _ => rfl
  · refine ⟨mirrors.inside.1, ?_⟩
    show u < (b.modifySlot u _).slots.size
    rw [Scheduler.size_modifySlot]
    exact mirrors.inside.2
  · exact (congrArg Slot.endpoint emptied).trans mirrors.endpoint
  · cases (congrArg Slot.parked emptied).symm.trans there
  · have world := mirrors.world
    rw [Scheduler.held, holds] at world
    rw [world, Scheduler.held]
    show _ = _ ++ (((b.modifySlot u _).slot u).parked.map Parked.outcome).toList
    rw [emptied]
    exact (List.append_nil _).symm

/-- A unit that comes up keeps the mirror image. -/
theorem fire {dispatch : Motion σ (List Outcome)} (inner : dispatch.Keeps (Mirrors u a))
    (v : UnitId) : Motion.Keeps (Mirrors u a) (Scheduler.fire dispatch v) := by
  intro s mirrors result t fired
  have told := fun m => steady.tell s m mirrors
  have installs := mirrors.installs
  cases Scheduler.fired_of_fire fired with
  | waits =>
    refine Mirrors.perform (c := .activateAfter v (s.slot v).delay) ?_ trivial
    exact (told _).modifySlot _ (installs.actions v) (installs.hooks v) (installs.guests v)
      fun _ => ⟨rfl, rfl⟩
  | @handsOver k _ _ _ holds ran =>
    by_cases self : v = u
    · subst self
      rw [mirrors.completes k holds] at ran
      cases ran
      exact (told (.completing (s.slot v).endpoint.name)).handOver holds
    · refine (installs.guests v self k holds k.outcome).keeps inner _ ?_ _ _ ran
      exact (told _).modifySlot _ (installs.actions v) (installs.hooks v) (fun _ _ => nofun)
        fun same => absurd same self
  | rests => exact told _
  | @acts action _ t _ idle installed ran =>
    have aloof := installs.actions v action installed
    have left : Mirrors u a t := by
      refine aloof.keeps inner _ ?_ _ _ ran
      exact (told _).modifySlot _ (fun _ => nofun) (installs.hooks v) (installs.guests v)
        fun _ => ⟨rfl, rfl⟩
    refine left.modifySlot _ (fun p there => ?_) (left.installs.hooks v) (left.installs.guests v)
      fun _ => ⟨rfl, rfl⟩
    rcases Option.or_eq_some_iff.1 there with new | ⟨-, old⟩
    · exact left.installs.actions v p new
    · rwa [← Option.some.inj old]

theorem processEvent (pops : Nat) :
    Motion.Keeps (Mirrors u a) (Scheduler.processEvent pops : Motion σ (List Outcome)) := by
  refine Scheduler.process_keeps steady (fun _ => id) (fun s => steady.stop s false) steady.settle ?_
  refine Scheduler.drain_keeps steady (fun _ inner v agenda s mirrors _ => ?_) pops
  exact fire inner v _ (mirrors.of_same rfl rfl rfl)

end Mirrors

theorem Program.Aloof.run {p : Program (List Outcome)} (aloof : p.Aloof u) (pops : Nat) :
    Motion.Keeps (Mirrors u a) (p.run pops : Motion σ (List Outcome)) :=
  aloof.keeps (Mirrors.processEvent pops)

/-! ## Deeds -/

/-- What becomes of a unit and its medium: a transfer is asked for, the unit is attached or detached, or
the bytes under a name are replaced. -/
inductive Deed where
  | ask (request : Request)
  | attach (name : String)
  | detach
  | install (name : String) (data : Bytes)
deriving Inhabited

/-- A deed as a program; the outcome of a transfer is noted. -/
def Deed.program (backend : Backend) (u : UnitId) : Deed → Program (List Outcome)
  | .ask request => backend.submit u request note .done
  | .attach name => .call (.attach u name) .done
  | .detach => .call (.detach u) .done
  | .install name data => .call (.install name data) fun _ => .done (.ok ())

namespace Mirrors

omit [MediaStore σ] in
theorem onMedium (mirrors : Mirrors u a b) (e : Endpoint) (media : σ) (journal journal' : Journal) :
    Mirrors u { { a with media }.setEndpoint u e with journal }
      { { b with media }.setEndpoint u e with journal := journal' } := by
  have left : (a.setEndpoint u e).slot u = { a.slot u with endpoint := e } :=
    Scheduler.slot_modifySlot_self mirrors.inside.1 _
  have right : (b.setEndpoint u e).slot u = { b.slot u with endpoint := e } :=
    Scheduler.slot_modifySlot_self mirrors.inside.2 _
  have callbacks := fun v => Scheduler.callbacks_setEndpoint u v e b
  have parked : ((b.setEndpoint u e).slot u).parked = (b.slot u).parked := congrArg (·.2.2) (callbacks u)
  refine ⟨mirrors.installs.of_callbacks callbacks, ?_, ?_, rfl,
    fun k there => mirrors.completes k (parked ▸ there), ?_⟩
  · show u < (a.setEndpoint u e).slots.size ∧ u < (b.setEndpoint u e).slots.size
    unfold Scheduler.setEndpoint
    rw [Scheduler.size_modifySlot, Scheduler.size_modifySlot]
    exact mirrors.inside
  · show ((b.setEndpoint u e).slot u).endpoint = ((a.setEndpoint u e).slot u).endpoint
    rw [left, right]
  · show a.world = b.world ++ (((b.setEndpoint u e).slot u).parked.map Parked.outcome).toList
    rw [parked]
    exact mirrors.world

theorem attach (mirrors : Mirrors u a b) (name : String) :
    (b.attach u name).1 = (a.attach u name).1 ∧
      Mirrors u (a.attach u name).2 (b.attach u name).2 := by
  unfold Scheduler.attach
  rw [mirrors.endpoint, mirrors.media]
  exact ⟨rfl, mirrors.onMedium _ _ _ _⟩

theorem detach (mirrors : Mirrors u a b) :
    (b.detach u).1 = (a.detach u).1 ∧ Mirrors u (a.detach u).2 (b.detach u).2 := by
  unfold Scheduler.detach
  rw [mirrors.endpoint, mirrors.media]
  exact ⟨rfl, mirrors.onMedium _ _ _ _⟩

theorem transfer (mirrors : Mirrors u a b) (sectorSize : UInt64) (request : Request) :
    (b.transfer u sectorSize request).1 = (a.transfer u sectorSize request).1 ∧
      Mirrors u (a.transfer u sectorSize request).2 (b.transfer u sectorSize request).2 := by
  unfold Scheduler.transfer
  rw [mirrors.endpoint, mirrors.media]
  generalize (a.slot u).endpoint.transfer sectorSize request a.media = answer
  obtain ⟨outcome, e, media⟩ := answer
  exact ⟨rfl, mirrors.onMedium e media a.journal b.journal⟩

theorem install (mirrors : Mirrors u a b) (name : String) (data : Bytes) :
    Mirrors u { a with media := MediaStore.install name data a.media }
      { b with media := MediaStore.install name data b.media } :=
  ⟨mirrors.installs.of_callbacks fun _ => rfl, mirrors.inside, mirrors.endpoint,
    congrArg (MediaStore.install name data) mirrors.media, mirrors.completes, mirrors.world⟩

/-- A transfer that completes at once is mirrored by one whose outcome the unit still holds. -/
theorem defer (mirrors : Mirrors u a b) (idle : (b.slot u).parked = none) (sectorSize : UInt64)
    (latency : Float) (request : Request) :
    Mirrors u
      { (a.transfer u sectorSize request).2 with
        world := a.world ++ [(a.transfer u sectorSize request).1] }
      (b.defer u sectorSize latency request note) := by
  obtain ⟨outcome, moved⟩ := mirrors.transfer sectorSize request
  let t := b.defer u sectorSize latency request note
  have self : t.slot u = { (b.transfer u sectorSize request).2.slot u with
      delay := Ticks.nonnegative latency
      parked := some ⟨(b.transfer u sectorSize request).1, note⟩ } :=
    Scheduler.slot_defer_self mirrors.inside.2
  have holds : (t.slot u).parked = some ⟨(b.transfer u sectorSize request).1, note⟩ :=
    congrArg Slot.parked self
  have world : t.world = b.world := Scheduler.world_defer.trans (moved.asked u)
  have noted : b.held u = [] := by
    unfold Scheduler.held
    rw [idle]
    rfl
  refine ⟨?_, ⟨moved.inside.1, ?_⟩, (congrArg Slot.endpoint self).trans moved.endpoint,
    Scheduler.media_defer.trans moved.media, fun k there => ?_, ?_⟩
  · refine mirrors.installs.keep (fun v => (Scheduler.action_hook_defer (s := b) u v).1)
      (fun v => (Scheduler.action_hook_defer (s := b) u v).2) fun v other => ?_
    exact congrArg Slot.parked (Scheduler.slot_defer_of_ne (s := b) (Ne.symm other))
  · rw [Scheduler.size_defer]
    exact mirrors.inside.2
  · cases holds.symm.trans there
    rfl
  · show a.world ++ _ = t.world ++ ((t.slot u).parked.map Parked.outcome).toList
    rw [holds, world, mirrors.world, noted, outcome, List.append_nil]
    rfl

/-- Over both backends a deed ends with the same result. -/
theorem deed (mirrors : Mirrors u a b) (deed : Deed)
    (idle : ∀ request, deed = .ask request → (b.slot u).parked = none) (sectorSize : UInt64)
    (latency : Float) (pops pops' : Nat) :
    ∃ result a' b', (deed.program (.immediate sectorSize) u).run pops a = some (result, a') ∧
      (deed.program (.deferred sectorSize latency) u).run pops' b = some (result, b') ∧
      Mirrors u a' b' := by
  cases deed with
  | ask request =>
    have free : ¬(b.slot u).parked.isSome := by
      rw [idle request rfl]
      exact Bool.false_ne_true
    refine ⟨.ok (), _, _, exec_submit_immediate sectorSize, ?_,
      mirrors.defer (idle request rfl) sectorSize latency request⟩
    exact (exec_submit_deferred sectorSize latency).trans (if_neg free)
  | attach name =>
    obtain ⟨same, moved⟩ := mirrors.attach name
    exact ⟨(a.attach u name).1, _, _, rfl, congrArg (fun r => some (r, _)) same, moved⟩
  | detach =>
    obtain ⟨same, moved⟩ := mirrors.detach
    exact ⟨(a.detach u).1, _, _, rfl, congrArg (fun r => some (r, _)) same, moved⟩
  | install name data => exact ⟨.ok (), _, _, rfl, rfl, mirrors.install name data⟩

end Mirrors

/-! ## Sequences of deeds -/

/-- Carry deeds out one after the other. The answers are the result of each and the media after it. -/
def Deed.runAll (backend : Backend) (u : UnitId) (pops : Nat) :
    List Deed → Scheduler σ (List Outcome) → Option (List (Result × σ) × Scheduler σ (List Outcome))
  | [], s => some ([], s)
  | deed :: deeds, s =>
    match (deed.program backend u).run pops s with
    | none => none
    | some (result, t) =>
      (runAll backend u pops deeds t).map fun (answers, last) => ((result, t.media) :: answers, last)

/-- Deeds are carried out over a deferred backend, with ticks and programs that keep out of the way in
between. A transfer is asked for when none is in flight. -/
inductive Leisurely (u : UnitId) (sectorSize : UInt64) (latency : Float) :
    Scheduler σ (List Outcome) → List Deed → List (Result × σ) → Scheduler σ (List Outcome) → Prop
  | rest (s : Scheduler σ (List Outcome)) : Leisurely u sectorSize latency s [] [] s
  | deed {s t last : Scheduler σ (List Outcome)} {deed : Deed} {deeds : List Deed}
      {answers : List (Result × σ)} {pops : Nat} {result : Result} :
    (∀ request, deed = .ask request → (s.slot u).parked = none) →
    (deed.program (.deferred sectorSize latency) u).run pops s = some (result, t) →
    Leisurely u sectorSize latency t deeds answers last →
      Leisurely u sectorSize latency s (deed :: deeds) ((result, t.media) :: answers) last
  | tick {s t last : Scheduler σ (List Outcome)} {deeds : List Deed} {answers : List (Result × σ)}
      {pops : Nat} {result : Result} :
    s.tick pops = some (result, t) → Leisurely u sectorSize latency t deeds answers last →
      Leisurely u sectorSize latency s deeds answers last
  | aside {s t last : Scheduler σ (List Outcome)} {deeds : List Deed} {answers : List (Result × σ)}
      {p : Program (List Outcome)} {pops : Nat} {result : Result} :
    p.Aloof u → p.run pops s = some (result, t) → Leisurely u sectorSize latency t deeds answers last →
      Leisurely u sectorSize latency s deeds answers last

theorem Leisurely.mirrored {sectorSize : UInt64} {latency : Float} {t : Scheduler σ (List Outcome)}
    {deeds : List Deed} {answers : List (Result × σ)}
    (course : Leisurely u sectorSize latency b deeds answers t) (mirrors : Mirrors u a b) (pops : Nat) :
    ∃ last, Deed.runAll (.immediate sectorSize) u pops deeds a = some (answers, last) ∧
      Mirrors u last t := by
  induction course generalizing a with
  | rest s => exact ⟨a, rfl, mirrors⟩
  | @deed s t last deed deeds answers pops' result idle ended _ ih =>
    obtain ⟨result', a', t', ran, same, after⟩ := mirrors.deed deed idle sectorSize latency pops pops'
    cases same.symm.trans ended
    obtain ⟨last', rest, mirrors⟩ := ih after
    refine ⟨last', ?_, mirrors⟩
    rw [Deed.runAll, ran, after.media]
    simp only [rest, Option.map_some]
  | tick ended _ ih =>
    rw [Scheduler.tick_eq_run] at ended
    exact ih ((Act.aloof_tick u).run _ _ mirrors _ _ ended)
  | aside aloof ended _ ih => exact ih (aloof.run _ _ mirrors _ _ ended)

end

/-- Requests of a unit and what else becomes of it and its medium, over a deferred backend, each request
made when no transfer is in flight, with ticks in between: the same deeds over an immediate backend, from
the same scheduler, without any ticks, give the same result and the same media after each of them, leave
the unit with the same endpoint, and note the same outcomes; the deferred backend has still to note the
one that the unit holds, if it holds one. A deed never fails to end over the deferred backend either. -/
theorem deferred_agrees_with_immediate [MediaStore σ] {u : UnitId} {s t : Scheduler σ (List Outcome)}
    (installs : s.Installs (Program.Aloof u) Hook.Aloof (· = u)) (inside : u < s.slots.size)
    (idle : (s.slot u).parked = none) {sectorSize : UInt64} {latency : Float} {deeds : List Deed}
    {answers : List (Result × σ)} (course : Leisurely u sectorSize latency s deeds answers t)
    (pops : Nat) :
    (∃ last, Deed.runAll (.immediate sectorSize) u pops deeds s = some (answers, last) ∧
      last.media = t.media ∧ (last.slot u).endpoint = (t.slot u).endpoint ∧
      last.world = t.world ++ t.held u) ∧
    ∀ deed : Deed, (∀ request, deed = .ask request → (t.slot u).parked = none) →
      ∃ result next, (deed.program (.deferred sectorSize latency) u).run pops t = some (result, next) := by
  have noted : s.held u = [] := by
    unfold Scheduler.held
    rw [idle]
    rfl
  have same : Mirrors u s s := by
    refine ⟨installs, ⟨inside, inside⟩, rfl, rfl, fun k there => ?_, ?_⟩
    · rw [idle] at there
      cases there
    · rw [noted, List.append_nil]
  obtain ⟨last, ran, mirrors⟩ := course.mirrored same pops
  refine ⟨⟨last, ran, mirrors.media.symm, mirrors.endpoint.symm, mirrors.world⟩, fun deed free => ?_⟩
  obtain ⟨result, -, next, -, ended, -⟩ := mirrors.deed deed free sectorSize latency pops pops
  exact ⟨result, next, ended⟩

/-- The image that was read is replaced, and the unit attached to another one, before the outcome is
noted; it is what was read all the same. -/
theorem read_outlives_its_image :
    ∃ (s t last : Scheduler MemoryImages (List Outcome)) (deeds : List Deed)
      (answers : List (Result × MemoryImages)), Leisurely 0 4 3 s deeds answers t ∧
      Deed.runAll (.immediate 4) 0 0 deeds s = some (answers, last) ∧
      last.world = t.world ++ t.held 0 ∧ t.world.map Outcome.data = [#[1, 2, 3, 4]] ∧
      (t.held 0).length = 1 ∧
      t.media = ⟨[("A", #[0, 0, 0, 0]), ("B", #[9, 9, 9, 9])], [("B", 1)]⟩ := by
  let media : MemoryImages := ⟨[("A", #[1, 2, 3, 4]), ("B", #[5, 6, 7, 8])], []⟩
  let drive : Endpoint := { name := "A", can := { attachable := true }, capacity := 4 }
  let bare : Scheduler MemoryImages (List Outcome) := .start 100 1000000 [] media (.empty none)
  let s := (bare.addUnit drive).2
  let run (deed : Deed) (s : Scheduler MemoryImages (List Outcome)) :=
    (deed.program (.deferred 4 3) 0).run 9 s
  let ask (request : Request) (s : Scheduler MemoryImages (List Outcome)) :=
    if (s.slot 0).parked.isSome then none else run (.ask request) s
  let wait : Program (List Outcome) := .dispatch fun _ => .call (.consume 3) fun _ => .dispatch .done
  have aloof : wait.Aloof 0 := .dispatch fun _ => .call trivial fun _ => .dispatch fun _ => .done _
  have ended : ((run (.attach "A") s).bind fun a => (ask (.read 0 1) a.2).bind fun b =>
      (run (.install "A" #[0, 0, 0, 0]) b.2).bind fun c => (run .detach c.2).bind fun d =>
      (run (.attach "B") d.2).bind fun e => (wait.run 9 e.2).bind fun f =>
      ask (.write 0 #[9, 9, 9, 9]) f.2).map
        (fun g => (g.2.world.map Outcome.data, (g.2.held 0).length, g.2.media)) =
      some ([#[1, 2, 3, 4]], 1, ⟨[("A", #[0, 0, 0, 0]), ("B", #[9, 9, 9, 9])], [("B", 1)]⟩) := by
    decide +kernel
  obtain ⟨⟨_, t⟩, ended, seen⟩ := Option.map_eq_some_iff.1 ended
  obtain ⟨⟨_, a⟩, attached, ended⟩ := Option.bind_eq_some_iff.1 ended
  obtain ⟨⟨_, b⟩, read, ended⟩ := Option.bind_eq_some_iff.1 ended
  obtain ⟨⟨_, c⟩, replaced, ended⟩ := Option.bind_eq_some_iff.1 ended
  obtain ⟨⟨_, d⟩, detached, ended⟩ := Option.bind_eq_some_iff.1 ended
  obtain ⟨⟨_, e⟩, reattached, ended⟩ := Option.bind_eq_some_iff.1 ended
  obtain ⟨⟨_, f⟩, waited, written⟩ := Option.bind_eq_some_iff.1 ended
  obtain ⟨idle, read⟩ := Option.ite_none_left_eq_some.1 read
  obtain ⟨idle', written⟩ := Option.ite_none_left_eq_some.1 written
  have course : Leisurely 0 4 3 s [.attach "A", .ask (.read 0 1), .install "A" #[0, 0, 0, 0],
      .detach, .attach "B", .ask (.write 0 #[9, 9, 9, 9])] _ t :=
    .deed (fun _ => nofun) attached <|
      .deed (fun _ _ => Option.not_isSome_iff_eq_none.1 idle) read <|
      .deed (fun _ => nofun) replaced <| .deed (fun _ => nofun) detached <|
      .deed (fun _ => nofun) reattached <| .aside aloof waited <|
      .deed (fun _ _ => Option.not_isSome_iff_eq_none.1 idle') written <| .rest t
  have blank := fun u =>
    (bare.callbacks_perform (.addUnit drive) u).trans (Scheduler.callbacks_of_empty rfl u)
  obtain ⟨last, ran, -, -, world⟩ :=
    (deferred_agrees_with_immediate (Scheduler.installs_of_blank blank) (by decide)
      (congrArg (·.2.2) (blank 0)) course 0).1
  obtain ⟨noted, held, media⟩ : t.world.map Outcome.data = _ ∧ (t.held 0).length = _ ∧ t.media = _ := by
    simpa only [Prod.mk.injEq] using seen
  exact ⟨s, t, last, _, _, course, ran, world, noted, held, media⟩

end Peripheral
