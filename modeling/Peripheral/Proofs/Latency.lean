import Peripheral.Proofs.Conservation
import Peripheral.Proofs.Submission
import Peripheral.Proofs.Waiting

/-!
# A deferred transfer is never handed over early

A deferred transfer waits in two legs: its unit is due at once, and only when it comes up is the
latency turned into ticks and waited for.

* `Program.Proper` : programs that leave transfers with units through a backend only;
* `Scheduler.Awaits u deadline now` : neither leg of the wait of a unit ends before a deadline;
* `Sound` : every promise made so far is awaited (`Sound.changed`, `Sound.perform`, `Sound.defer`);
* `Proper.heedful`, `Up.fire`, `drain_heedful`, `process_heedful` : programs, firings and dispatches
  break no promise;
* `completion_is_never_early` : **a completion is not run before the latency has elapsed**.
-/

namespace Peripheral
open Ticks

variable {σ ω : Type}

/-! ## Proper programs -/

/-- Transfers are left with units by deferred backends only, and callbacks spend no ticks, nor does the
program itself unless it `spends`. -/
inductive Program.Proper : Bool → Program ω → Prop
  | done {spends : Bool} (result : Result) : Proper spends (.done result)
  | call {spends : Bool} {c : Call} {next : c.Answer → Program ω} :
    (c.Passive ∨ spends = true) → (∀ answer, Proper spends (next answer)) →
      Proper spends (.call c next)
  | look {spends : Bool} {next : ω → Program ω} :
    (∀ world, Proper spends (next world)) → Proper spends (.look next)
  | change {spends : Bool} {f : ω → ω} {next : Program ω} :
    Proper spends next → Proper spends (.change f next)
  | setAction {spends : Bool} {u : UnitId} {action next : Program ω} :
    Proper false action → Proper spends next → Proper spends (.setAction u action next)
  | setHook {spends : Bool} {u : UnitId} {hook : Hook ω} {next : Program ω} :
    Proper spends next → Proper spends (.setHook u hook next)
  | submit {spends : Bool} {sectorSize : UInt64} {latency : Float} {u : UnitId} {request : Request}
      {done : Outcome → Program ω} {next : Result → Program ω} :
    (∀ outcome, Proper false (done outcome)) → (∀ result, Proper spends (next result)) →
      Proper spends ((Backend.deferred sectorSize latency).submit u request done next)
  | dispatch {spends : Bool} {next : Result → Program ω} :
    (∀ result, Proper spends (next result)) → Proper spends (.dispatch next)

theorem Program.Proper.frugal {p : Program ω} {spends : Bool} (proper : p.Proper spends)
    (callback : spends = false) : p.Frugal := by
  induction proper with
  | done result => trivial
  | call allowed _ ih =>
    refine ⟨allowed.resolve_right ?_, fun answer => ih answer callback⟩
    rw [callback]
    exact Bool.false_ne_true
  | look _ ih => exact fun world => ih world callback
  | change _ ih => exact ih callback
  | setAction _ _ first rest => exact ⟨first rfl, rest callback⟩
  | setHook _ ih => exact ih callback
  | submit _ _ completes rest =>
    exact Program.frugal_submit _ _ _ (fun outcome => completes outcome rfl)
      fun result => rest result callback
  | dispatch _ ih => exact fun result => ih result callback

theorem Scheduler.Carries.frugal {s : Scheduler σ ω} (proper : s.Carries (Program.Proper false)) :
    s.Carries Program.Frugal := fun u =>
  ⟨fun p there => ((proper u).action p there).frugal rfl,
    fun k there outcome => ((proper u).parked k there outcome).frugal rfl⟩

/-! ## Waiting in two legs -/

namespace Scheduler

/-- Neither leg of the wait of a unit ends before a deadline: it has passed already, or the unit has
the whole latency still to wait once it comes up, or it does not come up before. -/
inductive Awaits (u : UnitId) (deadline now : Int) (s : Scheduler σ ω) : Prop
  | expired (passed : deadline ≤ now)
  | first (waits : (s.slot u).delay > 0) (fits : (s.legs (s.slot u).delay).2 = 0)
    (pending : u ∈ s.agenda.units)
    (whole : deadline ≤ now + max (s.legs (s.slot u).delay).1.toInt 0)
  | last (r : Int) (ready : ¬(s.slot u).delay > 0) (waits : (u, r) ∈ s.agenda.remaining)
    (later : deadline ≤ now + r)

variable {u : UnitId} {deadline now : Int} {s t : Scheduler σ ω} {c : Change}

theorem legs_of_rate (same : t.rate = s.rate) (usecs : Float) : t.legs usecs = s.legs usecs := by
  unfold legs ticksOf
  rw [same]

/-- A unit that is awaited stays so when it is left alone and nothing brings it forward. -/
theorem Awaits.move {later : Int} (awaits : s.Awaits u deadline now) (rate : t.rate = s.rate)
    (delay : u ∈ s.agenda.units → (t.slot u).delay = (s.slot u).delay) (elapses : now ≤ later)
    (waits : ∀ r, (u, r) ∈ s.agenda.remaining →
      ∃ r', (u, r') ∈ t.agenda.remaining ∧ now + r ≤ later + r') : t.Awaits u deadline later := by
  cases awaits with
  | expired passed => exact .expired (Int.le_trans passed elapses)
  | first waiting fits pending whole =>
    obtain ⟨r, there⟩ := remaining_of_mem_units pending
    obtain ⟨r', still, -⟩ := waits r there
    have same := delay pending
    have legs := legs_of_rate rate (s.slot u).delay
    refine .first (by rwa [same]) (by rwa [same, legs]) (mem_units_of_remaining still) ?_
    rw [same, legs]
    omega
  | last r ready there after =>
    obtain ⟨r', still, kept⟩ := waits r there
    refine .last r' ?_ still (by omega)
    rwa [delay (mem_units_of_remaining there)]

end Scheduler

/-! ## Every promise is awaited -/

/-- Callbacks are proper, the events so far give the agenda, and as long as all has gone smoothly every
unit that holds a promised transfer is awaited, `free` ones excepted. -/
structure Sound (idleWait : Int32) (free : Option UnitId) (past : List Event) (s : Scheduler σ ω) :
    Prop where
  proper : s.Carries (Program.Proper false)
  agenda : s.agenda = (Agenda.start idleWait).after (changesIn past)
  possible : Trail Change.Possible (.start idleWait) (changesIn past)
  awaits : Smooth idleWait past → ∀ u deadline, free ≠ some u → Promised idleWait past u deadline →
    (s.slot u).parked.isSome → s.Awaits u deadline (elapsed (changesIn past))

section
variable {idleWait : Int32} {free : Option UnitId} {past : List Event} {s t : Scheduler σ ω}
  {u : UnitId} {c : Change}

theorem Sound.nodup (sound : Sound idleWait free past s) : s.agenda.units.Nodup := by
  rw [sound.agenda]
  exact nodup_after sound.possible List.nodup_nil

theorem Sound.ordered (sound : Sound idleWait free past s) (smooth : Smooth idleWait past) :
    s.agenda.Ordered := by
  rw [sound.agenda]
  exact ordered_after sound.possible smooth.1 (ordered_start idleWait)

theorem Sound.last (sound : Sound idleWait free past s)
    (smooth : Smooth idleWait (past ++ [.changed c])) : c.Exact s.agenda ∧ c.Patient s.agenda := by
  unfold Smooth at smooth
  rw [changesIn_append, Trail.append, Trail.append, ← sound.agenda] at smooth
  exact ⟨smooth.1.2.1, smooth.2.2.1⟩

/-- What is neither queue nor wait nor transfer may change. -/
theorem Sound.aside (sound : Sound idleWait free past s)
    (proper : t.Carries (Program.Proper false)) (agenda : t.agenda = s.agenda)
    (rate : t.rate = s.rate) (delay : ∀ u, free ≠ some u → (t.slot u).delay = (s.slot u).delay)
    (parked : ∀ u, free ≠ some u → (t.slot u).parked = (s.slot u).parked) :
    Sound idleWait free past t where
  proper := proper
  agenda := agenda.trans sound.agenda
  possible := sound.possible
  awaits smooth u deadline bound promised holds := by
    rw [parked u bound] at holds
    refine (sound.awaits smooth u deadline bound promised holds).move rate
      (fun _ => delay u bound) (Int.le_refl _) fun r there => ⟨r, ?_, Int.le_refl _⟩
    rwa [agenda]

theorem Sound.of_same (sound : Sound idleWait free past s) (agenda : t.agenda = s.agenda)
    (rate : t.rate = s.rate) (slots : t.slots = s.slots) : Sound idleWait free past t :=
  sound.aside (sound.proper.of_slots slots) agenda rate
    (fun u _ => by rw [Scheduler.slot_of_slots slots])
    fun u _ => by rw [Scheduler.slot_of_slots slots]

/-- A change of the agenda keeps promises as long as it leaves the waits of pending units alone. The
unit that it takes off the head becomes free. -/
theorem Sound.changed {free' : Option UnitId} (sound : Sound idleWait free past s)
    (wider : ∀ u, free' ≠ some u → free ≠ some u) (possible : c.Possible s.agenda)
    (agenda : t.agenda = c.apply s.agenda) (rate : t.rate = s.rate)
    (proper : t.Carries (Program.Proper false))
    (parked : ∀ u, free' ≠ some u → (t.slot u).parked = (s.slot u).parked)
    (delay : ∀ u ∈ s.agenda.units, free' ≠ some u → c ≠ .removed u →
      (t.slot u).delay = (s.slot u).delay)
    (due : Smooth idleWait (past ++ [.changed c]) → c.Due s.agenda)
    (taken : ∀ v offset, c = .popped v offset → free' = some v) :
    Sound idleWait free' (past ++ [.changed c]) t where
  proper := proper
  agenda := by
    rw [agenda, changesIn_append, Agenda.after_append, ← sound.agenda]
    rfl
  possible := by
    rw [changesIn_append, Trail.append, ← sound.agenda]
    exact ⟨sound.possible, possible, trivial⟩
  awaits smooth u deadline bound promised holds := by
    have before := smooth.of_append
    obtain ⟨exact, patient⟩ := sound.last smooth
    rw [parked u bound] at holds
    rcases promised_concat promised with ⟨stands, promised⟩ | ⟨ticks, same, -⟩
    · have now : elapsed (changesIn (past ++ [.changed c])) =
          elapsed (changesIn past) + c.ticks := by
        rw [changesIn_append]
        exact elapsed_concat
      have stays : ¬c.Ends u := by
        cases c with
        | popped v offset => exact fun same => bound (same ▸ taken v offset rfl)
        | removed v => exact stands
        | spent | queued | settled | rested => exact id
      have awaits := sound.awaits before u deadline (wider u bound) promised holds
      rw [now]
      refine awaits.move rate (fun pending => delay u pending bound ?_) ?_ fun r there => ?_
      · rintro rfl
        exact stays rfl
      · have forward := patient.ticks_nonneg
        omega
      · obtain ⟨r', still, later⟩ := Change.keeps_waiting possible exact patient (due smooth)
          (sound.ordered before) sound.nodup stays there
        rw [agenda]
        exact ⟨r', still, by omega⟩
    · cases same

theorem Sound.settles (sound : Sound idleWait (some u) past s)
    (awaits : Smooth idleWait past → ∀ deadline, Promised idleWait past u deadline →
      (s.slot u).parked.isSome → s.Awaits u deadline (elapsed (changesIn past))) :
    Sound idleWait none past s where
  proper := sound.proper
  agenda := sound.agenda
  possible := sound.possible
  awaits smooth v deadline _ promised holds := by
    by_cases same : u = v
    · subst same
      exact awaits smooth deadline promised holds
    · exact sound.awaits smooth v deadline (fun h => same (Option.some.inj h)) promised holds

theorem Sound.of_empty (sound : Sound idleWait (some u) past s) (empty : (s.slot u).parked = none) :
    Sound idleWait none past s :=
  sound.settles fun _ _ _ holds => by simp [empty] at holds

theorem Sound.noted {e : Event} (sound : Sound idleWait free past s)
    (wider : ∀ v, u ≠ v → free ≠ some v) (quiet : e.change? = none)
    (other : ∀ v ticks, e = .parked v ticks 0 → u = v) (proper : t.Carries (Program.Proper false))
    (agenda : t.agenda = s.agenda) (rate : t.rate = s.rate)
    (slot : ∀ v, u ≠ v → t.slot v = s.slot v) : Sound idleWait (some u) (past ++ [e]) t where
  proper := proper
  agenda := by rw [agenda, changesIn_concat quiet, ← sound.agenda]
  possible := by
    rw [changesIn_concat quiet]
    exact sound.possible
  awaits smooth v deadline bound promised holds := by
    have apart : u ≠ v := fun same => bound (congrArg some same)
    rw [slot v apart] at holds
    rw [changesIn_concat quiet]
    rcases promised_concat promised with ⟨-, promised⟩ | ⟨ticks, same, -⟩
    · refine (sound.awaits smooth.of_append v deadline (wider v apart) promised holds).move rate
        (fun _ => by rw [slot v apart]) (Int.le_refl _) fun r there => ⟨r, ?_, Int.le_refl _⟩
      rwa [agenda]
    · exact absurd (other v ticks same) apart

variable [MediaStore σ]

/-- No call breaks a promise or leaves one unawaited. -/
theorem Sound.perform (sound : Sound idleWait free past s) (c : Call) :
    Sound idleWait free (past ++ (s.changesOf c).map .changed) (s.perform c).2 := by
  have agenda := s.agenda_perform c
  have possible := s.possible_changesOf c
  have proper := sound.proper.perform c
  have parked : ∀ u, free ≠ some u → ((s.perform c).2.slot u).parked = (s.slot u).parked :=
    fun u _ => congrArg (·.2.2) (s.callbacks_perform c u)
  rcases s.perform_moves c with ⟨still, delay⟩ | ⟨x, moves, by_call, delay⟩
  · rw [still] at agenda ⊢
    rw [List.map_nil, List.append_nil]
    exact sound.aside proper agenda (s.rate_perform c) (fun u _ => delay u) parked
  · rw [moves] at agenda possible ⊢
    refine sound.changed (fun _ => id) possible.1 agenda (s.rate_perform c) proper parked
      (fun u pending _ => delay u pending) (fun _ => ?_) fun v offset same => absurd same (by_call v offset)
    cases x with
    | popped v offset => exact absurd rfl (by_call v offset)
    | _ => trivial

/-! ## Deferred transfers -/

def Scheduler.deferEvents (u : UnitId) (sectorSize : UInt64) (latency : Float) (request : Request) :
    Diary σ ω := fun s =>
  let s := (s.transfer u sectorSize request).2
  let t := s.cancel u
  (s.changesOf (.cancel u)).map .changed ++
    .parked u (t.legs latency).1 (t.legs latency).2 :: (t.changesOf (.activate u 0)).map .changed

theorem Program.events_submit_deferred {dispatch : Motion σ ω} {within : Diary σ ω}
    {sectorSize : UInt64} {latency : Float} {request : Request} {done : Outcome → Program ω}
    {next : Result → Program ω} :
    ((Backend.deferred sectorSize latency).submit u request done next).events dispatch within s =
      if (s.slot u).parked.isSome then
        (next (.error (.internal (.transferInFlight (s.nameOf u))))).events dispatch within s
      else
        s.deferEvents u sectorSize latency request ++
          (next (.ok ())).events dispatch within (s.defer u sectorSize latency request done) := by
  show Program.events dispatch within
    ((if (s.view u).ioPending then _ else _ : Act ω Result) next) s = _
  by_cases pending : (s.slot u).parked.isSome
  · rw [if_pos pending, if_pos (show (s.view u).ioPending = true from pending)]
    rfl
  · rw [if_neg pending, if_neg (show ¬(s.view u).ioPending = true from pending),
      Scheduler.deferEvents, List.append_assoc]
    simp only [← legs_nonnegative _ latency]
    rfl

/-- Once its unit is back in the queue, a transfer that was just left with it is waited for in full. -/
theorem Sound.leave (sound : Sound idleWait none past s) (u : UnitId) (latency : Float)
    (k : Parked ω) (m : Message) (completes : ∀ outcome, (k.deliver outcome).Proper false) :
    Sound idleWait none
      (past ++ .parked u (s.legs latency).1 (s.legs latency).2 ::
        (s.changesOf (.activate u 0)).map .changed)
      (((s.leave u (nonnegative latency) k).tell m).activate u 0).2 := by
  let e : Event := .parked u (s.legs latency).1 (s.legs latency).2
  let t := (s.leave u (nonnegative latency) k).tell m
  have left : Sound idleWait (some u) (past ++ [e]) t :=
    sound.noted (fun v _ => by simp) rfl (fun v _ same => (Event.parked.inj same).1)
      ((sound.proper.park u _ k.outcome completes).of_slots rfl) rfl rfl
      fun v apart => Scheduler.slot_leave_of_ne apart _ k
  have active : Sound idleWait (some u) _ (t.activate u 0).2 := left.perform (.activate u 0)
  rw [← List.append_cons] at active
  refine active.settles fun smooth deadline promised holds => ?_
  by_cases pending : u ∈ s.agenda.units
  · have still : t.changesOf (.activate u 0) = [] := if_pos (Scheduler.isActive_iff.2 pending)
    rw [still] at promised
    rcases promised_concat promised with ⟨ends, -⟩ | ⟨_, -, idle, -⟩
    · exact absurd rfl ends
    · rw [← sound.agenda] at idle
      exact absurd pending idle
  have queued : t.changesOf (.activate u 0) = [.queued u 0] :=
    if_neg fun there => pending (Scheduler.isActive_iff.1 there)
  rw [queued] at promised ⊢
  rw [List.map_singleton, List.append_cons] at promised ⊢
  have now : elapsed (changesIn (past ++ [e] ++ [.changed (.queued u 0)])) =
      elapsed (changesIn past) := by
    rw [changesIn_append, changesIn_concat rfl]
    exact elapsed_concat.trans (Int.add_zero _)
  rcases promised_concat promised with ⟨-, made⟩ | ⟨_, same, -⟩
  · rcases promised_concat made with ⟨ends, -⟩ | ⟨ticks, same, -, same_deadline⟩
    · exact absurd rfl ends
    obtain ⟨-, first, rest⟩ := Event.parked.inj same
    have inside : u < s.slots.size := by
      by_contra outside
      have none : t.slot u = default :=
        Scheduler.slot_of_size_le (by
          show (s.modifySlot u _).slots.size ≤ u
          rw [Scheduler.size_modifySlot]
          exact Nat.not_lt.1 outside)
      rw [Scheduler.slot_activate, none] at holds
      cases holds
    have delay : ((t.activate u 0).2.slot u).delay = nonnegative latency := by
      rw [Scheduler.slot_activate]
      exact congrArg Slot.delay (Scheduler.slot_leave_self inside _ k)
    have legs : (t.activate u 0).2.legs (nonnegative latency) = s.legs latency := by
      rw [Scheduler.legs_of_rate (Scheduler.rate_activate u 0 t), legs_nonnegative]
      rfl
    rw [now]
    by_cases waits : nonnegative latency > 0
    · refine .first (by rwa [delay]) (by rw [delay, legs, rest])
        (Scheduler.mem_units_activate u 0 t) ?_
      rw [delay, legs, first]
      exact Int.le_of_eq same_deadline
    · rw [← legs_nonnegative, legs_of_not_pos s waits] at first
      refine .expired ?_
      rw [same_deadline, ← first]
      exact Int.le_of_eq (Int.add_zero _)
  · cases same

theorem Sound.defer (sound : Sound idleWait none past s) {sectorSize : UInt64} {latency : Float}
    {request : Request} {done : Outcome → Program ω} (completes : ∀ outcome, (done outcome).Proper false) :
    Sound idleWait none (past ++ s.deferEvents u sectorSize latency request)
      (s.defer u sectorSize latency request done) := by
  have moved := sound.perform (.transfer u sectorSize request)
  rw [show s.changesOf (.transfer u sectorSize request) = [] from rfl, List.map_nil,
    List.append_nil] at moved
  have cancelled := moved.perform (.cancel u)
  have left := cancelled.leave u latency ⟨(s.transfer u sectorSize request).1, done⟩
    (.deferred (s.nameOf u) latency) completes
  rw [List.append_assoc] at left
  exact left

/-! ## Programs, firings and dispatches -/

/-- From wherever every promise is awaited, the motion breaks none and leaves every one awaited. -/
def Motion.Heedful (idleWait : Int32) (m : Motion σ ω) (d : Diary σ ω) : Prop :=
  ∀ past s, Sound idleWait none past s → Heeds idleWait past (d s) ∧
    ∀ result t, m s = some (result, t) → Sound idleWait none (past ++ d s) t

omit [MediaStore σ] in
/-- A motion is heedful if it goes on heedfully from where some events have led. -/
theorem Sound.after {m : Motion σ ω} {d : Diary σ ω} {l : List Event} (heedful : m.Heedful idleWait d)
    (heeds : Heeds idleWait past l) (sound : Sound idleWait none (past ++ l) s) :
    Heeds idleWait past (l ++ d s) ∧
      ∀ result t, m s = some (result, t) → Sound idleWait none (past ++ (l ++ d s)) t := by
  obtain ⟨rest, ends⟩ := heedful (past ++ l) s sound
  refine ⟨heeds_append.2 ⟨heeds, rest⟩, fun result t ended => ?_⟩
  rw [← List.append_assoc]
  exact ends result t ended

theorem Scheduler.heeds_deferEvents {sectorSize : UInt64} {latency : Float} {request : Request} :
    Heeds idleWait past (s.deferEvents u sectorSize latency request) :=
  heeds_append.2 ⟨heeds_changes _ _, trivial, heeds_changes _ _⟩

theorem Program.Proper.heedful {p : Program ω} {spends : Bool} (proper : p.Proper spends)
    {dispatch : Motion σ ω} {within : Diary σ ω} (inner : dispatch.Heedful idleWait within) :
    Motion.Heedful idleWait (p.exec dispatch) (p.events dispatch within) := by
  induction proper with
  | done result =>
    intro past s sound
    refine ⟨trivial, fun result' t ended => ?_⟩
    simp only [Program.exec, Option.some.injEq, Prod.mk.injEq] at ended
    rw [← ended.2]
    exact (List.append_nil past).symm ▸ sound
  | call _ _ ih =>
    exact fun past s sound => Sound.after (ih _) (heeds_changes _ _) (sound.perform _)
  | look _ ih => exact fun past s sound => ih _ past s sound
  | change _ ih => exact fun past s sound => ih past _ (sound.of_same rfl rfl rfl)
  | @setAction _ u action next first _ _ ih =>
    refine fun past s sound => ih past _ (sound.aside (sound.proper.setAction u first) rfl rfl ?_ ?_)
    · exact fun v _ => Scheduler.field_modifySlot Slot.delay u v _ s (by intro slot; rfl)
    · exact fun v _ => Scheduler.field_modifySlot Slot.parked u v _ s (by intro slot; rfl)
  | @setHook _ u hook next _ ih =>
    refine fun past s sound => ih past _ (sound.aside ?_ rfl rfl ?_ ?_)
    · exact sound.proper.modifySlot fun _ here => ⟨here.action, here.parked⟩
    · exact fun v _ => Scheduler.field_modifySlot Slot.delay u v _ s (by intro slot; rfl)
    · exact fun v _ => Scheduler.field_modifySlot Slot.parked u v _ s (by intro slot; rfl)
  | submit completes _ _ ih =>
    intro past s sound
    simp only [exec_submit_deferred, Program.events_submit_deferred]
    split
    · exact ih _ past s sound
    · exact Sound.after (ih _) Scheduler.heeds_deferEvents (sound.defer completes)
  | dispatch _ ih =>
    intro past s sound
    simp only [Program.exec, Program.events]
    obtain ⟨heeds, ends⟩ := inner past s sound
    cases dispatched : dispatch s with
    | none => exact ⟨by simpa using heeds, by simp⟩
    | some answer =>
      obtain ⟨result, t⟩ := answer
      exact Sound.after (ih result) heeds (ends _ _ dispatched)

omit [MediaStore σ] in
/-- A unit was just taken off the head of the queue. A deadline promised to it has passed unless it has
the whole latency still to wait. -/
structure Up (idleWait : Int32) (past : List Event) (u : UnitId) (s : Scheduler σ ω) : Prop where
  sound : Sound idleWait (some u) past s
  idle : u ∉ s.agenda.units
  ready : Smooth idleWait past → ∀ deadline, Promised idleWait past u deadline →
    (s.slot u).parked.isSome → deadline ≤ elapsed (changesIn past) ∨
      (s.slot u).delay > 0 ∧ (s.legs (s.slot u).delay).2 = 0 ∧
        deadline ≤ elapsed (changesIn past) + max (s.legs (s.slot u).delay).1.toInt 0

omit [MediaStore σ] in
theorem Sound.popped (sound : Sound idleWait none past s) (settled : s.agenda.Settled)
    (due : Smooth idleWait past → s.agenda.interval.toInt ≤ 0) {agenda : Agenda}
    (popped : s.agenda.pop? = some (u, agenda)) :
    Up idleWait (past ++ [.changed (.popped u s.agenda.reference)]) u { s with agenda } := by
  obtain ⟨possible, left⟩ := Scheduler.popped_of_pop? popped
  have nodup := sound.nodup
  refine ⟨?_, ?_, fun smooth deadline promised holds => ?_⟩
  · exact sound.changed (fun _ _ => by simp) possible left.symm rfl (sound.proper.of_slots rfl)
      (fun _ _ => rfl) (fun _ _ _ _ => rfl) (fun smooth => ⟨settled, due smooth.of_append⟩)
      fun v offset same => by rw [(Change.popped.inj same).1]
  · rw [Agenda.units_of_pop? popped, List.nodup_cons] at nodup
    exact nodup.1
  · have now : elapsed (changesIn (past ++ [.changed (.popped u s.agenda.reference)])) =
        elapsed (changesIn past) := by
      rw [changesIn_append]
      exact elapsed_concat.trans (Int.add_zero _)
    rcases promised_concat promised with ⟨-, promised⟩ | ⟨ticks, same, -⟩
    · rw [now]
      cases sound.awaits smooth.of_append u deadline (by simp) promised holds with
      | expired passed => exact .inl passed
      | first waits fits pending whole => exact .inr ⟨waits, fits, whole⟩
      | last r ready waits later =>
        have first := remaining_head possible nodup waits
        have late := due smooth.of_append
        exact .inl (by omega)
    · cases same

theorem Up.wait (up : Up idleWait past u s) (m : Message) :
    Sound idleWait none (past ++ (s.changesOf (.activateAfter u (s.slot u).delay)).map .changed)
      (((s.tell m).modifySlot u fun slot => { slot with delay := 0 }).activateAfter u
        (s.slot u).delay).2 := by
  let t := (s.tell m).modifySlot u fun slot => { slot with delay := 0 }
  have reset : Sound idleWait (some u) past t := by
    refine up.sound.aside ?_ rfl rfl ?_ ?_
    · exact (up.sound.proper.of_slots (t := s.tell m) rfl).modifySlot fun _ here =>
        ⟨here.action, here.parked⟩
    · exact fun v bound => congrArg Slot.delay
        (Scheduler.slot_modifySlot_of_ne (fun same => bound (congrArg some same)) _)
    · exact fun v bound => congrArg Slot.parked
        (Scheduler.slot_modifySlot_of_ne (fun same => bound (congrArg some same)) _)
  have waiting : Sound idleWait (some u) _ (t.activateAfter u (s.slot u).delay).2 :=
    reset.perform (.activateAfter u (s.slot u).delay)
  refine waiting.settles fun smooth deadline promised holds => ?_
  have inactive : s.isActive u = false := by
    rw [← Bool.not_eq_true, Scheduler.isActive_iff]
    exact up.idle
  have inactive' : t.isActive u = false := inactive
  have queued : t.changesOf (.activateAfter u (s.slot u).delay) =
      [.queued u (s.legs (s.slot u).delay).1] := if_neg (by simp [inactive'])
  rw [queued, List.map_singleton] at smooth promised ⊢
  have agenda : (t.activateAfter u (s.slot u).delay).2.agenda =
      s.agenda.insert u (s.legs (s.slot u).delay).1 := by
    rw [Scheduler.agenda_activateAfter]
    show t.agenda.after (if t.isActive u then _ else _) = _
    rw [inactive', if_neg Bool.false_ne_true]
    rfl
  have now : elapsed (changesIn (past ++ [.changed (.queued u (s.legs (s.slot u).delay).1)])) =
      elapsed (changesIn past) := by
    rw [changesIn_append]
    exact elapsed_concat.trans (Int.add_zero _)
  have parked : ((t.activateAfter u (s.slot u).delay).2.slot u).parked = (s.slot u).parked := by
    have same := congrArg (·.2.2) (Scheduler.callbacks_activateAfter u u (s.slot u).delay t)
    refine same.trans ?_
    exact Scheduler.field_modifySlot Slot.parked u u _ (s.tell m) (by intro slot; rfl)
  rw [parked] at holds
  rw [now]
  rcases promised_concat promised with ⟨-, promised⟩ | ⟨ticks, same, -⟩
  · rcases up.ready smooth.of_append deadline promised holds with passed | ⟨waits, fits, whole⟩
    · exact .expired passed
    · have inside : u < s.slots.size := by
        by_contra outside
        rw [Scheduler.slot_of_size_le (Nat.not_lt.1 outside)] at holds
        cases holds
      have delay : ((t.activateAfter u (s.slot u).delay).2.slot u).delay = 0 := by
        have size : u < t.slots.size := by
          rw [Scheduler.size_modifySlot]
          exact inside
        rw [Scheduler.slot_activateAfter, if_pos ⟨rfl, size, inactive'⟩]
        exact fits
      obtain ⟨exact, -⟩ := up.sound.last smooth
      obtain ⟨-, r, there, later⟩ :=
        mem_remaining_insert exact (up.sound.ordered smooth.of_append)
      refine .last r ?_ (by rw [agenda]; exact there) (by omega)
      rw [delay]
      decide +kernel
  · cases same

omit [MediaStore σ] in
/-- A unit with nothing left to wait hands its transfer over no earlier than promised. -/
theorem Up.handOver (up : Up idleWait past u s) (waited : ¬(s.slot u).delay > 0) {k : Parked ω}
    (parked : (s.slot u).parked = some k) (m : Message) :
    (Event.delivered u).Heeded idleWait past ∧
      Sound idleWait none (past ++ [.delivered u])
        ((s.tell m).modifySlot u fun slot => { slot with parked := none }) := by
  have holds : (s.slot u).parked.isSome := by simp [parked]
  refine ⟨fun smooth deadline promised => ?_, ?_⟩
  · rcases up.ready smooth deadline promised holds with passed | ⟨waits, -⟩
    · exact passed
    · exact absurd waits waited
  · have inside : u < s.slots.size := by
      by_contra outside
      rw [Scheduler.slot_of_size_le (Nat.not_lt.1 outside)] at holds
      cases holds
    refine Sound.of_empty (u := u) (up.sound.noted ?_ rfl ?_ ?_ rfl rfl ?_) ?_
    · exact fun v apart same => apart (Option.some.inj same)
    · exact fun v ticks same => by cases same
    · exact (up.sound.proper.of_slots (t := s.tell m) rfl).takeParked u
    · exact fun v apart => Scheduler.slot_modifySlot_of_ne apart _
    · exact congrArg Slot.parked (Scheduler.slot_modifySlot_self (s := s.tell m) inside _)

/-- A unit that comes up breaks no promise, whether it waits on, hands a transfer over or acts. -/
theorem Up.fire {dispatch : Motion σ ω} {within : Diary σ ω}
    (inner : dispatch.Heedful idleWait within) (up : Up idleWait past u s) :
    Heeds idleWait past (Scheduler.fireEvents dispatch within u s) ∧
      ∀ result t, Scheduler.fire dispatch u s = some (result, t) →
        Sound idleWait none (past ++ Scheduler.fireEvents dispatch within u s) t := by
  have callbacks := up.sound.proper u
  by_cases waits : (s.slot u).delay > 0
  · simp only [Scheduler.fireEvents, Scheduler.fire, if_pos waits]
    refine ⟨heeds_changes _ _, fun result t fired => ?_⟩
    simp only [Option.some.injEq, Prod.mk.injEq] at fired
    rw [← fired.2]
    exact up.wait _
  simp only [Scheduler.fireEvents, Scheduler.fire, if_neg waits]
  cases parked : (s.slot u).parked with
  | some k =>
    obtain ⟨heeded, left⟩ := up.handOver waits parked (.completing (s.slot u).endpoint.name)
    have heeds : Heeds idleWait past [.delivered u] := ⟨heeded, trivial⟩
    exact left.after ((callbacks.parked k parked k.outcome).heedful inner) heeds
  | none =>
    have idle := up.sound.of_empty parked
    cases there : (s.slot u).action with
    | none =>
      refine ⟨trivial, fun result t fired => ?_⟩
      simp only [Option.some.injEq, Prod.mk.injEq] at fired
      rw [← fired.2, List.append_nil]
      exact idle.of_same rfl rfl rfl
    | some action =>
      have proper := callbacks.action action there
      let t := (s.tell (.firing (s.slot u).endpoint.name)).modifySlot u fun slot =>
        { slot with action := none }
      have out : Sound idleWait none past t := by
        refine idle.aside ((idle.proper.of_slots (t := s.tell _) rfl).takeAction u) rfl rfl ?_ ?_
        · exact fun v _ => Scheduler.field_modifySlot Slot.delay u v _ (s.tell _) (by intro slot; rfl)
        · exact fun v _ => Scheduler.field_modifySlot Slot.parked u v _ (s.tell _) (by intro slot; rfl)
      obtain ⟨heeds, ends⟩ := proper.heedful inner past t out
      refine ⟨heeds, fun result t' fired => ?_⟩
      dsimp only at fired
      cases ended : action.exec dispatch t with
      | none => rw [ended] at fired; cases fired
      | some answer =>
        obtain ⟨result', left⟩ := answer
        rw [ended] at fired
        simp only [Option.some.injEq, Prod.mk.injEq] at fired
        rw [← fired.2]
        have after := ends _ _ ended
        refine after.aside (after.proper.putBack u proper) rfl rfl ?_ ?_
        · exact fun v _ => Scheduler.field_modifySlot Slot.delay u v _ left (by intro slot; rfl)
        · exact fun v _ => Scheduler.field_modifySlot Slot.parked u v _ left (by intro slot; rfl)

omit [MediaStore σ] in
theorem Sound.tellAnomaly (sound : Sound idleWait none past s) (u : UnitId) (result : Result) :
    Sound idleWait none past (s.tellAnomaly u result) := by
  unfold Scheduler.tellAnomaly
  split
  · exact sound
  · split
    · exact sound
    · exact sound.of_same rfl rfl rfl

omit [MediaStore σ] in
theorem Sound.conclude (sound : Sound idleWait none past s) (result : Result) :
    Sound idleWait none
      (past ++ if s.agenda.queue.isEmpty then [.changed .rested] else []) (s.conclude result).2 := by
  have agenda := Scheduler.agenda_conclude result s
  have slots : (s.conclude result).2.slots = s.slots ∧ (s.conclude result).2.rate = s.rate := by
    unfold Scheduler.conclude
    cases s.agenda.queue with
    | nil => dsimp only; split <;> exact ⟨rfl, rfl⟩
    | cons e rest => dsimp only; split <;> exact ⟨rfl, rfl⟩
  have slot := Scheduler.slot_of_slots slots.1
  split
  · rename_i empty
    rw [if_pos empty] at agenda
    exact sound.changed (fun _ => id) (List.isEmpty_iff.1 empty) agenda slots.2
      (sound.proper.of_slots slots.1) (fun v _ => by rw [slot v]) (fun v _ _ _ => by rw [slot v])
      (fun _ => trivial) fun v offset same => by cases same
  · rename_i pending
    rw [if_neg pending] at agenda
    rw [List.append_nil]
    exact sound.of_same agenda slots.2 slots.1

omit [MediaStore σ] in
/-- A dispatch is heedful if draining is where time is folded in and the head is due. -/
theorem process_heedful {drain : Motion σ ω} {within : Diary σ ω}
    (inner : ∀ past s, Sound idleWait none past s → s.agenda.Settled →
      (Smooth idleWait past → s.agenda.interval.toInt ≤ 0) → Heeds idleWait past (within s) ∧
        ∀ result t, drain s = some (result, t) → Sound idleWait none (past ++ within s) t) :
    Motion.Heedful idleWait (Scheduler.process drain) (Scheduler.processEvents drain within) := by
  intro past s sound
  unfold Scheduler.process Scheduler.processEvents
  split
  · refine ⟨trivial, fun result t ended => ?_⟩
    simp only [Option.some.injEq, Prod.mk.injEq] at ended
    rw [← ended.2, List.append_nil]
    exact sound.of_same rfl rfl rfl
  let t : Scheduler σ ω := { s with agenda := s.agenda.settle, dispatching := true }
  have settled : Sound idleWait none (past ++ [.changed .settled]) t :=
    sound.changed (fun _ => id) trivial rfl rfl (sound.proper.of_slots rfl) (fun _ _ => rfl)
      (fun _ _ _ _ => rfl) (fun _ => trivial) fun v offset same => by cases same
  have due : Smooth idleWait (past ++ [.changed .settled]) → t.agenda.interval.toInt ≤ 0 := by
    intro smooth
    show s.agenda.settle.interval.toInt ≤ 0
    rw [interval_settle]
    exact (sound.last smooth).2
  dsimp only
  split
  · rename_i empty
    refine ⟨⟨trivial, trivial, trivial⟩, fun result t' ended => ?_⟩
    simp only [Option.some.injEq, Prod.mk.injEq] at ended
    rw [← ended.2, List.append_cons]
    exact settled.changed (fun _ => id) (List.isEmpty_iff.1 empty) rfl rfl
      (sound.proper.of_slots rfl) (fun _ _ => rfl) (fun _ _ _ _ => rfl) (fun _ => trivial)
      fun v offset same => by cases same
  · obtain ⟨heeds, ends⟩ := inner _ t settled (settled_settle s.agenda) due
    cases drained : drain t with
    | none =>
      refine ⟨⟨trivial, by rwa [List.append_nil]⟩, fun result t' ended => by cases ended⟩
    | some answer =>
      obtain ⟨result, left⟩ := answer
      dsimp only
      refine ⟨⟨trivial, heeds_append.2 ⟨heeds, ?_⟩⟩, fun result' t' ended => ?_⟩
      · split
        · exact ⟨trivial, trivial⟩
        · trivial
      · have after := (ends _ _ drained).conclude result
        rw [Option.some.inj ended, List.append_assoc, List.append_assoc] at after
        exact after

/-- Draining a queue whose head is due breaks no promise. -/
theorem drain_heedful (pops : Nat) (past : List Event) (s : Scheduler σ ω)
    (sound : Sound idleWait none past s) (settled : s.agenda.Settled)
    (due : Smooth idleWait past → s.agenda.interval.toInt ≤ 0) :
    Heeds idleWait past (Scheduler.drainEvents pops s) ∧
      ∀ result t, Scheduler.drain pops s = some (result, t) →
        Sound idleWait none (past ++ Scheduler.drainEvents pops s) t := by
  induction pops generalizing past s with
  | zero => exact ⟨trivial, fun result t ended => by simp [Scheduler.drain] at ended⟩
  | succ pops ih =>
    have inner := process_heedful (σ := σ) (ω := ω) ih
    rw [Scheduler.drainEvents, Scheduler.drain]
    cases popped : s.agenda.pop? with
    | none =>
      refine ⟨trivial, fun result t ended => ?_⟩
      simp only [Option.some.injEq, Prod.mk.injEq] at ended
      rw [← ended.2, List.append_nil]
      exact sound
    | some answer =>
      obtain ⟨u, agenda⟩ := answer
      obtain ⟨heeds, ends⟩ := (sound.popped settled due popped).fire inner
      dsimp only
      cases fired : Scheduler.fire (Scheduler.process (Scheduler.drain pops)) u { s with agenda } with
      | none => exact ⟨⟨trivial, by rwa [List.append_nil]⟩, fun result t ended => by cases ended⟩
      | some answer =>
        obtain ⟨result, left⟩ := answer
        have after := (ends _ _ fired).tellAnomaly u result
        -- The callback has spent no ticks, so none are left to be folded in.
        have folded : left.Conserving s.agenda.elapsedWrapping True :=
          Scheduler.fire_conserving (Scheduler.processEvent_conserving pops) u { s with agenda }
            ⟨sound.proper.frugal.of_slots rfl, Agenda.Shows.popped ⟨rfl, fun _ => settled⟩ popped⟩
            _ _ fired
        have still : (left.tellAnomaly u result).agenda.Settled := by
          rw [Scheduler.agenda_tellAnomaly]
          exact folded.shows.settled trivial
        rw [List.append_assoc] at after
        dsimp only
        split
        · rename_i on
          obtain ⟨-, next, -, -⟩ := Scheduler.goesOn_iff.1 on
          obtain ⟨more, last⟩ := ih _ _ after still fun _ => next
          rw [← List.append_assoc] at more last
          refine ⟨⟨trivial, heeds_append.2 ⟨heeds, ?_⟩⟩, fun result' t ended => ?_⟩
          · exact more
          · have done := last result' t ended
            rw [List.append_assoc, List.append_assoc] at done
            exact done
        · refine ⟨⟨trivial, by rwa [List.append_nil]⟩, fun result' t ended => ?_⟩
          simp only [Option.some.injEq, Prod.mk.injEq] at ended
          rw [← ended.2, List.append_nil]
          exact after

theorem Program.Proper.run {p : Program ω} {spends : Bool} (proper : p.Proper spends) (pops : Nat) :
    Motion.Heedful idleWait (p.run pops : Motion σ ω) (p.runEvents pops) :=
  proper.heedful (process_heedful (drain_heedful pops))

/-! ## Runs -/

/-- Schedulers that come up in the course of a simulation whose programs are proper, with the events so
far. -/
inductive Scheduler.Logged (idleWait : Int32) : Scheduler σ ω → List Event → Prop
  /-- The agenda is empty and time is 0. -/
  | start {s : Scheduler σ ω} :
    s.agenda = .start idleWait → s.Carries (Program.Proper false) → Logged idleWait s []
  /-- All but the agenda, the rate and the waits and transfers of units may be changed from outside. -/
  | aside {s t : Scheduler σ ω} {l : List Event} :
    Logged idleWait s l → t.Carries (Program.Proper false) → t.agenda = s.agenda → t.rate = s.rate →
      (∀ u, (t.slot u).delay = (s.slot u).delay) → (∀ u, (t.slot u).parked = (s.slot u).parked) →
      Logged idleWait t l
  /-- A program is run. -/
  | run {s t : Scheduler σ ω} {l : List Event} {p : Program ω} {pops : Nat} {result : Result} :
    Logged idleWait s l → p.Proper true → p.run pops s = some (result, t) →
      Logged idleWait t (l ++ p.runEvents pops s)

theorem Scheduler.Logged.sound {l : List Event} (logged : s.Logged idleWait l) :
    Sound idleWait none l s ∧ Heeds idleWait [] l := by
  induction logged with
  | start empty proper =>
    refine ⟨⟨proper, empty, trivial, fun _ u deadline _ promised => ?_⟩, trivial⟩
    exact absurd promised not_promised_nil
  | aside _ proper agenda rate delay parked ih =>
    exact ⟨ih.1.aside proper agenda rate (fun u _ => delay u) fun u _ => parked u, ih.2⟩
  | run _ proper ended ih =>
    obtain ⟨heeds, ends⟩ := proper.run _ _ _ ih.1
    exact ⟨ends _ _ ended, heeds_append.2 ⟨ih.2, heeds⟩⟩

/-- In the course of any simulation whose programs leave transfers with units through deferred backends
only and whose callbacks spend no ticks: if a transfer is left with an idle unit for a latency that a
tick count covers, and the unit is neither taken out of the queue nor given another transfer before it
hands one over, then by that moment no fewer than these ticks have elapsed, provided that up to it
nothing has overflowed, no ticks were spent backwards, and every dispatch found the interval run out. -/
theorem completion_is_never_early {l before since after : List Event} {ticks : Int32}
    (logged : s.Logged idleWait l) {p : Program ω} (proper : p.Proper true) (pops : Nat)
    (course : l ++ p.runEvents pops s =
      before ++ .parked u ticks 0 :: since ++ .delivered u :: after)
    (idle : u ∉ ((Agenda.start idleWait).after (changesIn before)).units)
    (undisturbed : ∀ e ∈ since, ¬e.Ends u)
    (exact : Trail Change.Exact (.start idleWait) (changesIn (before ++ .parked u ticks 0 :: since)))
    (patient : Trail Change.Patient (.start idleWait)
      (changesIn (before ++ .parked u ticks 0 :: since))) :
    elapsed (changesIn before) + max ticks.toInt 0 ≤
      elapsed (changesIn (before ++ .parked u ticks 0 :: since)) := by
  obtain ⟨sound, heeds⟩ := logged.sound
  have all := heeds_append.2 ⟨heeds, (proper.run pops l s sound).1⟩
  rw [course] at all
  have heeded := (heeds_append.1 all).2.1
  rw [List.nil_append] at heeded
  exact heeded ⟨exact, patient⟩ _ ⟨before, ticks, since, rfl, undisturbed, idle, rfl⟩

end

/-- A latency of five microseconds at a tick per microsecond, a first dispatch that comes two ticks
late, and an attempt to hurry the unit that holds the transfer. -/
theorem late_dispatch_delays_completion :
    ∃ since after : List Event,
      (let s : Scheduler MemoryImages Unit := .start 100 1000000 () default (.empty none)
       let hurry : Program Unit := .call (.activateAfter 0 1) fun _ => .call (.activate 0 0) fun _ =>
         .call (.consume 5) fun _ => .dispatch .done
       let p : Program Unit := .call (.addUnit { name := "A" }) fun _ =>
         (Backend.deferred 512 5).submit 0 (.read 0 1) (fun _ => .done (.ok ())) fun _ =>
           .call (.consume 2) fun _ => .dispatch fun _ => hurry
       p.runEvents 2 s) = .parked 0 5 0 :: since ++ .delivered 0 :: after ∧
        5 ≤ elapsed (changesIn (.parked 0 5 0 :: since)) := by
  let s : Scheduler MemoryImages Unit := .start 100 1000000 () default (.empty none)
  let hurry : Program Unit := .call (.activateAfter 0 1) fun _ => .call (.activate 0 0) fun _ =>
    .call (.consume 5) fun _ => .dispatch .done
  let p : Program Unit := .call (.addUnit { name := "A" }) fun _ =>
    (Backend.deferred 512 5).submit 0 (.read 0 1) (fun _ => .done (.ok ())) fun _ =>
      .call (.consume 2) fun _ => .dispatch fun _ => hurry
  let since : List Event := [.changed (.queued 0 0), .changed (.spent 2), .changed .settled,
    .changed (.popped 0 (-2)), .changed (.queued 0 5), .changed (.spent 5), .changed .settled,
    .changed (.popped 0 0)]
  have rest : hurry.Proper true :=
    .call (.inl trivial) fun _ => .call (.inl trivial) fun _ => .call (.inr rfl) fun _ =>
      .dispatch fun _ => .done _
  have proper : p.Proper true :=
    .call (.inl trivial) fun _ => .submit (fun _ => .done _) fun _ => .call (.inr rfl) fun _ =>
      .dispatch fun _ => rest
  have course : [] ++ p.runEvents 2 s =
      [] ++ .parked 0 5 0 :: since ++ .delivered 0 :: [.changed .rested] := by decide +kernel
  exact ⟨since, [.changed .rested], course,
    completion_is_never_early (.start rfl (Scheduler.carries_of_empty rfl)) proper 2 course
      (by decide +kernel) (by decide) (by decide +kernel) (by decide +kernel)⟩

end Peripheral
