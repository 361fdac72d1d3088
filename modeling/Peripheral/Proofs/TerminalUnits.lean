import Peripheral.Proofs.Transcript

/-!
# The units of a terminal

The keyboard of a terminal always comes back, and the printer as long as something is to be displayed.
Neither they nor anything around them loses a byte.

* `Terminal.Conserves` : board and transcript agree, and both units are in the queue when they have to be;
* `bears_holding` : so it stays whatever others do;
* `Balanced.display_run`, `Balanced.poll_run` : what the two units do;
* `Conserves.fire`, `Conserves.drain`, `Conserves.processEvent` : **dispatches lose no byte, leave both units
  in the queue, and end when they take the interrupt character**.
-/

namespace Peripheral

variable {σ ε : Type}

namespace Terminal
open Parlor

variable {t : Terminal}

/-! ## The terminal in its machine -/

/-- Nothing is lost, and the units of the terminal are in the queue: the printer while there is something to
be displayed, the keyboard always. A unit that is being fired may be out of it. -/
structure Conserves (t : Terminal) (free : Option UnitId) (s : Scheduler σ (Parlor ε)) : Prop extends
    s.Staffed t.license where
  apart : t.keyboard ≠ t.printer
  balanced : t.Balanced s.world
  prints : free ≠ some t.printer → (s.world.terminal t.record).output ≠ [] → t.printer ∈ s.agenda.units
  polls : free ≠ some t.keyboard → t.keyboard ∈ s.agenda.units

/-- No byte is lost and so many keys have been taken. -/
def Holding (t : Terminal) (taken : List UInt8) (s : Scheduler σ (Parlor ε)) : Prop :=
  t.Conserves none s ∧ s.world.taken = taken

variable {s s' : Scheduler σ (Parlor ε)} {free : Option UnitId} {taken : List UInt8}

theorem Conserves.of_same (here : t.Conserves free s) (slots : ∀ u, s'.slot u = s.slot u)
    (size : s'.slots.size = s.slots.size) (units : s'.agenda.units = s.agenda.units)
    (spared : t.Spared s.world s'.world) : t.Conserves free s' where
  toStaffed := here.toStaffed.of_slots slots size
  apart := here.apart
  balanced := here.balanced.spared spared
  prints running pending := by
    rw [spared.terminal] at pending
    exact units ▸ here.prints running pending
  polls running := units ▸ here.polls running

theorem Holding.of_same (here : t.Holding taken s) (slots : ∀ u, s'.slot u = s.slot u)
    (size : s'.slots.size = s.slots.size) (units : s'.agenda.units = s.agenda.units)
    (spared : t.Spared s.world s'.world) : t.Holding taken s' :=
  ⟨here.1.of_same slots size units spared, spared.taken.trans here.2⟩

theorem Conserves.modifySlot (here : t.Conserves free s) {u : UnitId} (f : Slot (Parlor ε) → Slot (Parlor ε))
    (other : (t.license : License (Parlor ε)).staff u = none)
    (carries : (f (s.slot u)).Carries (Program.Within t.license))
    (hooks : ∀ hook, (f (s.slot u)).hook = some hook → ∀ b, t.Spared b (hook b).2) :
    t.Conserves free (s.modifySlot u f) :=
  ⟨here.toStaffed.modifySlot other f carries hooks, here.apart, here.balanced, here.prints, here.polls⟩

theorem Conserves.book (here : t.Conserves none s) {b : Parlor ε} (balanced : t.Balanced b) :
    t.Conserves none ({ s with world := b }.activate t.printer t.outputTicks).2 where
  toStaffed := (here.toStaffed.of_same_slots (t := { s with world := b }) rfl).of_slots
    (Scheduler.slot_activate t.printer · t.outputTicks _) (Scheduler.size_activate t.printer t.outputTicks _)
  apart := here.apart
  balanced := by
    rw [Scheduler.world_activate]
    exact balanced
  prints _ _ := Scheduler.mem_units_activate t.printer t.outputTicks _
  polls running := Scheduler.mem_units_activate_of_mem t.printer t.outputTicks (here.polls running)

/-- A call leaves the terminal alone: at most the hook of a unit changes the world. -/
theorem spared_perform [MediaStore σ]
    (hooks : ∀ u hook, (s.slot u).hook = some hook → ∀ b, t.Spared b (hook b).2) (c : Call) :
    t.Spared s.world (s.perform c).2.world := by
  rw [Scheduler.world_perform]
  cases c with
  | cancel u =>
    unfold Scheduler.asked
    dsimp only
    cases installed : (s.slot u).hook with
    | none => exact .refl _
    | some hook => exact hooks u hook installed s.world
  | _ => exact .refl _

theorem bears_holding [MediaStore σ] :
    (t.license : License (Parlor ε)).Bears (t.Holding taken : Scheduler σ (Parlor ε) → Prop) where
  staffed s here := here.1.toStaffed
  perform s c here _ spares := by
    have spared : t.Spared s.world (s.perform c).2.world := spared_perform here.1.hooks c
    refine ⟨⟨here.1.toStaffed.perform spares, here.1.apart, here.1.balanced.spared spared, ?_, ?_⟩,
      spared.taken.trans here.2⟩
    · intro running pending
      rw [spared.terminal] at pending
      exact Scheduler.mem_units_spared (spares _ _ (license_printer here.1.apart))
        (here.1.prints running pending)
    · intro running
      exact Scheduler.mem_units_spared (spares _ _ license_keyboard) (here.1.polls running)
  change s f here permitted := here.of_same (fun _ => rfl) rfl rfl (permitted s.world)
  modifySlot s u f here other carries hooks := ⟨here.1.modifySlot f other carries hooks, here.2⟩
  deed s _ m here deed := by
    cases deed with
    | give byte =>
      refine ⟨(), _, ⟨here.1.book (here.1.balanced.give byte), ?_⟩, fun dispatch => exec_give dispatch s byte⟩
      exact (congrArg Parlor.taken (Scheduler.world_activate _ _ _)).trans here.2
    | receive =>
      have kept : ((t.received s.world).terminal t.record).output = (s.world.terminal t.record).output := by
        show ((t.modify _ s.world).terminal t.record).output = _
        rw [terminal_modify here.1.balanced.present]
      refine ⟨_, { s with world := t.received s.world },
        ⟨⟨here.1.toStaffed.of_same_slots rfl, here.1.apart, here.1.balanced.receive, ?_, here.1.polls⟩, here.2⟩,
        fun dispatch => exec_receive dispatch s⟩
      intro running pending
      exact here.1.prints running (kept ▸ pending)
    | typeKeys keys =>
      obtain ⟨balanced, same⟩ := here.1.balanced.typeKeys keys
      exact ⟨(), { s with world := typed keys s.world },
        ⟨⟨here.1.toStaffed.of_same_slots rfl, here.1.apart, balanced, here.1.prints, here.1.polls⟩,
          same.trans here.2⟩, fun dispatch => exec_typeKeys dispatch s keys⟩

/-! ## What the units do -/

/-- Of the keys taken in a dispatch none is the interrupt character, or the last one is, and has ended the
dispatch. -/
def Obeys (keys : List UInt8) (result : Result) : Prop :=
  interruptChar ∉ keys ∨
    ∃ before, keys = before ++ [interruptChar] ∧ interruptChar ∉ before ∧ result = .error .stopped

/-- A unit of the terminal has run: it took keys, and left units and queue as they are but for itself. -/
structure Acted (t : Terminal) (keys : List UInt8) (s s' : Scheduler σ (Parlor ε)) : Prop where
  balanced : t.Balanced s'.world
  taken : s'.world.taken = s.world.taken ++ keys
  queued : ∀ u ∈ s.agenda.units, u ∈ s'.agenda.units

section
variable [MediaStore σ] {dispatch : Motion σ (Parlor ε)} {result : Result}

/-- The printer displays a character, and comes back if there is another one. -/
theorem Balanced.display_run (balanced : t.Balanced s.world)
    (ended : t.display.exec dispatch s = some (result, s')) :
    t.Acted [] s s' ∧ result = .ok () ∧
      ((s'.world.terminal t.record).output ≠ [] → t.printer ∈ s'.agenda.units) := by
  simp only [Terminal.display, Program.exec] at ended
  cases pending : (s.world.terminal t.record).output with
  | nil =>
    rw [pending] at ended
    cases ended
    exact ⟨⟨balanced, (List.append_nil _).symm, fun _ => id⟩, rfl, fun more => absurd pending more⟩
  | cons byte rest =>
    rw [pending] at ended
    let next : Parlor ε := { t.modify (fun r => { r with output := rest }) s.world with
      console := Console.write byte s.world.console }
    have after : t.Balanced next := balanced.display pending
    have left : (next.terminal t.record).output = rest := by
      show ((t.modify _ s.world).terminal t.record).output = _
      rw [terminal_modify balanced.present]
    cases rest with
    | nil =>
      cases ended
      exact ⟨⟨after, (List.append_nil _).symm, fun _ => id⟩, rfl, fun more => absurd left more⟩
    | cons byte' rest =>
      have same : (({ s with world := next } : Scheduler σ (Parlor ε)).activate t.printer t.outputTicks).2 =
          s' ∧ Except.ok () = result := by
        obtain ⟨rfl, rfl⟩ := Prod.mk.inj (Option.some.inj ended)
        exact ⟨rfl, rfl⟩
      obtain ⟨rfl, rfl⟩ := same
      refine ⟨⟨?_, ?_, fun u there => Scheduler.mem_units_activate_of_mem _ _ there⟩, rfl,
        fun _ => Scheduler.mem_units_activate t.printer t.outputTicks _⟩
      · rw [Scheduler.world_activate]
        exact after
      · rw [Scheduler.world_activate]
        exact (List.append_nil _).symm

theorem exec_poll (s : Scheduler σ (Parlor ε)) :
    t.poll.exec dispatch s =
      let after : Scheduler σ (Parlor ε) :=
        { (s.activate t.keyboard t.pollTicks).2 with world := (t.takes s.world).2 }
      some (if (t.takes s.world).1 then (.error .stopped, after.tell .interruptCharacter)
        else (.ok (), after)) := exec_taking rfl

/-- The keyboard comes back, and takes keys up to the interrupt character. -/
theorem Balanced.poll_run (balanced : t.Balanced s.world)
    (ended : t.poll.exec dispatch s = some (result, s')) :
    ∃ keys, t.Acted keys s s' ∧ Obeys keys result ∧ t.keyboard ∈ s'.agenda.units ∧
      (s'.world.terminal t.record).output = (s.world.terminal t.record).output := by
  have booked := Scheduler.mem_units_activate t.keyboard t.pollTicks s
  have queued : ∀ u ∈ s.agenda.units, u ∈ (s.activate t.keyboard t.pollTicks).2.agenda.units :=
    fun u there => Scheduler.mem_units_activate_of_mem _ _ there
  obtain ⟨keys, clean, after, took, same⟩ := balanced.takes
  rw [exec_poll] at ended
  cases interrupted : (t.takes s.world).1 with
  | true =>
    rw [interrupted] at ended took
    cases ended
    exact ⟨_, ⟨after, took, queued⟩, .inr ⟨keys, rfl, clean, rfl⟩, booked, same⟩
  | false =>
    rw [interrupted] at ended took
    cases ended
    exact ⟨_, ⟨after, took, queued⟩, .inl (by simpa using clean), booked, same⟩

/-! ## Dispatches -/

omit [MediaStore σ] in
theorem Conserves.pop (here : t.Conserves none s) {u : UnitId} {agenda : Agenda}
    (popped : s.agenda.pop? = some (u, agenda)) : t.Conserves (some u) { s with agenda } := by
  have units := Agenda.units_of_pop? popped
  refine ⟨here.toStaffed.of_same_slots rfl, here.apart, here.balanced, fun other pending => ?_, fun other => ?_⟩
  · have there := here.prints nofun pending
    rw [units] at there
    exact (List.mem_cons.1 there).resolve_left fun same => other (congrArg some same.symm)
  · have there := here.polls nofun
    rw [units] at there
    exact (List.mem_cons.1 there).resolve_left fun same => other (congrArg some same.symm)

omit [MediaStore σ] in
theorem Conserves.acted {b last : Scheduler σ (Parlor ε)} {keys : List UInt8} (here : t.Conserves free s)
    (acted : t.Acted keys b last) (world : b.world = s.world) (agenda' : s'.agenda = last.agenda)
    (world' : s'.world = last.world) (slots : ∀ u, s'.slot u = s.slot u)
    (size : s'.slots.size = s.slots.size)
    (prints : (last.world.terminal t.record).output ≠ [] → t.printer ∈ last.agenda.units)
    (polls : t.keyboard ∈ last.agenda.units) :
    t.Conserves none s' ∧ s'.world.taken = s.world.taken ++ keys := by
  rw [← agenda'] at prints polls
  rw [← world'] at prints
  refine ⟨⟨here.toStaffed.of_slots slots size, here.apart, world' ▸ acted.balanced, fun _ => prints,
    fun _ => polls⟩, ?_⟩
  rw [world', ← world]
  exact acted.taken

/-- A unit that fires loses no byte, and is in the queue again if it has to be. -/
theorem Conserves.fire {u : UnitId} (here : t.Conserves (some u) s)
    (fired : Scheduler.fire dispatch u s = some (result, s')) :
    t.Conserves none s' ∧ ∃ keys, s'.world.taken = s.world.taken ++ keys ∧ Obeys keys result := by
  have printer_queued := here.prints
  have keyboard_queued := here.polls
  by_cases keyboard : u = t.keyboard
  · subst keyboard
    obtain ⟨b, last, ran, agenda, world, agenda', world', slots, size⟩ :=
      here.toStaffed.fire_staff license_keyboard (fun b result last ran => slots_poll ran) fired
    obtain ⟨keys, acted, obeys, polls, same⟩ := Balanced.poll_run (world ▸ here.balanced) ran
    have prints : (last.world.terminal t.record).output ≠ [] → t.printer ∈ last.agenda.units := by
      intro pending
      rw [same, world] at pending
      refine acted.queued _ (agenda ▸ printer_queued (fun same => ?_) pending)
      exact here.apart (Option.some.inj same)
    obtain ⟨after, taken⟩ := here.acted acted world agenda' world' slots size prints polls
    exact ⟨after, keys, taken, obeys⟩
  by_cases printer : u = t.printer
  · subst printer
    obtain ⟨b, last, ran, agenda, world, agenda', world', slots, size⟩ :=
      here.toStaffed.fire_staff (license_printer here.apart) (fun b result last ran => slots_display ran)
        fired
    obtain ⟨acted, -, prints⟩ := Balanced.display_run (world ▸ here.balanced) ran
    have polls : t.keyboard ∈ last.agenda.units := by
      refine acted.queued _ (agenda ▸ keyboard_queued fun same => ?_)
      exact here.apart (Option.some.inj same).symm
    obtain ⟨after, taken⟩ := here.acted acted world agenda' world' slots size prints polls
    exact ⟨after, [], taken, .inl List.not_mem_nil⟩
  · have whole : t.Holding s.world.taken s :=
      ⟨⟨here.toStaffed, here.apart, here.balanced, fun _ => here.prints fun same =>
        printer (Option.some.inj same), fun _ => here.polls fun same => keyboard (Option.some.inj same)⟩, rfl⟩
    obtain ⟨after, taken⟩ := bears_holding.fire_others (license_none.2 ⟨keyboard, printer⟩) dispatch s whole
      _ _ fired
    exact ⟨after, [], taken.trans (List.append_nil _).symm, .inl List.not_mem_nil⟩

omit [MediaStore σ] in
theorem steady_holding : Scheduler.Steady (t.Holding taken : Scheduler σ (Parlor ε) → Prop) where
  tell _ _ here := here.of_same (fun _ => rfl) rfl rfl (.refl _)
  stop _ _ here := here.of_same (fun _ => rfl) rfl rfl (.refl _)
  dispatching _ _ here := here.of_same (fun _ => rfl) rfl rfl (.refl _)
  settle s here := here.of_same (fun _ => rfl) rfl s.agenda.units_settle (.refl _)
  rearm s here _ := here.of_same (fun _ => rfl) rfl s.agenda.units_rearm (.refl _)

omit [MediaStore σ] in
/-- Keys that were taken without an interrupt come before those of the rest of the dispatch. -/
theorem Obeys.append {keys keys' : List UInt8} {result : Result} (first : interruptChar ∉ keys)
    (second : Obeys keys' result) : Obeys (keys ++ keys') result := by
  rcases second with clean | ⟨before, rfl, clean, stopped⟩
  · exact .inl fun there => (List.mem_append.1 there).elim first clean
  · refine .inr ⟨keys ++ before, (List.append_assoc _ _ _).symm, fun there => ?_, stopped⟩
    exact (List.mem_append.1 there).elim first clean

theorem Conserves.drain (pops : Nat) (here : t.Conserves none s)
    (drained : Scheduler.drain pops s = some (result, s')) :
    t.Conserves none s' ∧ ∃ keys, s'.world.taken = s.world.taken ++ keys ∧ Obeys keys result := by
  induction pops generalizing s with
  | zero => simp [Scheduler.drain] at drained
  | succ pops ih =>
    rw [Scheduler.drain] at drained
    split at drained
    · cases drained
      exact ⟨here, [], (List.append_nil _).symm, .inl List.not_mem_nil⟩
    · rename_i u agenda popped
      split at drained
      · cases drained
      · rename_i first b fired
        obtain ⟨after, keys, taken, obeys⟩ := (here.pop popped).fire fired
        obtain ⟨told, same⟩ := steady_holding.tellAnomaly (⟨after, rfl⟩ : t.Holding b.world.taken b) u first
        dsimp only at drained
        split at drained
        · rename_i on
          obtain ⟨left, keys', taken', obeys'⟩ := ih told drained
          have well : first.isOk = true := (Scheduler.goesOn_iff.1 on).1
          have clean : interruptChar ∉ keys := by
            rcases obeys with clean | ⟨_, _, _, stopped⟩
            · exact clean
            · rw [stopped] at well
              cases well
          refine ⟨left, keys ++ keys', ?_, .append clean obeys'⟩
          rw [taken', same, taken, List.append_assoc]
        · cases drained
          exact ⟨told, keys, same.trans taken, obeys⟩

/-- A dispatch loses no byte. Of the keys that it takes, only the last may be the interrupt character, with
which it ends. -/
theorem Conserves.processEvent {pops : Nat} (here : t.Conserves none s)
    (ended : s.processEvent pops = some (result, s')) :
    t.Conserves none s' ∧ ∃ keys, s'.world.taken = s.world.taken ++ keys ∧ Obeys keys result := by
  have whole : t.Holding s.world.taken s := ⟨here, rfl⟩
  have quiet : ∀ {b : Scheduler σ (Parlor ε)} {result : Result}, t.Holding s.world.taken b →
      t.Conserves none b ∧ ∃ keys, b.world.taken = s.world.taken ++ keys ∧ Obeys keys result :=
    fun same => ⟨same.1, [], same.2.trans (List.append_nil _).symm, .inl List.not_mem_nil⟩
  simp only [Scheduler.processEvent, Scheduler.process] at ended
  split at ended
  · cases ended
    exact quiet (steady_holding.stop s false whole)
  have settled := steady_holding.settle s whole
  split at ended
  · rename_i empty
    cases ended
    exact quiet (steady_holding.tell _ _ (steady_holding.rearm _ settled (List.isEmpty_iff.1 empty)))
  split at ended
  · cases ended
  · rename_i result' b drained
    obtain ⟨start, same⟩ := steady_holding.dispatching _ true settled
    obtain ⟨left, keys, taken, obeys⟩ := start.drain pops drained
    obtain ⟨last, kept⟩ := steady_holding.conclude (⟨left, rfl⟩ : t.Holding b.world.taken b) result'
    have told : (b.conclude result').1 = result ∧ (b.conclude result').2 = s' :=
      Prod.mk.inj (Option.some.inj ended)
    rw [told.2] at last kept
    refine ⟨last, keys, ?_, ?_⟩
    · rw [kept, taken, same]
    · rcases obeys with clean | ⟨before, all, clean, rfl⟩
      · exact .inl clean
      · exact .inr ⟨before, all, clean, told.1.symm.trans rfl⟩

end

end Terminal

end Peripheral
