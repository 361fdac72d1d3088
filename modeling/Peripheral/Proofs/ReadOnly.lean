import Peripheral.Proofs.Enduring
import Peripheral.Storage.Faults
import Peripheral.Storage.HostFiles
import Peripheral.Storage.MemoryImages

/-!
# Read-only units

A read-only unit is never dirty and changes no medium, however it is attached, detached, read, written and asked
for transfers, and whatever happens to the other units meanwhile.

* `MediaStore.Quiet` : collections that no call but a write changes;
* `Endpoint.Locked` : a read-only unit that is not dirty (`Locked.attach`, `Locked.detach`, `Locked.write`,
  `Locked.transfer`);
* `Program.Makes C` : programs all of whose calls meet `C`, with all callbacks that they install (`keeps_of_makes`,
  `run_keeps_of_makes`);
* `Scheduler.Locks u` : the unit is locked, **which no call on any unit changes** (`Locks.perform`);
* `Call.Handles u` : calls that change no medium unless through `u`, and none if `u` is locked
  (`Locks.media_perform`);
* `Scheduler.Lives u` : all that happens to a scheduler, with what others than `u` make of the media; `Led` : the media
  go from one such change to the next;
* `read_only_unit_changes_nothing` : **media change by others only, and the unit is never dirty**.
-/

namespace Peripheral

variable {σ ω : Type} [MediaStore σ]

/-! ## Collections -/

/-- No call but a write changes the collection. -/
class MediaStore.Quiet (σ : Type) [MediaStore σ] : Prop where
  openMedium : ∀ name readOnly (s : σ), (MediaStore.openMedium name readOnly s).2 = s
  length : ∀ medium (s : σ), (MediaStore.length medium s).2 = s
  read : ∀ medium offset count (s : σ), (MediaStore.read medium offset count s).2 = s
  flush : ∀ medium (s : σ), (MediaStore.flush medium s).2 = s

open MediaStore

instance : Quiet MemoryImages where
  openMedium _ _ _ := rfl
  length _ _ := rfl
  read _ _ _ _ := rfl
  flush _ _ := rfl

instance : Quiet HostFiles where
  openMedium _ _ _ := rfl
  length _ _ := rfl
  read _ _ _ _ := rfl
  flush _ _ := rfl

omit [MediaStore σ] in
theorem Faulty.guard_quiet {α : Type} (medium : Handle) (call : MediaCall) {through : σ → Except Status α × σ}
    (s : Faulty σ) (quiet : (through s.media).2 = s.media) : (s.guard medium call through).2 = s := by
  unfold guard
  split
  · rfl
  · dsimp only
    rw [quiet]

instance [Quiet σ] : Quiet (Faulty σ) where
  openMedium name readOnly s := by
    show ({ s with media := (MediaStore.openMedium name readOnly s.media).2 } : Faulty σ) = s
    rw [Quiet.openMedium]
  length medium s := Faulty.guard_quiet medium _ s (Quiet.length medium s.media)
  read medium offset count s := Faulty.guard_quiet medium _ s (Quiet.read medium offset count s.media)
  flush medium s := Faulty.guard_quiet medium _ s (Quiet.flush medium s.media)

/-! ## Endpoints -/

/-- A read-only unit that is not dirty. -/
structure Endpoint.Locked (e : Endpoint) : Prop where
  readOnly : e.can.readOnly = true
  clean : e.isDirty = false

namespace Endpoint

variable {e : Endpoint}

theorem load_quiet [Quiet σ] (medium : Handle) (e : Endpoint) (s : σ) : (e.load medium s).2.1 = s := by
  have sized : (e.bufferSize medium s).2 = s := by
    unfold bufferSize
    split
    · exact Quiet.length medium s
    · rfl
  unfold load
  generalize e.bufferSize medium s = answer at sized ⊢
  obtain ⟨status | size, media⟩ := answer
  · exact sized
  · obtain rfl : media = s := sized
    dsimp only
    split
    · exact Quiet.read medium 0 size media
    · rfl

theorem read_quiet [Quiet σ] (offset : UInt64) (count : Nat) (e : Endpoint) (s : σ) :
    (e.read offset count s).2 = s := by
  unfold Endpoint.read
  split
  · rfl
  · split
    · split <;> rfl
    · split
      · rfl
      · exact Quiet.read _ offset count s

theorem readSectors_quiet [Quiet σ] (sectorSize lba : UInt64) (sectors : UInt32) (e : Endpoint) (s : σ) :
    (e.readSectors sectorSize lba sectors s).2 = s := by
  unfold readSectors
  dsimp only
  split
  · rfl
  split
  · rfl
  rename_i offset _
  split
  · rfl
  have left := read_quiet offset (sectorSize.toNat * sectors.toNat) e s
  generalize e.read offset (sectorSize.toNat * sectors.toNat) s = answer at left ⊢
  obtain ⟨status | reading, media⟩ := answer
  · exact left
  · exact left

theorem attach_quiet [Quiet σ] (name : String) (e : Endpoint) (s : σ) : (e.attach name s).2.2.1 = s := by
  unfold Endpoint.attach
  split
  · rfl
  split
  · rfl
  have opened := Quiet.openMedium name e.can.readOnly s
  generalize MediaStore.openMedium name e.can.readOnly s = answer at opened ⊢
  obtain ⟨status | medium, media⟩ := answer
  · exact opened
  obtain rfl : media = s := opened
  dsimp only
  split
  · have loaded := load_quiet medium e media
    generalize e.load medium media = answer at loaded ⊢
    obtain ⟨status | buffer, media', told⟩ := answer
    · exact loaded
    · exact loaded
  · rfl

theorem Locked.attach (h : e.Locked) (name : String) (s : σ) : (e.attach name s).2.1.Locked := by
  unfold Endpoint.attach
  split
  · exact h
  split
  · exact h
  split
  · exact h
  split
  · split
    · exact h
    · exact ⟨h.readOnly, rfl⟩
  · exact ⟨h.readOnly, rfl⟩

theorem Locked.detach (h : e.Locked) (s : σ) : (e.detach s).2.1.Locked ∧ (e.detach s).2.2.1 = s := by
  have freed : Locked { e with attachment := none, position := 0 } := ⟨h.readOnly, rfl⟩
  unfold Endpoint.detach
  split
  · exact ⟨h, rfl⟩
  split
  · exact ⟨h, rfl⟩
  rename_i a _
  dsimp only
  split
  · exact ⟨freed, rfl⟩
  · rw [if_neg (by simp [h.readOnly])]
    exact ⟨freed, rfl⟩

theorem Locked.write (h : e.Locked) (offset : UInt64) (data : Bytes) (s : σ) :
    e.write offset data s = (.error .readOnly, e, s) := by
  simp only [Endpoint.write, h.readOnly, if_true]

theorem Locked.transfer [Quiet σ] (h : e.Locked) (sectorSize : UInt64) (request : Request) (s : σ) :
    (e.transfer sectorSize request s).2 = (e, s) := by
  cases request with
  | read lba sectors => simp only [Endpoint.transfer, readSectors_quiet]
  | write lba data =>
    dsimp only [Endpoint.transfer, writeSectors]
    split
    · rfl
    split
    · rfl
    rw [h.write]

end Endpoint

/-! ## Programs by their calls -/

/-- All calls of the program meet `C`, whatever the answers are, and so do those of all callbacks that it installs. -/
def Program.Makes (C : Call → Prop) : Program ω → Prop
  | .done _ => True
  | .call c next => C c ∧ ∀ answer, (next answer).Makes C
  | .look next => ∀ world, (next world).Makes C
  | .change _ next => next.Makes C
  | .setAction _ action next => action.Makes C ∧ next.Makes C
  | .setHook _ _ next => next.Makes C
  | .park _ _ _ deliver next => (∀ outcome, (deliver outcome).Makes C) ∧ next.Makes C
  | .dispatch next => ∀ result, (next result).Makes C

omit [MediaStore σ] in
theorem Program.makes_any (p : Program ω) : p.Makes fun _ => True := by
  induction p with
  | done result => trivial
  | call c next ih => exact ⟨trivial, ih⟩
  | look next ih => exact ih
  | change f next ih => exact ih
  | setAction u action next ih ih' => exact ⟨ih, ih'⟩
  | setHook u hook next ih => exact ih
  | park u delay outcome deliver next ih ih' => exact ⟨ih, ih'⟩
  | dispatch next ih => exact ih

namespace Scheduler

/-- By induction on the program: what calls of a kind keep, a program of such calls keeps, if dispatches from inside
it do. -/
theorem keeps_of_makes {C : Call → Prop} {I : Scheduler σ ω → Prop} (static : Static I)
    (performs : ∀ s c, C c → I s → I (s.perform c).2) {p : Program ω} (makes : p.Makes C) {dispatch : Motion σ ω}
    (keeps : dispatch.Keeps (Guards (Program.Makes C) I)) :
    Motion.Keeps (Guards (Program.Makes C) I) (p.exec dispatch) := by
  induction p with
  | done result =>
    rintro s here _ _ ⟨⟩
    exact here
  | call c next ih =>
    intro s here result t ended
    exact ih _ (makes.2 _) _ ⟨performs s c makes.1 here.holds, here.carries.perform c⟩ result t ended
  | look next ih => exact fun s here => ih s.world (makes s.world) s here
  | change f next ih => exact fun s here => ih makes _ (here.of_slots static rfl rfl)
  | setAction u action next _ ih =>
    exact fun s here => ih makes.2 _ (here.modifySlot static (here.carries.setAction u makes.1) fun _ => rfl)
  | setHook u hook next ih =>
    intro s here
    have carries : (s.modifySlot u fun slot => { slot with hook := some hook }).Carries (Program.Makes C) :=
      here.carries.modifySlot fun _ slot => ⟨slot.action, slot.parked⟩
    exact ih makes _ (here.modifySlot static carries fun _ => rfl)
  | park u delay outcome deliver next _ ih =>
    intro s here
    exact ih makes.2 _ (here.modifySlot static (here.carries.park u delay outcome makes.1) fun _ => rfl)
  | dispatch next ih =>
    intro s here result t ended
    rw [Program.exec] at ended
    split at ended
    · cases ended
    · rename_i dispatched
      exact ih _ (makes _) _ (keeps s here _ _ dispatched) result t ended

/-- A program that is run keeps what its calls and those of all callbacks keep. -/
theorem run_keeps_of_makes {C : Call → Prop} {I : Scheduler σ ω → Prop} (static : Static I)
    (performs : ∀ s c, C c → I s → I (s.perform c).2) {p : Program ω} (makes : p.Makes C) (pops : Nat) :
    Motion.Keeps (Guards (Program.Makes C) I) (p.run pops : Motion σ ω) :=
  keeps_of_makes static performs makes <|
    processEvent_guards static (fun _ keeps _ makes => keeps_of_makes static performs makes keeps) pops

/-! ## One call -/

variable {s t : Scheduler σ ω} {u : UnitId}

def Locks (u : UnitId) (s : Scheduler σ ω) : Prop := (s.slot u).endpoint.Locked

omit [MediaStore σ] in
theorem Locks.aside (here : s.Locks u) (same : (t.slot u).endpoint = (s.slot u).endpoint) : t.Locks u := by
  rw [Locks, same]
  exact here

theorem Locks.perform [Quiet σ] (here : s.Locks u) (c : Call) : (s.perform c).2.Locks u := by
  have locked : (s.slot u).endpoint.Locked := here
  have altered := alters_perform s c u
  unfold Locks
  generalize ((s.perform c).2.slot u).endpoint = e at altered ⊢
  cases altered with
  | kept => exact locked
  | added e new =>
    have blank : s.slot u = default := slot_of_size_le (Nat.le_of_eq new.symm)
    rw [blank] at locked
    exact nomatch locked.readOnly
  | positioned offset => exact ⟨locked.readOnly, locked.clean⟩
  | resized bytes => exact ⟨locked.readOnly, locked.clean⟩
  | attached name => exact locked.attach name s.media
  | detached => exact (locked.detach s.media).1
  | written offset data => rwa [locked.write]
  | moved sectorSize request => rwa [locked.transfer]

end Scheduler

/-- A call that changes no medium unless it is through `u`: it may do all to that unit, and to other units and to
media whatever writes nothing. -/
def Call.Handles (u : UnitId) : Call → Prop
  | .detach v | .write v _ _ | .transfer v _ _ => v = u
  | .writeMedium _ _ _ | .install _ _ => False
  | _ => True

namespace Scheduler

variable [Quiet σ] {s t : Scheduler σ ω} {u : UnitId}

theorem Locks.media_perform (here : s.Locks u) {c : Call} (handles : c.Handles u) :
    (s.perform c).2.media = s.media := by
  rw [mediaAfter_perform]
  cases c with
  | attach v name => exact Endpoint.attach_quiet name (s.slot v).endpoint s.media
  | detach v =>
    obtain rfl : v = u := handles
    exact (here.detach s.media).2
  | read v offset count => exact Endpoint.read_quiet offset count (s.slot v).endpoint s.media
  | write v offset data =>
    obtain rfl : v = u := handles
    exact congrArg (fun answer => answer.2.2) (here.write offset data s.media)
  | transfer v sectorSize request =>
    obtain rfl : v = u := handles
    exact congrArg Prod.snd (here.transfer sectorSize request s.media)
  | openMedium name readOnly => exact Quiet.openMedium name readOnly s.media
  | mediumLength medium => exact Quiet.length medium s.media
  | readMedium medium offset count => exact Quiet.read medium offset count s.media
  | flushMedium medium => exact Quiet.flush medium s.media
  | writeMedium | install => exact handles.elim
  | _ => rfl

end Scheduler

/-! ## All that happens -/

/-- The media go from `a` over the pairs of a list, the latest first, to where they are now: each pair begins where the
one before it has ended. -/
def Led (a : σ) : List (σ × σ) → σ → Prop
  | [], now => now = a
  | (before, after) :: earlier, now => now = after ∧ Led a earlier before

/-- All that happens to a scheduler. Calls on `u`, and programs that change no medium unless through `u` while all
callbacks are like that, leave the list as it is. Any other program, with whatever it dispatches, adds the media before
and after it. -/
inductive Scheduler.Lives (u : UnitId) (first : Scheduler σ ω) : List (σ × σ) → Scheduler σ ω → Prop
  | start : Lives u first [] first
  | called {others : List (σ × σ)} {s : Scheduler σ ω} {c : Call} :
    Lives u first others s → c.Handles u → Lives u first others (s.perform c).2
  | aside {others : List (σ × σ)} {s t : Scheduler σ ω} : Lives u first others s → t.media = s.media →
    (∀ v, (t.slot v).endpoint = (s.slot v).endpoint) → Lives u first others t
  | ran {others : List (σ × σ)} {s t : Scheduler σ ω} {p : Program ω} {pops : Nat} {result : Result} :
    Lives u first others s → p.Makes (Call.Handles u) → s.Carries (Program.Makes (Call.Handles u)) →
    p.run pops s = some (result, t) → Lives u first others t
  | other {others : List (σ × σ)} {s t : Scheduler σ ω} {p : Program ω} {pops : Nat} {result : Result} :
    Lives u first others s → p.run pops s = some (result, t) → Lives u first ((s.media, t.media) :: others) t

namespace Scheduler

variable {u : UnitId} {first s t : Scheduler σ ω} {others : List (σ × σ)}

omit [MediaStore σ] in
theorem static_locks : Static (Locks u : Scheduler σ ω → Prop) := fun _ _ _ same here => here.aside (same u)

/-- A unit that asks a backend for a transfer goes on after it with its completion, or with what it does next. -/
theorem Lives.submit (lives : first.Lives u others s) (b : Backend) (request : Request)
    (done : Outcome → Program ω) (next : Result → Program ω) (dispatch : Motion σ ω) :
    ∃ t p, first.Lives u others t ∧ Program.exec dispatch (b.submit u request done next) s = p.exec dispatch t ∧
      ((∃ outcome, p = Act.inline (done outcome) next) ∨ ∃ result, p = next result) := by
  cases b with
  | immediate sectorSize =>
    exact ⟨_, Act.inline (done (s.transfer u sectorSize request).1) next,
      lives.called (c := .transfer u sectorSize request) rfl, rfl, .inl ⟨_, rfl⟩⟩
  | deferred sectorSize latency =>
    rw [exec_submit_deferred]
    split
    · exact ⟨s, _, lives, rfl, .inr ⟨_, rfl⟩⟩
    · have moved := lives.called (c := .transfer u sectorSize request) rfl
      have stopped := moved.called (c := .cancel u) trivial
      have left : first.Lives u others _ := stopped.aside
        (t := ((s.transfer u sectorSize request).2.cancel u).leave u (Ticks.nonnegative latency)
          ⟨(s.transfer u sectorSize request).1, done⟩)
        rfl fun v => field_modifySlot Slot.endpoint u v _ _ (by intro slot; rfl)
      have told := left.called (c := .tell (.deferred (s.nameOf u) latency)) trivial
      have booked := told.called (c := .activate u 0) trivial
      exact ⟨_, _, booked, rfl, .inr ⟨_, rfl⟩⟩

variable [Quiet σ]

/-- By induction on what happens: the unit stays locked, and the media change by others only. -/
theorem Lives.locks (lives : first.Lives u others s) (locked : first.Locks u) :
    s.Locks u ∧ Led first.media others s.media := by
  induction lives with
  | start => exact ⟨locked, rfl⟩
  | called _ handles ih =>
    obtain ⟨here, led⟩ := ih
    refine ⟨here.perform _, ?_⟩
    rw [here.media_perform handles]
    exact led
  | aside _ media same ih =>
    obtain ⟨here, led⟩ := ih
    refine ⟨here.aside (same u), ?_⟩
    rw [media]
    exact led
  | @ran _ s _ p pops _ _ makes carries ended ih =>
    obtain ⟨here, led⟩ := ih
    -- What is kept is the lock together with the media, since a call needs the lock to change none.
    have static : Static fun t : Scheduler σ ω => t.Locks u ∧ t.media = s.media :=
      fun a b media same both => ⟨static_locks a b media same both.1, media.trans both.2⟩
    have kept := run_keeps_of_makes static (fun a c handles both =>
      ⟨both.1.perform c, (both.1.media_perform handles).trans both.2⟩) makes pops s ⟨⟨here, rfl⟩, carries⟩ _ _ ended
    rw [kept.holds.2]
    exact ⟨kept.holds.1, led⟩
  | @other _ s _ p pops _ _ ended ih =>
    obtain ⟨here, led⟩ := ih
    have carries : s.Carries (Program.Makes fun _ => True) :=
      fun v => ⟨fun q _ => q.makes_any, fun k _ outcome => (k.deliver outcome).makes_any⟩
    have kept := run_keeps_of_makes static_locks (fun a c _ here => here.perform c) p.makes_any pops s
      ⟨here, carries⟩ _ _ ended
    exact ⟨kept.holds, rfl, led⟩

end Scheduler

/-- Whatever happens to a scheduler, in any order: a unit that is read-only and not dirty in the beginning, buffered or
not and of whatever capacity, stays so. Collections of media, with their bytes and the writes counted, go from one
change by others to the next: nothing that is done on the unit changes them. A transfer that is asked for on it is done
on the unit up to the point where its completion runs, or where the request returns if the completion comes later. -/
theorem read_only_unit_changes_nothing [MediaStore.Quiet σ] {u : UnitId} {first s : Scheduler σ ω}
    {others : List (σ × σ)} (readOnly : (first.slot u).endpoint.can.readOnly = true)
    (clean : (first.slot u).endpoint.isDirty = false) (lives : first.Lives u others s) :
    (s.slot u).endpoint.can.readOnly = true ∧ (s.slot u).endpoint.isDirty = false ∧ Led first.media others s.media ∧
    ∀ (b : Backend) (request : Request) (done : Outcome → Program ω) (next : Result → Program ω)
      (dispatch : Motion σ ω), ∃ t p, first.Lives u others t ∧
        Program.exec dispatch (b.submit u request done next) s = p.exec dispatch t ∧
        ((∃ outcome, p = Act.inline (done outcome) next) ∨ ∃ result, p = next result) := by
  obtain ⟨here, led⟩ := lives.locks ⟨readOnly, clean⟩
  exact ⟨here.readOnly, here.clean, led, lives.submit⟩

/-- A buffered unit of four bytes over an image of two. A write to it and a transfer are refused, its size changes, the
image is replaced meanwhile, and it is detached: the image is the one that replaced it, no write was counted. -/
theorem image_replaced_under_unit :
    ∃ first last : Scheduler MemoryImages Unit, ∃ before after : MemoryImages,
      (first.slot 0).endpoint.buffer? = some ⟨#[1, 2, 0, 0], 2⟩ ∧
      first.Lives 0 [(before, after)] last ∧ Led first.media [(before, after)] last.media ∧
      (last.slot 0).endpoint.isDirty = false ∧ (last.slot 0).endpoint.attachment = none ∧
      first.media.image? "a" = some #[1, 2] ∧ last.media.image? "a" = some #[7] ∧ last.media.writeCount "a" = 0 := by
  let drive : Endpoint :=
    { name := "DK0", can := { attachable := true, buffered := true, readOnly := true }, capacity := 4 }
  let media := MemoryImages.empty.install "a" #[1, 2]
  let bare : Scheduler MemoryImages Unit := .start 100 1 () media (.empty none)
  let first := ((bare.addUnit drive).2.attach 0 "a").2
  let refused := (first.perform (.write 0 1 #[9])).2
  let moved := (refused.perform (.transfer 0 2 (.write 0 #[8, 8]))).2
  let resized := (moved.perform (.setCapacity 0 8)).2
  let replaced := (resized.perform (.install "a" #[7])).2
  let last := (replaced.perform (.detach 0)).2
  have started : first.Lives 0 [] first := .start
  have tried : first.Lives 0 [] resized :=
    ((started.called (c := .write 0 1 #[9]) rfl).called (c := .transfer 0 2 (.write 0 #[8, 8])) rfl).called
      (c := .setCapacity 0 8) trivial
  have ran : (Program.call (.install "a" #[7]) fun _ => .done (.ok ())).run 0 resized = some (.ok (), replaced) := rfl
  have lives : first.Lives 0 [(resized.media, replaced.media)] last := (tried.other ran).called (c := .detach 0) rfl
  obtain ⟨-, clean, led, -⟩ := read_only_unit_changes_nothing (by decide +kernel) (by decide +kernel) lives
  exact ⟨first, last, resized.media, replaced.media, by decide +kernel, lives, led, clean, by decide +kernel,
    by decide +kernel, by decide +kernel, by decide +kernel⟩

end Peripheral
