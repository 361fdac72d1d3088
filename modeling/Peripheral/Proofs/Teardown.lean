import Peripheral.Proofs.Assembly
import Peripheral.Proofs.Attaching
import Peripheral.Proofs.Enduring

/-!
# Machines that let all media go

A machine that is shut down goes through the units of its devices and lets their media go. A unit whose medium
takes no more data does not keep the others from being written back, and no unit is asked twice, however often
it is listed.

* `Endpoint.Fit` : units that are attached can be (`Fit.attach`, `Fit.write`, `Fit.transfer`);
* `Machine.Operated` : the machines that come up by any operations, all of whose units are fit (`Operated.minds`);
* `Endpoint.detachInTurn` : let the media of endpoints go one after another; `firstFailure` : the first answer
  that is a failure;
* `Scheduler.attachedOf` : the attached ones of some units, in the order of first mention;
* `detachEach_tornDown` : going through a list with repetitions comes to the same as detaching those units;
* `teardown_detaches_each_once` : **a machine that is torn down detaches each attached unit once**, past all
  failures, of which it reports the first.
-/

namespace Peripheral

variable {σ ω : Type} [MediaStore σ]

/-! ## Units that are attached -/

/-- A unit that is attached can be attached. -/
def Endpoint.Fit (e : Endpoint) : Prop := ∀ a, e.attachment = some a → e.can.attachable = true

namespace Endpoint

variable {e : Endpoint}

omit [MediaStore σ] in
theorem fit_of_unattached (free : e.attachment = none) : e.Fit := fun _ bound => nomatch free.symm.trans bound

theorem Fit.attach (fit : e.Fit) (name : String) (s : σ) : (e.attach name s).2.1.Fit := by
  unfold Endpoint.attach
  split
  · exact fit
  rename_i able
  rw [Bool.not_eq_true, Bool.not_eq_false'] at able
  split
  · exact fit
  split
  · exact fit
  · split
    · split
      · exact fit
      · exact fun _ _ => able
    · exact fun _ _ => able

theorem Fit.detach (fit : e.Fit) (s : σ) : (e.detach s).2.1.Fit := by
  cases bound : e.attachment with
  | none =>
    have same : (e.detach s).2.1 = e := by
      unfold Endpoint.detach
      rw [bound]
      split <;> rfl
    rwa [same]
  | some a =>
    obtain ⟨_, _, _, _, ended, -⟩ := detach_watched (fit a bound) bound (Watched.start s)
    rw [Watched.start] at ended
    rw [ended]
    exact fit_of_unattached rfl

theorem Fit.write (fit : e.Fit) (offset : UInt64) (data : Bytes) (s : σ) : (e.write offset data s).2.1.Fit := by
  unfold Endpoint.write
  dsimp only
  split
  · exact fit
  split
  · exact fit
  rename_i a bound
  have able := fit a bound
  split
  · exact fit
  split
  · exact fit
  split
  · split
    · exact fun _ _ => able
    · exact fit
  · exact fit

theorem Fit.transfer (fit : e.Fit) (sectorSize : UInt64) (request : Request) (s : σ) :
    (e.transfer sectorSize request s).2.1.Fit := by
  cases request with
  | read lba sectors => exact fit
  | write lba data =>
    dsimp only [Endpoint.transfer, writeSectors]
    split
    · exact fit
    split
    · exact fit
    · rename_i offset _
      have left := fit.write offset data s
      generalize e.write offset data s = answer at left ⊢
      obtain ⟨status | ⟨⟩, e', media⟩ := answer
      · exact left
      · exact left

end Endpoint

def Scheduler.Fit (s : Scheduler σ ω) : Prop := ∀ u, (s.slot u).endpoint.Fit

def Call.AddsFit : Call → Prop
  | .addUnit e => e.Fit
  | _ => True

namespace Scheduler

variable {s : Scheduler σ ω}

omit [MediaStore σ] in
theorem Fit.of_endpoints {t : Scheduler σ ω} (fit : s.Fit)
    (same : ∀ u, (t.slot u).endpoint = (s.slot u).endpoint) : t.Fit := fun u => same u ▸ fit u

theorem Fit.perform (fit : s.Fit) {c : Call} (adds : c.AddsFit) : (s.perform c).2.Fit := by
  intro u
  have altered := alters_perform s c u
  generalize ((s.perform c).2.slot u).endpoint = e at altered
  cases altered with
  | kept => exact fit u
  | added e new => exact adds
  | positioned offset => exact fit u
  | resized bytes => exact fit u
  | attached name => exact (fit u).attach name s.media
  | detached => exact (fit u).detach s.media
  | written offset data => exact (fit u).write offset data s.media
  | moved sectorSize request => exact (fit u).transfer sectorSize request s.media

theorem endures_fit : Endures Call.AddsFit (Fit : Scheduler σ ω → Prop) where
  permits c internal := by
    cases c with
    | addUnit e => exact internal.elim
    | _ => trivial
  perform _ _ adds fit := fit.perform adds
  aside _ _ _ same fit := fit.of_endpoints same

end Scheduler

/-! ## Machines that come up -/

open Scheduler

/-- Machines that come up by any operations, from one without media on. Units may be added at any time, but are
not attached then unless they can be. -/
inductive Machine.Operated : Machine σ ω → Prop
  | start {m : Machine σ ω} : (∀ u, (m.scheduler.slot u).endpoint.attachment = none) →
    m.scheduler.Carries (Program.Asks Call.AddsFit) → Operated m
  | register {m : Machine σ ω} (device : Device ω) : Operated m → Operated (m.register device).2
  /-- A program is run, from outside or by a device. -/
  | call {m : Machine σ ω} {p : Program ω} {pops : Nat} {result : Result} {s : Scheduler σ ω} :
    Operated m → p.Asks Call.AddsFit → p.run pops m.scheduler = some (result, s) →
      Operated { m with scheduler := s }
  | processEvent {m : Machine σ ω} {pops : Nat} {result : Result} {s : Scheduler σ ω} :
    Operated m → m.scheduler.processEvent pops = some (result, s) → Operated { m with scheduler := s }
  | tick {m : Machine σ ω} {pops : Nat} {result : Result} {s : Scheduler σ ω} :
    Operated m → m.scheduler.tick pops = some (result, s) → Operated { m with scheduler := s }
  | run {m m' : Machine σ ω} {instruction : Program ω} {pops slots : Nat} {budget : Option Nat}
      {report : Except Status RunReport} :
    Operated m → instruction.Asks Call.AddsFit →
      m.run pops slots instruction budget = some (report, m') → Operated m'
  | attach {m : Machine σ ω} (device : String) (unit : UInt64) (name : String) :
    Operated m → Operated (m.attach device unit name).2
  | detach {m : Machine σ ω} (device : String) (unit : UInt64) :
    Operated m → Operated (m.detach device unit).2
  | detachAll {m : Machine σ ω} : Operated m → Operated m.detachAll.2
  | resetAll {m m' : Machine σ ω} {pops : Nat} {result : Result} :
    Operated m → (∀ device ∈ m.registry.devices.toList, device.reset.Asks Call.AddsFit) →
      m.resetAll pops = some (result, m') → Operated m'
  | boot {m m' : Machine σ ω} {pops : Nat} {device : String} {unit : UInt64} {result : Result} :
    Operated m → (∀ device ∈ m.registry.devices.toList, ∀ u, (device.boot u).Asks Call.AddsFit) →
      m.boot pops device unit = some (result, m') → Operated m'

/-- No operation attaches a unit that cannot be attached. -/
theorem Machine.Operated.minds {m : Machine σ ω} (operated : m.Operated) :
    m.scheduler.Minds Call.AddsFit Scheduler.Fit := by
  induction operated with
  | start free asks => exact ⟨fun u => Endpoint.fit_of_unattached (free u), asks⟩
  | @register m device _ ih =>
    have same := m.register_relabelled device
    refine ⟨ih.holds.of_endpoints fun u => ?_, ih.asks.of_callbacks same.callbacks⟩
    obtain ⟨owner, slot⟩ := same.slot u
    rw [slot]
  | call _ asks ended ih => exact asks.run_minds endures_fit _ _ ih _ _ ended
  | processEvent _ ended ih => exact processEvent_minds endures_fit _ _ ih _ _ ended
  | tick _ ended ih => exact tick_minds endures_fit _ _ ih _ _ ended
  | run _ asks ran ih => exact run_minds endures_fit asks ih ran
  | attach device unit name _ ih => exact (attach_keeps (custody_minds endures_fit) ih device unit name).1
  | detach device unit _ ih => exact (detach_keeps (custody_minds endures_fit) ih device unit).1
  | detachAll _ ih => exact detachAll_keeps (custody_minds endures_fit) ih
  | resetAll _ asks reset ih =>
    exact (resetAll_keeps (fun device there => (asks device there).run_minds endures_fit _) ih reset).1
  | boot _ asks booted ih =>
    exact (boot_keeps (fun device there u => (asks device there u).run_minds endures_fit _) ih booted).1

theorem Machine.Operated.perform {m : Machine σ ω} (operated : m.Operated) {c : Call} (adds : c.AddsFit) :
    Machine.Operated { m with scheduler := (m.scheduler.perform c).2 } := by
  let p : Program ω := .call c fun _ => .done (.ok ())
  have asks : p.Asks Call.AddsFit := .call adds fun _ => .done _
  have ran : p.run 0 m.scheduler = some (.ok (), (m.scheduler.perform c).2) := rfl
  exact operated.call asks ran

/-! ## Letting media go one after another -/

/-- Let the media of endpoints go one after another, whatever the answers are. -/
def Endpoint.detachInTurn : List Endpoint → σ → List Result × σ
  | [], media => ([], media)
  | e :: rest, media =>
    let (result, _, media, _) := e.detach media
    let (results, media) := detachInTurn rest media
    (result :: results, media)

def firstFailure : List Result → Result
  | [] => .ok ()
  | .ok () :: rest => firstFailure rest
  | .error status :: _ => .error status

theorem firstFailure_ok_iff {results : List Result} :
    firstFailure results = .ok () ↔ ∀ result ∈ results, result = .ok () := by
  induction results with
  | nil => simp [firstFailure]
  | cons result rest ih =>
    cases result with
    | ok _ => simpa [firstFailure] using ih
    | error status => simp [firstFailure]

theorem firstFailure_error_iff {results : List Result} {status : Status} :
    firstFailure results = .error status ↔
      ∃ before after, results = before ++ .error status :: after ∧ ∀ result ∈ before, result = .ok () := by
  constructor
  · intro failed
    induction results with
    | nil => cases failed
    | cons result rest ih =>
      cases result with
      | ok _ =>
        obtain ⟨before, after, split, well⟩ := ih failed
        exact ⟨.ok () :: before, after, by rw [split, List.cons_append], by simpa using well⟩
      | error found =>
        cases failed
        exact ⟨[], rest, rfl, by simp⟩
  · rintro ⟨before, after, rfl, well⟩
    induction before with
    | nil => rfl
    | cons result before ih =>
      obtain ⟨rfl, others⟩ := List.forall_mem_cons.1 well
      exact ih others

def Slot.freed (slot : Slot ω) : Slot ω :=
  { slot with endpoint := { slot.endpoint with attachment := none, position := 0 } }

omit [MediaStore σ] in
theorem nodup_eraseDups (units : List UnitId) : units.eraseDups.Nodup := by
  induction size : units.length using Nat.strongRecOn generalizing units with
  | ind n ih =>
    cases units with
    | nil => exact List.nodup_nil
    | cons u rest =>
      have fewer := List.length_filter_le (fun v => !v == u) rest
      rw [List.length_cons] at size
      rw [List.eraseDups_cons, List.nodup_cons, List.mem_eraseDups, List.mem_filter]
      exact ⟨fun there => by simp at there, ih _ (by omega) _ rfl⟩

/-- The attached ones of some units, each where it is mentioned first. -/
def Scheduler.attachedOf (units : List UnitId) (s : Scheduler σ ω) : List UnitId :=
  (units.filter fun u => (s.slot u).endpoint.isAttached).eraseDups

/-- What their endpoints answer when their media go one after another, and the media after that. -/
def Scheduler.detachedOf (units : List UnitId) (s : Scheduler σ ω) : List Result × σ :=
  Endpoint.detachInTurn ((s.attachedOf units).map fun u => (s.slot u).endpoint) s.media

/-- Going through a list of units, after `first`, has come to detaching the attached ones once each. -/
structure Scheduler.TornDown (s : Scheduler σ ω) (units : List UnitId) (first : Result)
    (answer : Result × Scheduler σ ω) : Prop where
  result : answer.1 = firstFailure (first :: (s.detachedOf units).1)
  media : answer.2.media = (s.detachedOf units).2
  agenda : answer.2.agenda = s.agenda
  slots : ∀ u, answer.2.slot u = if u ∈ s.attachedOf units then (s.slot u).freed else s.slot u

namespace Scheduler

variable {s t : Scheduler σ ω} {u : UnitId} {rest : List UnitId}

omit [MediaStore σ] in
theorem mem_attachedOf {units : List UnitId} {v : UnitId} :
    v ∈ s.attachedOf units ↔ v ∈ units ∧ (s.slot v).endpoint.isAttached := by
  rw [attachedOf, List.mem_eraseDups, List.mem_filter]

omit [MediaStore σ] in
theorem attachedOf_cons (attached : (s.slot u).endpoint.isAttached)
    (left : ∀ v, t.slot v = if v = u then (s.slot u).freed else s.slot v) :
    s.attachedOf (u :: rest) = u :: t.attachedOf rest := by
  unfold attachedOf
  rw [List.filter_cons_of_pos (p := fun v => (s.slot v).endpoint.isAttached) attached, List.eraseDups_cons,
    List.filter_filter]
  refine congrArg (fun units => u :: List.eraseDups units) (List.filter_congr fun v _ => ?_)
  rw [left v]
  by_cases same : v = u
  · simp [same, Slot.freed, Endpoint.isAttached]
  · simp [same]

/-- A unit that is fit lets its medium go, whatever the media answer. -/
theorem slot_detach (fit : s.Fit) (attached : (s.slot u).endpoint.isAttached) (v : UnitId) :
    (s.detach u).2.slot v = if v = u then (s.slot u).freed else s.slot v := by
  obtain ⟨a, bound⟩ := Option.isSome_iff_exists.1 attached
  obtain ⟨_, result, media, told, ended, -⟩ :=
    detach_watched (fit u a bound) bound (Watched.start s.media)
  rw [Watched.start] at ended
  have inside : u < s.slots.size := by
    by_contra outside
    rw [slot_of_size_le (Nat.not_lt.1 outside)] at bound
    cases bound
  have left : (s.detach u).2.slot v = ((s.setEndpoint u
      { (s.slot u).endpoint with attachment := none, position := 0 }).slot v) := by
    unfold detach
    rw [ended]
    rfl
  rw [left, setEndpoint, slot_modifySlot]
  by_cases same : v = u
  · rw [if_pos same, if_pos ⟨same.symm, inside⟩, same]
    rfl
  · rw [if_neg same, if_neg fun both => same both.1.symm]

theorem TornDown.cons {first second : Result} {answer : Result × Scheduler σ ω} (fit : s.Fit)
    (attached : (s.slot u).endpoint.isAttached) (agenda : t.agenda = s.agenda)
    (media : t.media = (s.detach u).2.media) (slots : t.slots = (s.detach u).2.slots)
    (merged : ∀ results, firstFailure (second :: results) = firstFailure (first :: (s.detach u).1 :: results))
    (torn : t.TornDown rest second answer) : s.TornDown (u :: rest) first answer := by
  have left : ∀ v, t.slot v = if v = u then (s.slot u).freed else s.slot v := fun v => by
    rw [slot_of_slots slots]
    exact slot_detach fit attached v
  have order : s.attachedOf (u :: rest) = u :: t.attachedOf rest := attachedOf_cons attached left
  have once : u ∉ t.attachedOf rest := fun there => by
    have still := (mem_attachedOf.1 there).2
    rw [left u, if_pos rfl] at still
    cases still
  have others : ∀ v ∈ t.attachedOf rest, t.slot v = s.slot v := fun v there => by
    rw [left v, if_neg]
    rintro rfl
    exact once there
  have answers : s.detachedOf (u :: rest) = ((s.detach u).1 :: (t.detachedOf rest).1, (t.detachedOf rest).2) := by
    have endpoints : ((t.attachedOf rest).map fun v => (t.slot v).endpoint) =
        (t.attachedOf rest).map fun v => (s.slot v).endpoint :=
      List.map_congr_left fun v there => by rw [others v there]
    unfold detachedOf
    rw [order, endpoints, media]
    rfl
  refine ⟨?_, ?_, torn.agenda.trans agenda, fun v => ?_⟩
  · rw [torn.result, merged, answers]
  · rw [torn.media, answers]
  · have among : v ∈ s.attachedOf (u :: rest) ↔ v = u ∨ v ∈ t.attachedOf rest := by rw [order, List.mem_cons]
    rw [torn.slots v, left v]
    by_cases same : v = u
    · rw [if_neg (same ▸ once), if_pos same, if_pos (among.2 (.inl same)), same]
    · by_cases there : v ∈ t.attachedOf rest
      · rw [if_pos there, if_neg same, if_pos (among.2 (.inr there))]
      · rw [if_neg there, if_neg same, if_neg fun either => (among.1 either).elim same there]

end Scheduler

namespace Machine

theorem detachEach_tornDown {s : Scheduler σ ω} (fit : s.Fit) (units : List UnitId) (first : Result) :
    s.TornDown units first (detachEach units first s) := by
  fun_induction detachEach units first s with
  | case1 first s =>
    refine ⟨?_, rfl, rfl, fun u => (if_neg List.not_mem_nil).symm⟩
    cases first <;> rfl
  | case2 u rest first s attached t detached ih =>
    have left : t.Fit := by
      have kept := fit.perform (c := .detach u) trivial
      rwa [show (s.perform (.detach u)).2 = t from congrArg Prod.snd detached] at kept
    refine TornDown.cons (t := t) fit attached ?_ (by rw [detached]) (by rw [detached]) (fun results => ?_) (ih left)
    · exact (congrArg (·.2.agenda) detached).symm
    · rw [detached]
      cases first <;> rfl
  | case3 u rest first s attached status t detached told ih =>
    have left : told.Fit := by
      have kept := fit.perform (c := .detach u) trivial
      rw [show (s.perform (.detach u)).2 = t from congrArg Prod.snd detached] at kept
      exact kept
    refine TornDown.cons (t := told) fit attached ?_ (by rw [detached]; rfl) (by rw [detached]; rfl)
      (fun results => ?_) (ih left)
    · exact (congrArg (·.2.agenda) detached).symm
    · rw [detached]
      cases first <;> rfl
  | case4 u rest first s free ih =>
    have same : s.attachedOf (u :: rest) = s.attachedOf rest := by
      unfold attachedOf
      rw [List.filter_cons_of_neg (p := fun v => (s.slot v).endpoint.isAttached) free]
    obtain ⟨result, media, agenda, slots⟩ := ih fit
    refine ⟨?_, ?_, agenda, ?_⟩
    · rw [result, detachedOf, detachedOf, same]
    · rw [media, detachedOf, detachedOf, same]
    · rw [same]
      exact slots

end Machine

/-- However a machine has come up, whatever units its devices list and whatever its media answer, tearing it down
detaches each attached unit of its devices exactly once, with the endpoint that it had, in the order of
registration and mention. It succeeds if all of these do, and reports the first failure otherwise. No unit of its
devices is attached then; what of it is no matter of the attachment stays, and so do all other units. -/
theorem teardown_detaches_each_once {m : Machine σ ω} (operated : m.Operated) :
    let order := m.scheduler.attachedOf m.allUnits
    let results := (m.scheduler.detachedOf m.allUnits).1
    (order.Nodup ∧ ∀ u, u ∈ order ↔ u ∈ m.allUnits ∧ (m.scheduler.slot u).endpoint.isAttached) ∧
    (m.detachAll.1 = .ok () ↔ ∀ result ∈ results, result = .ok ()) ∧
    (∀ status, m.detachAll.1 = .error status ↔
      ∃ before after, results = before ++ .error status :: after ∧ ∀ result ∈ before, result = .ok ()) ∧
    m.detachAll.2.scheduler.media = (m.scheduler.detachedOf m.allUnits).2 ∧
    m.detachAll.2.registry = m.registry ∧ m.detachAll.2.scheduler.agenda = m.scheduler.agenda ∧
    (∀ u ∈ m.allUnits, (m.detachAll.2.scheduler.slot u).endpoint.isAttached = false) ∧
    (∀ u ∈ order, m.detachAll.2.scheduler.slot u = (m.scheduler.slot u).freed) ∧
    ∀ u, u ∉ order → m.detachAll.2.scheduler.slot u = m.scheduler.slot u := by
  have torn := Machine.detachEach_tornDown operated.minds.holds m.allUnits (.ok ())
  have result : m.detachAll.1 = firstFailure (m.scheduler.detachedOf m.allUnits).1 := torn.result
  dsimp only
  rw [result]
  refine ⟨⟨nodup_eraseDups _, fun u => mem_attachedOf⟩, firstFailure_ok_iff, fun _ => firstFailure_error_iff,
    torn.media, rfl, torn.agenda, fun u there => ?_, fun u there => (torn.slots u).trans (if_pos there),
    fun u other => (torn.slots u).trans (if_neg other)⟩
  have slot : m.detachAll.2.scheduler.slot u = _ := torn.slots u
  rw [slot]
  split
  · rfl
  · rename_i free
    rw [← Bool.not_eq_true]
    exact fun attached => free (mem_attachedOf.2 ⟨there, attached⟩)

/-- Two units with unsaved data are listed by two devices. The medium of the first one takes no data; the second
one is let go all the same. -/
theorem failing_unit_keeps_no_other :
    ∃ m : Machine (Faulty MemoryImages) Unit, m.Operated ∧ m.allUnits = [0, 1, 1, 0] ∧
      m.scheduler.attachedOf m.allUnits = [0, 1] ∧
      (m.scheduler.detachedOf m.allUnits).1 = [.error (.io (.injected .write)), .ok ()] ∧
      m.detachAll.1 = .error (.io (.injected .write)) ∧
      ∀ u ∈ m.allUnits, (m.detachAll.2.scheduler.slot u).endpoint.isAttached = false := by
  obtain ⟨m, operated, units, order, results⟩ : ∃ m : Machine (Faulty MemoryImages) Unit, m.Operated ∧
      m.allUnits = [0, 1, 1, 0] ∧ m.scheduler.attachedOf m.allUnits = [0, 1] ∧
      (m.scheduler.detachedOf m.allUnits).1 = [.error (.io (.injected .write)), .ok ()] := by
    let media : Faulty MemoryImages := ⟨[("a", [.write])], ⟨[("a", #[1]), ("b", #[2])], []⟩⟩
    let first : Scheduler (Faulty MemoryImages) Unit := .start 100 1 () media (.empty none)
    let e : Endpoint := { name := "DK", can := ⟨true, true, false⟩, capacity := 4 }
    have fit : e.Fit := Endpoint.fit_of_unattached rfl
    have start : (Machine.ofScheduler first).Operated := .start (fun _ => rfl) (carries_of_empty rfl)
    have added := (start.perform (c := .addUnit e) fit).perform (c := .addUnit e) fit
    have attached := (added.perform (c := .attach 0 "a") trivial).perform (c := .attach 1 "b") trivial
    have written := (attached.perform (c := .write 0 0 #[9]) trivial).perform (c := .write 1 0 #[9]) trivial
    exact ⟨_, (written.register { name := "DK", units := [0, 1] }).register { name := "DL", units := [1, 0] },
      by decide +kernel, by decide +kernel, by decide +kernel⟩
  obtain ⟨-, -, fails, -, -, -, free, -⟩ := teardown_detaches_each_once operated
  exact ⟨m, operated, units, order, results, (fails _).2 ⟨[], [.ok ()], results, List.forall_mem_nil _⟩, free⟩

end Peripheral
