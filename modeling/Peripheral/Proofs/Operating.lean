import Peripheral.Machine.Build
import Peripheral.Proofs.Callbacks

/-!
# What the operations of a machine keep

Apart from the programs that it runs, a machine makes a few calls only: it attaches and detaches media,
spends ticks and writes the journal. What these calls, its programs and its dispatches leave standing, its
operations do.

* `Call.Custodial` : the calls that a machine makes by itself;
* `Registry.resetEach_keeps`, `Scheduler.tick_keeps` : devices reset in a row, a tick;
* `Machine.attach_keeps`, `detach_keeps`, `detachAll_keeps`, `attachEach_keeps` : media attached and
  detached;
* `Machine.resetAll_keeps`, `boot_keeps`, `runSlots_keeps`, `run_keeps` : **programs run by a machine**;
* `equip_cases`, `build_cases`, `equip_keeps` : machines that are equipped and built.
-/

namespace Peripheral

variable {σ ω : Type} [MediaStore σ]

/-- The calls that a machine makes by itself, but for spending ticks. -/
def Call.Custodial : Call → Prop
  | .attach _ _ | .detach _ | .tell _ => True
  | _ => False

/-- The calls that a machine makes by itself keep `I`. -/
def Scheduler.Custody (I : Scheduler σ ω → Prop) : Prop :=
  ∀ s (c : Call), c.Custodial → I s → I (s.perform c).2

variable {I : Scheduler σ ω → Prop}

omit [MediaStore σ] in
/-- What is kept wherever a step ends is kept where it has ended. -/
theorem Motion.Keeps.of_map {α : Type} {motion : Motion σ ω} {f : Result × Scheduler σ ω → α} {a : α}
    {s : Scheduler σ ω} (keeps : motion.Keeps I) (holds : I s) (ended : (motion s).map f = some a) :
    ∃ result t, f (result, t) = a ∧ I t := by
  obtain ⟨⟨result, t⟩, moved, same⟩ := Option.map_eq_some_iff.1 ended
  exact ⟨result, t, same, keeps s holds result t moved⟩

namespace Scheduler

variable {s : Scheduler σ ω}

theorem Custody.tell (custody : Custody I) (holds : I s) (m : Message) : I (s.tell m) :=
  custody s (.tell m) trivial holds

theorem Custody.attach (custody : Custody I) (holds : I s) (u : UnitId) (name : String) :
    I (s.attach u name).2 := custody s (.attach u name) trivial holds

theorem Custody.detach (custody : Custody I) (holds : I s) (u : UnitId) : I (s.detach u).2 :=
  custody s (.detach u) trivial holds

theorem tick_keeps (spend : ∀ s : Scheduler σ ω, I s → I (s.consume 1)) {pops : Nat}
    (dispatch : Motion.Keeps I (processEvent pops : Motion σ ω)) :
    Motion.Keeps I (tick pops : Motion σ ω) := by
  intro s holds result t ended
  rw [tick] at ended
  split at ended
  · split at ended
    · cases ended
    · rename_i dispatched
      cases ended
      exact dispatch s holds _ _ dispatched
    · rename_i dispatched
      cases ended
      exact spend _ (dispatch s holds _ _ dispatched)
  · cases ended
    exact spend s holds

end Scheduler

theorem Registry.resetEach_keeps {pops : Nat} (devices : List (Device ω))
    (resets : ∀ device ∈ devices, Motion.Keeps I (device.reset.run pops)) :
    Motion.Keeps I (resetEach pops devices : Motion σ ω) := by
  induction devices with
  | nil =>
    rintro s holds _ _ ⟨⟩
    exact holds
  | cons device rest ih =>
    intro s holds result t ended
    rw [resetEach] at ended
    have first := resets device List.mem_cons_self s holds
    split at ended
    · cases ended
    · rename_i reset
      cases ended
      exact first _ _ reset
    · rename_i reset
      exact ih (fun device there => resets device (List.mem_cons_of_mem _ there)) _ (first _ _ reset)
        _ _ ended

namespace Machine
open Scheduler

variable {m m' : Machine σ ω}

omit [MediaStore σ] in
theorem mem_of_locate {name : String} {number : UInt64} {device : Device ω} {u : UnitId}
    (found : m.locate name number = .ok (device, u)) : device ∈ m.registry.devices.toList := by
  unfold locate at found
  split at found
  · cases found
  · rename_i there
    split at found
    · cases found
    · cases found
      obtain ⟨id, -, place⟩ := Option.bind_eq_some_iff.1 there
      exact Array.mem_toList_iff.2 (Array.mem_of_getElem? place)

/-! ## Media -/

theorem attach_keeps (custody : Custody I) (holds : I m.scheduler) (device : String) (unit : UInt64)
    (name : String) :
    I (m.attach device unit name).2.scheduler ∧ (m.attach device unit name).2.registry = m.registry := by
  unfold Machine.attach
  split
  · exact ⟨holds, rfl⟩
  · rename_i u _
    have attached := custody.attach holds u name
    split
    · rename_i failed
      rw [failed] at attached
      exact ⟨attached, rfl⟩
    · rename_i done
      rw [done] at attached
      exact ⟨custody.tell attached _, rfl⟩

theorem detach_keeps (custody : Custody I) (holds : I m.scheduler) (device : String) (unit : UInt64) :
    I (m.detach device unit).2.scheduler ∧ (m.detach device unit).2.registry = m.registry := by
  unfold Machine.detach
  split
  · exact ⟨holds, rfl⟩
  · exact ⟨custody.detach holds _, rfl⟩

theorem detachEach_keeps (custody : Custody I) (units : List UnitId) (first : Result)
    (s : Scheduler σ ω) (holds : I s) : I (detachEach units first s).2 := by
  fun_induction detachEach units first s with
  | case1 => exact holds
  | case2 u rest first s attached t detached ih =>
    have left := custody.detach holds u
    rw [detached] at left
    exact ih left
  | case3 u rest first s attached status t detached told ih =>
    have left := custody.detach holds u
    rw [detached] at left
    exact ih (custody.tell left _)
  | case4 u rest first s free ih => exact ih holds

theorem detachAll_keeps (custody : Custody I) (holds : I m.scheduler) : I m.detachAll.2.scheduler :=
  detachEach_keeps custody m.allUnits (.ok ()) m.scheduler holds

theorem attachEach_keeps (custody : Custody I) (entries : List AttachEntry) (holds : I m.scheduler) :
    I (attachEach entries m).2.scheduler ∧ (attachEach entries m).2.registry = m.registry := by
  fun_induction attachEach entries m with
  | case1 => exact ⟨holds, rfl⟩
  | case2 entry rest m status m' failed =>
    have attached := attach_keeps custody holds entry.device entry.unit entry.path
    rwa [failed] at attached
  | case3 entry rest m m' attached ih =>
    have kept := attach_keeps custody holds entry.device entry.unit entry.path
    rw [attached] at kept
    exact ⟨(ih kept.1).1, (ih kept.1).2.trans kept.2⟩

/-! ## Programs -/

variable {pops : Nat}

theorem resetAll_keeps {result : Result}
    (resets : ∀ device ∈ m.registry.devices.toList, Motion.Keeps I (device.reset.run pops))
    (holds : I m.scheduler) (reset : m.resetAll pops = some (result, m')) :
    I m'.scheduler ∧ m'.registry = m.registry := by
  obtain ⟨_, t, same, left⟩ := (Registry.resetEach_keeps _ resets).of_map holds reset
  cases same
  exact ⟨left, rfl⟩

theorem boot_keeps {device : String} {unit : UInt64} {result : Result}
    (boots : ∀ device ∈ m.registry.devices.toList, ∀ u, Motion.Keeps I ((device.boot u).run pops))
    (holds : I m.scheduler) (booted : m.boot pops device unit = some (result, m')) :
    I m'.scheduler ∧ m'.registry = m.registry := by
  unfold Machine.boot at booted
  split at booted
  · cases booted
    exact ⟨holds, rfl⟩
  · rename_i found
    obtain ⟨_, t, same, left⟩ := (boots _ (mem_of_locate found) _).of_map holds booted
    cases same
    exact ⟨left, rfl⟩

variable {instruction : Program ω}

theorem slotOf_keeps (dispatch : Motion.Keeps I (processEvent pops : Motion σ ω))
    (runs : Motion.Keeps I (instruction.run pops : Motion σ ω)) :
    Motion.Keeps I (slotOf pops instruction : Motion σ ω) := by
  intro s holds result t ended
  rw [slotOf] at ended
  split at ended
  · split at ended
    · cases ended
    · rename_i dispatched
      cases ended
      exact dispatch s holds _ _ dispatched
    · rename_i dispatched
      exact runs _ (dispatch s holds _ _ dispatched) _ _ ended
  · exact runs s holds _ _ ended

theorem runSlots_keeps (spend : ∀ s : Scheduler σ ω, I s → I (s.consume 1))
    (slot : Motion.Keeps I (slotOf pops instruction : Motion σ ω)) {slots ticks last : Nat} {pause : Pause}
    {s t : Scheduler σ ω} (holds : I s)
    (ended : runSlots pops instruction slots ticks s = some (pause, last, t)) : I t := by
  induction slots generalizing ticks s with
  | zero =>
    cases ended
    exact holds
  | succ slots ih =>
    rw [runSlots] at ended
    split at ended
    · cases ended
    · rename_i stopped
      cases ended
      exact slot s holds _ _ stopped
    · rename_i went
      exact ih (spend _ (slot s holds _ _ went)) ended

theorem report_keeps (custody : Custody I) {s : Scheduler σ ω} (holds : I s) (ticks : Nat)
    (pause : Pause) : I (report ticks s pause).2 := by
  cases pause with
  | exhausted => exact holds
  | ended status =>
    by_cases expected : status.isExpectedStop
    · simp only [report, if_pos expected]
      exact custody.tell holds _
    · simp only [report, if_neg expected]
      exact holds

/-- The slots of a run, and what it reports of them. -/
theorem run_cases {slots : Nat} {budget : Option Nat} {report : Except Status RunReport}
    (ran : m.run pops slots instruction budget = some (report, m')) :
    ∃ pause ticks t,
      runSlots pops instruction (budget.getD slots) 0 m.scheduler = some (pause, ticks, t) ∧
        (report, m') = m.afterwards (Machine.report ticks t pause) := by
  unfold Machine.run at ran
  split at ran
  · cases ran
  · rename_i pause ticks t ended
    split at ran
    · cases ran
    · exact ⟨pause, ticks, t, ended, (Option.some.inj ran).symm⟩

omit [MediaStore σ] in
theorem exhausted_of_report {ticks : Nat} {s : Scheduler σ ω} {pause : Pause} {r : RunReport}
    (told : (report ticks s pause).1 = .ok r) (limit : r.reason = .tickLimit) : pause = .exhausted := by
  cases pause with
  | exhausted => rfl
  | ended status =>
    simp only [report] at told
    split at told
    · cases told
      cases limit
    · cases told

theorem run_keeps (custody : Custody I) (spend : ∀ s : Scheduler σ ω, I s → I (s.consume 1))
    (dispatch : Motion.Keeps I (processEvent pops : Motion σ ω))
    (runs : Motion.Keeps I (instruction.run pops : Motion σ ω)) {slots : Nat} {budget : Option Nat}
    {report : Except Status RunReport} (holds : I m.scheduler)
    (ran : m.run pops slots instruction budget = some (report, m')) :
    I m'.scheduler ∧ m'.registry = m.registry := by
  obtain ⟨pause, ticks, t, ended, same⟩ := run_cases ran
  have left := runSlots_keeps spend (slotOf_keeps dispatch runs) holds ended
  cases same
  exact ⟨report_keeps custody left ticks pause, rfl⟩

/-! ## Machines that are equipped and built -/

variable {d : Description}

/-- A machine that is equipped well has its media attached, is reset, and booted if that is asked for. -/
theorem equip_cases (equipped : m.equip pops d = some (.ok (), m')) :
    ∃ before after, m.attachEach d.attach = (.ok (), before) ∧ before.resetAll pops = some (.ok (), after) ∧
      (m' = after ∨ ∃ device, after.boot pops device 0 = some (.ok (), m')) := by
  unfold equip at equipped
  split at equipped
  · cases equipped
  · rename_i before attached
    split at equipped
    · cases equipped
    · cases equipped
    · rename_i after reset
      refine ⟨before, after, attached, reset, ?_⟩
      split at equipped
      · cases equipped
        exact .inl rfl
      · exact .inr ⟨_, equipped⟩

theorem equip_keeps (custody : Custody I)
    (resets : ∀ device ∈ m.registry.devices.toList, Motion.Keeps I (device.reset.run pops))
    (boots : ∀ device ∈ m.registry.devices.toList, ∀ u, Motion.Keeps I ((device.boot u).run pops))
    (holds : I m.scheduler) (equipped : m.equip pops d = some (.ok (), m')) :
    I m'.scheduler ∧ m'.registry = m.registry := by
  obtain ⟨before, after, attached, reset, rest⟩ := equip_cases equipped
  have first := attachEach_keeps custody d.attach holds
  rw [attached] at first
  obtain ⟨left, same⟩ :=
    resetAll_keeps (fun device there => resets device (first.2 ▸ there)) first.1 reset
  replace same := same.trans first.2
  rcases rest with rfl | ⟨device, booted⟩
  · exact ⟨left, same⟩
  · have last := boot_keeps (fun device there => boots device (same ▸ there)) left booted
    exact ⟨last.1, last.2.trans same⟩

/-- What is built is assembled from a valid description and equipped. -/
theorem build_cases {κ ε : Type} [Console κ] {media : σ} {console : κ} {extra : ε} {journal : Journal}
    {p : Peripherals} {m : Machine σ (Board κ ε)}
    (built : build pops d media console extra journal = some (.ok p, m)) :
    d.validate = .ok () ∧ p = Peripherals.plan d ∧
      ∃ bare : Machine σ (Board κ ε), assemble pops d media console extra journal = some bare ∧
        bare.equip pops d = some (.ok (), m) := by
  unfold build at built
  split at built
  · cases built
  · rename_i valid
    split at built
    · cases built
    · rename_i bare assembled
      obtain ⟨⟨result, n⟩, equipped, same⟩ := Option.map_eq_some_iff.1 built
      cases result with
      | error status => cases same
      | ok =>
        cases same
        exact ⟨valid, rfl, bare, assembled, equipped⟩

end Machine

end Peripheral
