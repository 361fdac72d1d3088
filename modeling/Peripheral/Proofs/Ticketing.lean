import Peripheral.Proofs.Assembly
import Peripheral.Proofs.Delivery
import Peripheral.Proofs.LikeMachines

/-!
# Tickets change nothing

A machine whose disk draws tickets does what one without tickets does: all its operations have the same
answers, and the two differ in the tickets only.

* `Booth.Over` : a board with tickets over one without;
* `SectorDisk.submit_like`, `request_like`, `boot_like` : requests with and without tickets are alike;
* `SectorDisk.device_like`, `LineClock.device_like`, `Terminal.device_like` : so are the devices;
* `Peripherals.install_like`, `Peripherals.install_fresh` : installing the peripherals of a description;
* `Machine.assembled_fresh`, `Machine.built_serves` : **the machine that is built from a description is,
  but for tickets, one that loses no request**.
-/

namespace Peripheral

variable {σ κ ε : Type}

/-- The first board is the second one without its tickets. -/
def Booth.Over (b : Board κ ε) (b' : Booth κ ε) : Prop := b = { b' with extra := b'.extra.2 }

namespace SectorDisk

variable {d : SectorDisk} {next : Result → Program (Board κ ε)} {next' : Result → Program (Booth κ ε)}
  {done : Outcome → Program (Board κ ε)} {done' : Outcome → Program (Booth κ ε)}

theorem over_modifyDisk (f : DiskRecord → DiskRecord) (b : Board κ ε) (b' : Booth κ ε)
    (above : Booth.Over b b') : Booth.Over (b.modifyDisk d.record f) (b'.modifyDisk d.record f) := by
  cases above
  rfl

theorem submit_like (drive : UInt64) (request : Request)
    (likes : ∀ outcome, Program.Like Booth.Over (done outcome) (done' outcome))
    (rest : ∀ result, Program.Like Booth.Over (next result) (next' result)) :
    Program.Like Booth.Over (d.submit drive request done next) (d.submit drive request done' next') := by
  have counted : ∀ outcome, Program.Like Booth.Over (d.counted request done outcome)
      (d.counted request done' outcome) := fun outcome =>
    .change (over_modifyDisk _) (likes outcome)
  unfold submit
  cases d.unit drive with
  | error status => exact rest _
  | ok u =>
    refine .call fun unit => ?_
    dsimp only
    split
    · exact rest _
    · refine .call fun _ => ?_
      cases d.backend with
      | immediate sectorSize => exact .call fun outcome => (counted outcome).inline rest
      | deferred sectorSize latency =>
        refine .call fun unit => ?_
        dsimp only
        split
        · exact rest _
        · exact .call fun _ => .call fun _ => .park counted (.call fun _ => .call fun _ => rest _)

theorem request_like (drive : UInt64) (request : Request)
    (likes : ∀ outcome, Program.Like Booth.Over (done outcome) (done' outcome))
    (rest : ∀ result, Program.Like Booth.Over (next result) (next' result)) :
    Program.Like Booth.Over (d.submit drive request done next) (d.request drive request done' next') := by
  have drawn : ∀ unit, Program.Like Booth.Over (d.submit drive request done next)
      (.look fun b => .change (Booth.issue unit)
        (d.submit drive request (ticketed b.tickets.length done') next')) := fun unit =>
    .peek fun b => .note (fun b b' above => above) <| submit_like drive request
      (fun outcome => .note (fun b b' above => above) (likes outcome)) rest
  unfold SectorDisk.request admission
  cases d.unit drive with
  | error status => exact drawn none
  | ok u => exact .view fun unit => drawn _

theorem reset_like (d : SectorDisk) (rest : ∀ result, Program.Like Booth.Over (next result) (next' result)) :
    Program.Like Booth.Over (d.reset next) (d.reset next') := by
  unfold reset
  induction d.units with
  | nil => exact rest _
  | cons u units ih =>
    unfold resetDrives
    refine .call fun _ => .call fun unit => ?_
    dsimp only
    split
    · exact .call fun _ => ih
    · exact ih

theorem boot_like (u : UnitId) (rest : ∀ result, Program.Like Booth.Over (next result) (next' result)) :
    Program.Like Booth.Over (d.boot u next)
      (d.bootVia (fun drive request done => d.request drive request done) u next') := by
  unfold boot bootVia
  cases d.units.idxOf? u with
  | none => exact rest _
  | some number =>
    refine .call fun _ => .change (over_modifyDisk _) (request_like _ _ (fun outcome => ?_) rest)
    unfold keepBootSector
    split
    · exact .done _
    · exact .change (over_modifyDisk _) (.done _)

end SectorDisk

/-! ## Devices -/

/-- A disk that draws tickets is like one that does not. -/
theorem SectorDisk.device_like (d : SectorDisk) :
    Device.Like Booth.Over (d.device : Device (Board κ ε)) d.ticketedDevice :=
  ⟨rfl, rfl, d.reset_like fun result => .done result, fun u => d.boot_like u fun result => .done result⟩

theorem LineClock.device_like (c : LineClock) :
    Device.Like Booth.Over (c.device : Device (Board κ ε)) (c.device : Device (Booth κ ε)) ∧
      Program.Like Booth.Over (c.action : Program (Board κ ε)) (c.action : Program (Booth κ ε)) := by
  have spared : ∀ (f : Nat → Nat) (b : Board κ ε) (b' : Booth κ ε), Booth.Over b b' →
      Booth.Over (b.modifyClock c.record f) (b'.modifyClock c.record f) := by
    rintro f _ b' rfl
    rfl
  refine ⟨⟨rfl, rfl, .call fun _ => .change (spared _) ?_, fun _ => .done _⟩,
    .change (spared _) (.call fun _ => .done _)⟩
  cases c.enabled with
  | true => exact .call fun _ => .call fun _ => .done _
  | false => exact .done _

theorem Terminal.device_like [Console κ] (t : Terminal) :
    Device.Like Booth.Over (t.device : Device (Board κ ε)) (t.device : Device (Booth κ ε)) ∧
      Program.Like Booth.Over (t.poll : Program (Board κ ε)) (t.poll : Program (Booth κ ε)) ∧
      Program.Like Booth.Over (t.display : Program (Board κ ε)) (t.display : Program (Booth κ ε)) := by
  refine ⟨⟨rfl, rfl, .call fun _ => .call fun _ => .change ?_ (.call fun _ => .done _), fun _ => .done _⟩,
    .call fun _ => .look ?_, .look ?_⟩
  · rintro _ b' rfl
    rfl
  · rintro _ b' rfl
    refine .change ?_ ?_
    · rintro _ b' rfl
      rfl
    · dsimp only
      split
      · exact .call fun _ => .done _
      · exact .done _
  · rintro _ b' rfl
    dsimp only [Board.terminal]
    split
    · exact .done _
    · refine .change ?_ ?_
      · rintro _ b' rfl
        rfl
      · split
        · exact .done _
        · exact .call fun _ => .done _

/-! ## Installing and equipping -/

theorem Peripherals.plan_apart (settings : Description) :
    let p := Peripherals.plan settings
    p.clock.unit ∉ p.disk.units ∧ p.terminal.keyboard ∉ p.disk.units ∧
      p.terminal.printer ∉ p.disk.units := by
  simp [plan, LineClock.plan, Terminal.plan, SectorDisk.plan]

namespace SectorDisk

variable {d : SectorDisk} {s t : Scheduler σ (Booth κ ε)}

/-- All callbacks belong to clients, and no transfer awaits delivery. -/
structure Vacant (d : SectorDisk) (s : Scheduler σ (Booth κ ε)) : Prop extends
    s.Installs (Client d) (fun hook => d.Spares fun b => (hook b).2) (· ∈ d.units) where
  idle : ∀ u, (s.slot u).parked = none

theorem Vacant.of_callbacks (vacant : d.Vacant s)
    (same : ∀ u, (t.slot u).callbacks = (s.slot u).callbacks) : d.Vacant t :=
  ⟨vacant.toInstalls.of_callbacks same, fun u => (congrArg (·.2.2) (same u)).trans (vacant.idle u)⟩

variable [MediaStore σ]

theorem Vacant.addActing (vacant : d.Vacant s) (e : Endpoint) {action : Program (Booth κ ε)}
    (client : Client d action) : d.Vacant (s.addActing e action) := by
  have added := vacant.of_callbacks (s.callbacks_perform (.addUnit e))
  exact ⟨added.toInstalls.modifySlot _ (fun p there => Option.some.inj there ▸ client) (added.hooks _)
    (added.guests _), fun v => (Scheduler.field_modifySlot Slot.parked _ v _ _ (by intro slot; rfl)).trans
      (added.idle v)⟩

end SectorDisk

namespace Machine

variable {d : SectorDisk} {m m' : Machine σ (Booth κ ε)}

theorem Fresh.register (fresh : m.Fresh d) {device : Device (Booth κ ε)} (client : device.Client d) :
    (m.register device).2.Fresh d := by
  unfold Machine.register Registry.register
  cases m.registry.findId? device.name with
  | some id =>
    have callbacks := fresh.hosts.toInstalls.of_callbacks
      (t := m.scheduler.tell (.alreadyRegistered device.name)) fun u => rfl
    exact ⟨fresh.staffed, ⟨callbacks, fresh.hosts.drives⟩, fresh.idle, fresh.unused, fresh.uncounted⟩
  | none =>
    have same := Registry.relabelled_setOwner m.registry.devices.size device.units m.scheduler
    refine ⟨fun other there => ?_, ⟨fresh.hosts.toInstalls.of_callbacks same.callbacks, fun u drive => ?_⟩,
      fun u drive => ?_, ?_, ?_⟩
    · simp only [Array.toList_push, List.mem_append, List.mem_singleton] at there
      rcases there with old | rfl
      · exact fresh.staffed other old
      · exact client
    · exact same.size ▸ fresh.hosts.drives u drive
    · exact (congrArg (·.2.2) (same.callbacks u)).trans (fresh.idle u drive)
    · exact same.world ▸ fresh.unused
    · exact same.world ▸ fresh.uncounted

variable [MediaStore σ]

theorem Serves.attachEach (entries : List AttachEntry) (serves : m.Serves d) :
    (attachEach entries m).2.Serves d := by
  fun_induction Machine.attachEach entries m with
  | case1 => exact serves
  | case2 entry rest m status m' failed =>
    have after := serves.attach entry.device entry.unit entry.path
    rwa [failed] at after
  | case3 entry rest m m' attached ih =>
    have after := serves.attach entry.device entry.unit entry.path
    rw [attached] at after
    exact ih after

theorem Serves.equip {pops : Nat} {settings : Description} {result : Result} (serves : m.Serves d)
    (equipped : m.equip pops settings = some (result, m')) : m'.Serves d := by
  have attached := serves.attachEach settings.attach
  unfold Machine.equip at equipped
  split at equipped
  · rename_i ended
    rw [ended] at attached
    cases equipped
    exact attached
  · rename_i ended
    rw [ended] at attached
    split at equipped
    · cases equipped
    · rename_i reset
      cases equipped
      exact attached.resetAll reset
    · rename_i reset
      split at equipped
      · cases equipped
        exact attached.resetAll reset
      · exact (attached.resetAll reset).boot equipped

end Machine

/-! ## Machines of descriptions -/

section
variable [Console κ]

/-- Peripherals are installed under tickets as they are without them. -/
theorem Peripherals.install_like (settings : Description) (p : Peripherals)
    {next : Unit → Program (Board κ ε)} {next' : Unit → Program (Booth κ ε)}
    (rest : Program.Like Booth.Over (next ()) (next' ())) :
    Program.Like Booth.Over (p.install settings next) (p.install settings next') := by
  have terminal : Program.Like Booth.Over (p.terminal.install next) (p.terminal.install next') := by
    refine .change ?_ (.call fun u => .setAction p.terminal.device_like.2.1 <|
      .call fun v => .setAction p.terminal.device_like.2.2 rest)
    rintro _ b' rfl
    rfl
  refine .change ?_ (.call fun u => .setAction p.clock.device_like.2 (.change ?_ ?_))
  · rintro _ b' rfl
    rfl
  · rintro _ b' rfl
    rfl
  · generalize settings.disk.drives.toNat = count, 0 = number
    induction count generalizing number with
    | zero => exact terminal
    | succ count ih => exact .call fun _ => ih (number + 1)

variable [MediaStore σ]

theorem Peripherals.install_fresh (pops : Nat) (settings : Description) (media : σ) (console : κ)
    (extra : ε) (journal : Journal) :
    ∃ t : Scheduler σ (Booth κ ε),
      ((Peripherals.plan settings).install settings fun _ => .done (.ok ())).run pops
          (.start settings.time.idleWait settings.time.tickRate (.empty console ([], extra)) media journal) =
        some (.ok (), t) ∧
      (Machine.ofScheduler t).Fresh (Peripherals.plan settings).disk := by
  let p := Peripherals.plan settings
  let start : Scheduler σ (Booth κ ε) :=
    .start settings.time.idleWait settings.time.tickRate (.empty console ([], extra)) media journal
  obtain ⟨clock, keyboard, printer⟩ := Peripherals.plan_apart settings
  have client := Terminal.client_device (κ := κ) (ε := ε) keyboard printer
  have blank : p.disk.Vacant { start with world := start.world.addClock } :=
    ⟨Scheduler.installs_of_blank fun u => rfl, fun u => rfl⟩
  let first := Scheduler.addActing { name := "CLK" } p.clock.action
    { start with world := start.world.addClock }
  obtain ⟨slots, ended, size, same⟩ :=
    SectorDisk.exec_addDrives settings.disk (Scheduler.processEvent pops)
      (fun _ => p.terminal.install fun _ => .done (.ok ())) 0 settings.disk.drives.toNat
      { first with world := first.world.addDisk }
  let second : Scheduler σ (Booth κ ε) := { first with world := first.world.addDisk, slots }
  have callbacks : ∀ u, (second.slot u).callbacks = (first.slot u).callbacks := by
    intro u
    obtain ⟨e, drives⟩ := same u
    exact (congrArg Slot.callbacks drives :)
  have drives : p.disk.Vacant { second with world := second.world.addTerminal } :=
    (blank.addActing { name := "CLK" } (LineClock.client_device clock).2).of_callbacks callbacks
  let final := Scheduler.addActing { name := "TTO" } p.terminal.display <|
    Scheduler.addActing { name := "TTI" } p.terminal.poll { second with world := second.world.addTerminal }
  have last : p.disk.Vacant final :=
    (drives.addActing { name := "TTI" } client.2.1).addActing { name := "TTO" } client.2.2
  refine ⟨final, ended, ?_, ⟨last.toInstalls, fun u drive => ?_⟩, fun u _ => last.idle u, ?_, ?_⟩
  · intro device there
    cases there
  · have bound : u < 1 + settings.disk.drives.toNat :=
      (List.mem_range'_1.1 (show u ∈ List.range' 1 settings.disk.drives.toNat from drive)).2
    have added : first.slots.size = 1 := Scheduler.size_addActing _ _ _
    have count : second.slots.size = 1 + settings.disk.drives.toNat := size.trans (by rw [added])
    have ended : final.slots.size = second.slots.size + 1 + 1 := by
      rw [Scheduler.size_addActing, Scheduler.size_addActing]
    show u < final.slots.size
    rw [ended, count]
    exact Nat.lt_of_lt_of_le bound (by omega)
  · rfl
  · rfl

namespace Machine

theorem assembled_fresh (pops : Nat) (settings : Description) (media : σ) (console : κ) (extra : ε)
    (journal : Journal) :
    ∃ (m : Machine σ (Board κ ε)) (m' : Machine σ (Booth κ ε)),
      assemble pops settings media console extra journal = some m ∧ m.Alike Booth.Over m' ∧
        m'.Fresh (Peripherals.plan settings).disk := by
  let p := Peripherals.plan settings
  obtain ⟨clock, keyboard, printer⟩ := Peripherals.plan_apart settings
  have alike := Scheduler.start_alike settings.time.idleWait settings.time.tickRate
    (show Booth.Over (.empty console extra) (.empty console ([], extra)) from rfl) media journal
  obtain ⟨t, ran', fresh⟩ := Peripherals.install_fresh pops settings media console extra journal
  have like : Program.Like (Booth.Over : Board κ ε → Booth κ ε → Prop)
      (p.install settings fun _ => .done (.ok ()))
      (p.install settings fun _ => .done (.ok ())) := p.install_like settings (.done (.ok ()))
  have ended := like.run pops _ _ alike
  rw [ran'] at ended
  rcases Scheduler.ends_alike ended with ⟨-, nothing⟩ | ⟨result, s, t', ran, same, after⟩
  · cases nothing
  · cases same
    have likes : Machine.Alike Booth.Over (.ofScheduler s : Machine σ (Board κ ε)) (.ofScheduler t) :=
      ⟨after, .nil⟩
    have likes := (register_alike likes p.clock.device_like.1).alike
    have likes := (register_alike likes p.disk.device_like).alike
    have likes := (register_alike likes p.terminal.device_like.1).alike
    have fresh := ((fresh.register (LineClock.client_device clock).1).register
      SectorDisk.client_device).register (Terminal.client_device keyboard printer).1
    refine ⟨_, _, ?_, likes, fresh⟩
    unfold assemble
    dsimp only
    rw [ran]

/-- The machine that is built from a description is, but for tickets, one that loses no request. -/
theorem built_serves {pops : Nat} {settings : Description} {media : σ} {console : κ} {extra : ε}
    {journal : Journal} {p : Peripherals} {m : Machine σ (Board κ ε)}
    (built : build pops settings media console extra journal = some (.ok p, m)) :
    ∃ m' : Machine σ (Booth κ ε), m.Alike Booth.Over m' ∧ m'.Serves p.disk := by
  obtain ⟨-, rfl, built, same, equipped⟩ := build_cases built
  obtain ⟨bare, bare', assembled, likes, fresh⟩ :=
    assembled_fresh pops settings media console extra journal
  rw [same] at assembled
  cases assembled
  have ended := equip_alike likes pops settings
  rw [equipped] at ended
  generalize twin : bare'.equip pops settings = b at ended
  cases ended with
  | @some _ b ended =>
    obtain ⟨result', n'⟩ := b
    exact ⟨n', ended.alike, Serves.equip (.start fresh) twin⟩

end Machine

end

end Peripheral
