import Peripheral.Proofs.Accounts
import Peripheral.Proofs.Operating
import Peripheral.Storage.MemoryImages

/-!
# No disk request is lost or completed twice

* `Device.Client`, `Machine.Staffed` : the devices of a machine are clients of a disk (`client_device`);
* `Machine.Fresh`, `Machine.Serves` : what comes of a machine with a disk in the course of its operations;
* `Serves.accounted` : every operation keeps all tickets accounted for;
* `no_request_is_lost` : **between operations every request that passed the checks was completed once,
  or its drive holds the transfer and is in the queue**.
-/

namespace Peripheral

variable {σ κ ε : Type} [MediaStore σ]

/-! ## Devices as clients -/

section
variable {d : SectorDisk}

/-- A disk as a device whose boots draw tickets like any other request. It does what `device` does
(`SectorDisk.device_like`). -/
def SectorDisk.ticketedDevice (d : SectorDisk) : Device (Booth κ ε) :=
  { d.device with
    boot := fun u => d.bootVia (fun drive request done => d.request drive request done) u .done }

def Device.Client (d : SectorDisk) (device : Device (Booth κ ε)) : Prop :=
  d.Client device.reset ∧ ∀ u, d.Client (device.boot u)

omit [MediaStore σ] in
theorem SectorDisk.client_device : (d.ticketedDevice : Device (Booth κ ε)).Client d :=
  ⟨.reset fun result => .done result, fun u => d.client_boot u fun result => .done result⟩

omit [MediaStore σ] in
theorem LineClock.client_device {c : LineClock} (apart : c.unit ∉ d.units) :
    (c.device : Device (Booth κ ε)).Client d ∧ d.Client (c.action : Program (Booth κ ε)) := by
  have spares : ∀ f, d.Spares fun b : Booth κ ε => b.modifyClock c.record f := fun f b => ⟨rfl, rfl⟩
  refine ⟨⟨.call apart fun _ => .change (spares _) ?_, fun _ => .done _⟩,
    .change (spares _) (.call trivial fun _ => .done _)⟩
  cases c.enabled with
  | true => exact .call trivial fun _ => .call trivial fun _ => .done _
  | false => exact .done _

omit [MediaStore σ] in
theorem Terminal.client_device [Console κ] {t : Terminal} (apart : t.keyboard ∉ d.units)
    (apart' : t.printer ∉ d.units) :
    (t.device : Device (Booth κ ε)).Client d ∧ d.Client (t.poll : Program (Booth κ ε)) ∧
      d.Client (t.display : Program (Booth κ ε)) := by
  refine ⟨⟨?_, fun _ => .done _⟩, ?_, ?_⟩
  · refine .call apart fun _ => .call apart' fun _ => .change (fun b => ⟨rfl, rfl⟩) ?_
    exact .call trivial fun _ => .done _
  · refine .call trivial fun _ => .look fun b => ?_
    dsimp only
    refine .change (fun b => ⟨rfl, rfl⟩) ?_
    split
    · exact .call trivial fun _ => .done _
    · exact .done _
  · refine .look fun b => ?_
    split
    · exact .done _
    · refine .change (fun b => ⟨rfl, rfl⟩) ?_
      split
      · exact .done _
      · exact .call trivial fun _ => .done _

end

namespace Machine
open SectorDisk

variable {d : SectorDisk} {m m' : Machine σ (Booth κ ε)}

def Staffed (d : SectorDisk) (m : Machine σ (Booth κ ε)) : Prop :=
  ∀ device ∈ m.registry.devices.toList, device.Client d

omit [MediaStore σ] in
theorem Staffed.of_same (staffed : m.Staffed d) (same : m'.registry = m.registry) : m'.Staffed d := by
  unfold Staffed
  rw [same]
  exact staffed

/-- A machine on whose disk no request was made yet. -/
structure Fresh (d : SectorDisk) (m : Machine σ (Booth κ ε)) : Prop where
  staffed : m.Staffed d
  hosts : d.Hosts m.scheduler
  idle : ∀ u ∈ d.units, (m.scheduler.slot u).parked = none
  unused : m.scheduler.world.tickets = []
  uncounted : d.finished m.scheduler.world = some 0

/-- Machines with a disk that come up in the course of their operations. -/
inductive Serves (d : SectorDisk) : Machine σ (Booth κ ε) → Prop
  | start {m : Machine σ (Booth κ ε)} : m.Fresh d → Serves d m
  /-- Requests are made, or another client program is run. -/
  | call {m : Machine σ (Booth κ ε)} {p : Program (Booth κ ε)} {pops : Nat} {result : Result}
      {t : Scheduler σ (Booth κ ε)} :
    Serves d m → Client d p → p.run pops m.scheduler = some (result, t) →
      Serves d { m with scheduler := t }
  | attach {m : Machine σ (Booth κ ε)} (device : String) (unit : UInt64) (name : String) :
    Serves d m → Serves d (m.attach device unit name).2
  | detach {m : Machine σ (Booth κ ε)} (device : String) (unit : UInt64) :
    Serves d m → Serves d (m.detach device unit).2
  | detachAll {m : Machine σ (Booth κ ε)} : Serves d m → Serves d m.detachAll.2
  | resetAll {m m' : Machine σ (Booth κ ε)} {pops : Nat} {result : Result} :
    Serves d m → m.resetAll pops = some (result, m') → Serves d m'
  | boot {m m' : Machine σ (Booth κ ε)} {pops : Nat} {device : String} {unit : UInt64}
      {result : Result} :
    Serves d m → m.boot pops device unit = some (result, m') → Serves d m'
  | run {m m' : Machine σ (Booth κ ε)} {pops slots : Nat} {instruction : Program (Booth κ ε)}
      {budget : Option Nat} {report : Except Status RunReport} :
    Serves d m → Client d instruction → m.run pops slots instruction budget = some (report, m') →
      Serves d m'
  | tick {m : Machine σ (Booth κ ε)} {pops : Nat} {result : Result} {t : Scheduler σ (Booth κ ε)} :
    Serves d m → m.scheduler.tick pops = some (result, t) → Serves d { m with scheduler := t }
  | processEvent {m : Machine σ (Booth κ ε)} {pops : Nat} {result : Result}
      {t : Scheduler σ (Booth κ ε)} :
    Serves d m → m.scheduler.processEvent pops = some (result, t) →
      Serves d { m with scheduler := t }

/-! ## Operations keep all tickets accounted for -/

theorem consume_accounted (s : Scheduler σ (Booth κ ε)) (here : d.Accounted none s) :
    d.Accounted none (s.consume 1) := here.perform (c := .consume 1) trivial

theorem custody_accounted : Scheduler.Custody (d.Accounted none : Scheduler σ (Booth κ ε) → Prop) := by
  intro s c custodial here
  refine here.perform ?_
  cases c with
  | attach | detach | tell => trivial
  | _ => exact custodial.elim

theorem Serves.accounted (serves : m.Serves d) : m.Staffed d ∧ d.Accounted none m.scheduler := by
  induction serves with
  | start fresh =>
    refine ⟨fresh.staffed, fresh.hosts, ?_, fun _ => none, fun u drive k there => ?_, fun _ _ => nofun,
      fun n ticket there => ?_⟩
    · rw [fresh.uncounted, Booth.runs, fresh.unused]
      rfl
    · rw [fresh.idle u drive] at there
      cases there
    · rw [fresh.unused] at there
      cases there
  | call _ client ran ih => exact ⟨ih.1, client.run _ _ ih.2 _ _ ran⟩
  | attach device unit name _ ih =>
    obtain ⟨left, same⟩ := attach_keeps custody_accounted ih.2 device unit name
    exact ⟨ih.1.of_same same, left⟩
  | detach device unit _ ih =>
    obtain ⟨left, same⟩ := detach_keeps custody_accounted ih.2 device unit
    exact ⟨ih.1.of_same same, left⟩
  | detachAll _ ih => exact ⟨ih.1, detachAll_keeps custody_accounted ih.2⟩
  | resetAll _ ended ih =>
    obtain ⟨left, same⟩ := resetAll_keeps (fun device there => (ih.1 device there).1.run _) ih.2 ended
    exact ⟨ih.1.of_same same, left⟩
  | boot _ ended ih =>
    obtain ⟨left, same⟩ := boot_keeps (fun device there u => ((ih.1 device there).2 u).run _) ih.2 ended
    exact ⟨ih.1.of_same same, left⟩
  | run _ client ended ih =>
    obtain ⟨left, same⟩ :=
      run_keeps custody_accounted consume_accounted (processEvent_accounted _) (client.run _) ih.2 ended
    exact ⟨ih.1.of_same same, left⟩
  | tick _ ended ih =>
    exact ⟨ih.1, Scheduler.tick_keeps consume_accounted (processEvent_accounted _) _ ih.2 _ _ ended⟩
  | processEvent _ ended ih => exact ⟨ih.1, processEvent_accounted _ _ ih.2 _ _ ended⟩

end Machine

/-- In the course of the operations of a machine with a disk, between any two of them: a request that was
refused never has its completion run; one that passed the checks has had it run exactly once, or its
drive holds the transfer with that completion, which was never run, and is in the queue. The disk has
counted as many transfers as completions were run. A request that a check refuses ends with a status at
once and leaves queue, units and media as they are. -/
theorem no_request_is_lost {d : SectorDisk} {m : Machine σ (Booth κ ε)} (serves : m.Serves d) :
    (∀ (n : Nat) ticket, m.scheduler.world.tickets[n]? = some ticket →
      match ticket.unit with
      | none => ticket.runs = 0
      | some u =>
        ticket.runs = 1 ∨
          ticket.runs = 0 ∧ u ∈ d.units ∧ u ∈ m.scheduler.agenda.units ∧
            ∃ k, (m.scheduler.slot u).parked = some k ∧ d.Completes n k.deliver) ∧
      d.finished m.scheduler.world = some m.scheduler.world.runs ∧
      ∀ drive request done next pops, d.admits drive m.scheduler = none →
        ∃ status t,
          (d.request drive request done next).run pops m.scheduler = (next (.error status)).run pops t ∧
            t.agenda = m.scheduler.agenda ∧ t.slots = m.scheduler.slots ∧
            t.media = m.scheduler.media ∧ t.world = m.scheduler.world.issue none := by
  have here := serves.accounted.2
  obtain ⟨slip, fits⟩ := here.matched
  refine ⟨fun n ticket there => ?_, here.counts, fun drive request done next pops refused => ?_⟩
  · rcases fits.tickets n ticket there with closed | ⟨u, rfl, mine⟩
    · unfold Ticket.Closed at closed
      cases unit : ticket.unit with
      | none => simpa only [unit] using closed
      | some u =>
        simp only [unit] at closed
        exact .inl closed
    · obtain ⟨drive, holds, -, queued⟩ := fits.held u n mine
      obtain ⟨k, parked⟩ := Option.isSome_iff_exists.1 holds
      obtain ⟨n', mine', completes⟩ := fits.parked u drive k parked
      cases mine.symm.trans mine'
      exact .inr ⟨rfl, drive, queued nofun, k, parked, completes⟩
  · obtain ⟨status, t, ended, agenda, slots, world, media⟩ :=
      SectorDisk.exec_submit_refused
        (s := { m.scheduler with world := m.scheduler.world.issue none }) request
        (SectorDisk.ticketed m.scheduler.world.tickets.length done) next
        (Scheduler.processEvent pops) refused
    refine ⟨status, t, ?_, agenda, slots, media, world⟩
    rw [Program.run, SectorDisk.exec_request, refused]
    exact ended

/-- A drive with a request in flight refuses another one; the completion of the first makes a third, which
is still in flight when the first has been completed. -/
theorem nested_request_is_kept :
    ∃ (d : SectorDisk) (m : Machine MemoryImages (Booth Unit Unit)), m.Serves d ∧
      m.scheduler.world.tickets = [⟨some 0, 1⟩, ⟨none, 0⟩, ⟨some 0, 0⟩] ∧
      0 ∈ m.scheduler.agenda.units ∧ d.finished m.scheduler.world = some 1 := by
  let d : SectorDisk := { record := 0, units := [0], sectorSize := 4, backend := .deferred 4 3 }
  let board : Booth Unit Unit :=
    { console := (), clocks := #[], disks := #[{}], terminals := #[], extra := ([], ()) }
  let media : MemoryImages := { images := [("A", Bytes.zeros 8)], writes := [] }
  let drive : Endpoint := { name := "DK0", can := { attachable := true }, capacity := 8 }
  let bare : Scheduler MemoryImages (Booth Unit Unit) := .start 100 1000000 board media (.empty none)
  let m : Machine MemoryImages (Booth Unit Unit) := ⟨(bare.addUnit drive).2, ⟨#[d.ticketedDevice]⟩⟩
  let attached := (m.attach "DK" 0 "A").2
  let last : Outcome → Program (Booth Unit Unit) := fun _ => .done (.ok ())
  let third : Outcome → Program (Booth Unit Unit) := fun _ => d.request 0 (.read 1 1) last .done
  let p : Program (Booth Unit Unit) := d.request 0 (.read 0 1) third fun _ =>
    d.request 0 (.read 1 1) last fun _ => .dispatch fun _ => .call (.consume 3) fun _ =>
      .dispatch .done
  have client : d.Client p := by
    refine .request (fun _ => .request (fun _ => .done _) fun _ => .done _) fun _ => ?_
    refine .request (fun _ => .done _) fun _ => .dispatch fun _ => ?_
    exact .call trivial fun _ => .dispatch fun _ => .done _
  have blank := fun u =>
    (bare.callbacks_perform (.addUnit drive) u).trans (Scheduler.callbacks_of_empty rfl u)
  have fresh : m.Fresh d :=
    { staffed := fun device there => by
        rw [List.mem_singleton.1 there]
        exact SectorDisk.client_device
      hosts := ⟨Scheduler.installs_of_blank blank, by decide⟩
      idle := fun u _ => congrArg (·.2.2) (blank u)
      unused := rfl
      uncounted := by decide +kernel }
  have course : (p.run 9 attached.scheduler).map
      (fun ended => (ended.2.world.tickets, d.finished ended.2.world)) =
      some ([⟨some 0, 1⟩, ⟨none, 0⟩, ⟨some 0, 0⟩], some 1) := by decide +kernel
  obtain ⟨⟨result, t⟩, ended, same⟩ := Option.map_eq_some_iff.1 course
  obtain ⟨tickets, counted⟩ := Prod.mk.inj same
  have after : ({ attached with scheduler := t } : Machine _ _).Serves d :=
    .call (.attach "DK" 0 "A" (.start fresh)) client ended
  have unpunched : t.world.tickets[2]? = some ⟨some 0, 0⟩ := by
    rw [tickets]
    rfl
  have kept := (no_request_is_lost after).1 2 ⟨some 0, 0⟩ unpunched
  exact ⟨d, _, after, tickets, (kept.resolve_left Nat.zero_ne_one).2.2.1, counted⟩

end Peripheral
