import Peripheral.Board.SectorDisk
import Peripheral.Proofs.Submission

/-!
# Tickets for disk requests

To tell what becomes of each request to a disk, the board keeps a list of tickets. A request draws a
ticket when it is made, which notes whether it passes the checks; its completion punches the ticket
whenever it is run.

* `Ticket`, `Booth` : tickets, and a board with a list of them (`Booth.issue`, `Booth.punch`);
* `SectorDisk.request` : ask for a transfer with a ticket; `SectorDisk.bootVia` : boot by requests of
  some kind (`boot_eq_bootVia`);
* `SectorDisk.admits` : the drive that a request is let through to;
* `exec_submit_refused`, `exec_submit_admitted` : **what a disk does with a request**.
-/

namespace Peripheral

/-- What is known of a request. -/
structure Ticket where
  /-- The drive that the request was let through to; none if a check has refused it. -/
  unit : Option UnitId
  /-- How often its completion has been run. -/
  runs : Nat
deriving DecidableEq, Repr

/-- A board whose owner keeps tickets beside what else there is to keep. -/
abbrev Booth (κ ε : Type) := Board κ (List Ticket × ε)

namespace Booth

variable {κ ε : Type}

def tickets (b : Booth κ ε) : List Ticket := b.extra.1

def runs (b : Booth κ ε) : Nat := b.tickets.foldr (fun t count => t.runs + count) 0

def issue (unit : Option UnitId) (b : Booth κ ε) : Booth κ ε :=
  { b with extra := (b.tickets ++ [⟨unit, 0⟩], b.extra.2) }

def punch (n : Nat) (b : Booth κ ε) : Booth κ ε :=
  { b with extra := (b.tickets.modify n fun t => { t with runs := t.runs + 1 }, b.extra.2) }

@[simp] theorem tickets_issue (unit : Option UnitId) (b : Booth κ ε) :
    (b.issue unit).tickets = b.tickets ++ [⟨unit, 0⟩] := rfl

@[simp] theorem tickets_punch (n : Nat) (b : Booth κ ε) :
    (b.punch n).tickets = b.tickets.modify n fun t => { t with runs := t.runs + 1 } := rfl

@[simp] theorem runs_issue (unit : Option UnitId) (b : Booth κ ε) : (b.issue unit).runs = b.runs := by
  simp [runs]

theorem runs_punch {n : Nat} {b : Booth κ ε} {t : Ticket} (there : b.tickets[n]? = some t) :
    (b.punch n).runs = b.runs + 1 := by
  unfold runs
  rw [tickets_punch]
  generalize b.tickets = l at there ⊢
  induction l generalizing n with
  | nil => cases there
  | cons first rest ih =>
    cases n with
    | zero =>
      simp only [List.modify_cons, if_true, List.foldr_cons]
      omega
    | succ n =>
      have step := ih there
      simp only [List.modify_cons, Nat.succ_ne_zero, if_false, Nat.add_sub_cancel, List.foldr_cons,
        step]
      omega

theorem tickets_punch_issue (unit : Option UnitId) (b : Booth κ ε) :
    ((b.issue unit).punch b.tickets.length).tickets = b.tickets ++ [⟨unit, 1⟩] := by
  rw [tickets_punch, tickets_issue]
  simp [List.modify_eq_take_drop]

end Booth

def Backend.isDeferred : Backend → Bool
  | .immediate _ => false
  | .deferred _ _ => true

namespace SectorDisk

variable {σ κ ε : Type}

/-! ## Requests with tickets -/

def ticketed (n : Nat) (done : Outcome → Program (Booth κ ε)) (outcome : Outcome) :
    Program (Booth κ ε) :=
  .change (Booth.punch n) (done outcome)

/-- Whether a drive lets a request through: it must be attached, and unless transfers complete at once
none may be in flight on it. -/
def letsThrough (d : SectorDisk) (unit : UnitView) : Bool :=
  unit.endpoint.isAttached && !(d.backend.isDeferred && unit.ioPending)

/-- Look up the drive that a request is let through to. -/
def admission (drive : UInt64) (d : SectorDisk) : Act (Booth κ ε) (Option UnitId) :=
  match d.unit drive with
  | .error _ => return none
  | .ok u => do
    let unit ← Act.perform (.unit u)
    return if d.letsThrough unit then some u else none

/-- Draw a ticket and ask for a transfer on a drive. -/
def request (drive : UInt64) (request : Request) (done : Outcome → Program (Booth κ ε))
    (d : SectorDisk) : Act (Booth κ ε) Result := do
  let unit ← d.admission drive
  let b ← Act.world
  Act.change (Booth.issue unit)
  d.submit drive request (ticketed b.tickets.length done)

/-- Boot from a unit, given how requests are made. -/
def bootVia (ask : UInt64 → Request → (Outcome → Program (Board κ ε)) → Act (Board κ ε) Result)
    (u : UnitId) (d : SectorDisk) : Act (Board κ ε) Result :=
  match d.units.idxOf? u with
  | none => return .error (.invalidArgument (.foreignUnit u))
  | some number => do
    Act.perform (.tell (.booting number))
    Act.change fun b => b.modifyDisk d.record fun r => { r with bootSector := none }
    ask (UInt64.ofNat number) (.read 0 1) d.keepBootSector

theorem boot_eq_bootVia (u : UnitId) (d : SectorDisk) :
    (d.boot u : Act (Board κ ε) Result) =
      d.bootVia (fun drive request done => d.submit drive request done) u := rfl

/-- The drive that a request is let through to. -/
def admits {ω : Type} (drive : UInt64) (d : SectorDisk) (s : Scheduler σ ω) : Option UnitId :=
  match d.unit drive with
  | .error _ => none
  | .ok u => if d.letsThrough (s.view u) then some u else none

theorem mem_units_of_unit {drive : UInt64} {d : SectorDisk} {u : UnitId} (found : d.unit drive = .ok u) :
    u ∈ d.units := by
  unfold unit at found
  split at found
  · rename_i v there
    rw [← Except.ok.inj found]
    exact List.mem_of_getElem? there
  · cases found

theorem of_admits {ω : Type} {drive : UInt64} {d : SectorDisk} {s : Scheduler σ ω} {u : UnitId}
    (admitted : d.admits drive s = some u) : d.unit drive = .ok u ∧ d.letsThrough (s.view u) := by
  unfold admits at admitted
  split at admitted
  · cases admitted
  · rename_i v found
    split at admitted
    · rename_i passes
      rw [Option.some.inj admitted] at found passes
      exact ⟨found, passes⟩
    · cases admitted

theorem parked_of_admits {ω : Type} {drive : UInt64} {d : SectorDisk} {s : Scheduler σ ω} {u : UnitId}
    (admitted : d.admits drive s = some u) (deferred : d.backend.isDeferred) :
    (s.slot u).parked = none := by
  have passes := (of_admits admitted).2
  rw [letsThrough, deferred, Bool.true_and, Bool.and_eq_true, Bool.not_eq_true'] at passes
  exact Option.not_isSome_iff_eq_none.1 (Bool.eq_false_iff.1 passes.2)

section
variable [MediaStore σ] {d : SectorDisk} {drive : UInt64} {request : Request}
  {next : Result → Program (Board κ ε)} {done : Outcome → Program (Board κ ε)}
  {dispatch : Motion σ (Board κ ε)} {s : Scheduler σ (Board κ ε)}

theorem exec_submit_found {u : UnitId} (found : d.unit drive = .ok u) :
    (d.submit drive request done next).exec dispatch s =
      if (s.view u).endpoint.isAttached then
        (d.backend.submit u request (d.counted request done) next).exec dispatch
          (s.tell (summary (s.nameOf u) request))
      else (next (.error .notAttached)).exec dispatch s := by
  unfold submit
  rw [found]
  show Program.exec dispatch
    ((if !(s.view u).endpoint.isAttached then _ else _ : Act (Board κ ε) Result) next) s = _
  by_cases attached : (s.view u).endpoint.isAttached
  · rw [if_pos attached, if_neg (by simp [attached])]
    rfl
  · rw [if_neg attached, if_pos (by simp [attached])]
    rfl

/-- A request that is let through goes to the backend, and its completion is counted. -/
theorem exec_submit_admitted {u : UnitId} (admitted : d.admits drive s = some u) :
    (d.submit drive request done next).exec dispatch s =
      (d.backend.submit u request (d.counted request done) next).exec dispatch
        (s.tell (summary (s.nameOf u) request)) := by
  obtain ⟨found, passes⟩ := of_admits admitted
  rw [letsThrough, Bool.and_eq_true] at passes
  rw [exec_submit_found found, if_pos passes.1]

/-- A request that a check refuses ends with a status and leaves all but the journal as it was. -/
theorem exec_submit_refused (request : Request) (done : Outcome → Program (Board κ ε))
    (next : Result → Program (Board κ ε)) (dispatch : Motion σ (Board κ ε))
    (refused : d.admits drive s = none) :
    ∃ status t, (d.submit drive request done next).exec dispatch s =
        (next (.error status)).exec dispatch t ∧
      t.agenda = s.agenda ∧ t.slots = s.slots ∧ t.world = s.world ∧ t.media = s.media := by
  unfold admits at refused
  cases found : d.unit drive with
  | error status =>
    unfold submit
    rw [found]
    exact ⟨status, s, rfl, rfl, rfl, rfl, rfl⟩
  | ok u =>
    rw [found] at refused
    rw [exec_submit_found found]
    by_cases attached : (s.view u).endpoint.isAttached
    · have in_flight : d.backend.isDeferred && (s.view u).ioPending := by
        simpa [letsThrough, attached] using refused
      rw [if_pos attached]
      cases backend : d.backend with
      | immediate sectorSize => simp [backend, Backend.isDeferred] at in_flight
      | deferred sectorSize latency =>
        rw [Bool.and_eq_true] at in_flight
        have pending : ((s.tell (summary (s.nameOf u) request)).slot u).parked.isSome := in_flight.2
        rw [exec_submit_deferred, if_pos pending]
        exact ⟨_, _, rfl, rfl, rfl, rfl, rfl⟩
    · rw [if_neg attached]
      exact ⟨.notAttached, s, rfl, rfl, rfl, rfl, rfl⟩

end

theorem exec_request [MediaStore σ] {d : SectorDisk} {drive : UInt64} {request : Request}
    {next : Result → Program (Booth κ ε)} {done : Outcome → Program (Booth κ ε)}
    {dispatch : Motion σ (Booth κ ε)} {s : Scheduler σ (Booth κ ε)} :
    (d.request drive request done next).exec dispatch s =
      (d.submit drive request (ticketed s.world.tickets.length done) next).exec dispatch
        { s with world := s.world.issue (d.admits drive s) } := by
  unfold SectorDisk.request admission admits
  cases d.unit drive with
  | error status => rfl
  | ok u => rfl

end SectorDisk

end Peripheral
