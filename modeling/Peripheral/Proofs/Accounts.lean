import Peripheral.Proofs.Tickets

/-!
# Requests of a disk are accounted for

* `SectorDisk.Client` : programs that make requests, and leave the cancelling of drives to the disk;
* `SectorDisk.Accounted` : every ticket is punched once, refused, or that of the one transfer that its
  drive holds while it is in the queue (`Accounted.perform`, `Accounted.refuse`, `Accounted.at_once`,
  `Accounted.defer`, `Accounted.complete`);
* `Client.keeps`, `fire_accounted`, `processEvent_accounted` : **programs of clients, firings and
  dispatches keep all tickets accounted for**.
-/

namespace Peripheral

variable {σ κ ε : Type}

def Ticket.Closed (t : Ticket) : Prop :=
  match t.unit with
  | none => t.runs = 0
  | some _ => t.runs = 1

namespace SectorDisk

/-! ## Counting completions -/

def finished (d : SectorDisk) (b : Board κ ε) : Option Nat :=
  b.disks[d.record]?.map fun r => r.reads + r.writes + r.errors

theorem finished_modifyDisk (d : SectorDisk) (f : DiskRecord → DiskRecord) (b : Board κ ε) :
    d.finished (b.modifyDisk d.record f) =
      b.disks[d.record]?.map fun r => (f r).reads + (f r).writes + (f r).errors := by
  unfold finished Board.modifyDisk
  rw [Array.getElem?_modify, if_pos rfl, Option.map_map]
  rfl

theorem finished_count (d : SectorDisk) (request : Request) (outcome : Outcome) (b : Board κ ε) :
    d.finished (b.modifyDisk d.record (·.count request outcome)) = (d.finished b).map (· + 1) := by
  rw [finished_modifyDisk, finished, Option.map_map]
  refine congrArg (Option.map · b.disks[d.record]?) (funext fun r => ?_)
  simp only [DiskRecord.count, Function.comp_apply]
  split <;> dsimp only <;> omega

/-! ## Clients of a disk -/

/-- The tickets and the count of a disk are the same on two boards. -/
def Agrees (d : SectorDisk) (b c : Booth κ ε) : Prop :=
  c.tickets = b.tickets ∧ d.finished c = d.finished b

/-- A change of the board leaves the tickets and the count of a disk alone. -/
def Spares (d : SectorDisk) (f : Booth κ ε → Booth κ ε) : Prop := ∀ b, d.Agrees b (f b)

def Leaves (d : SectorDisk) : Call → Prop
  | .cancel u => u ∉ d.units
  | _ => True

/-- Neither the program nor any callback that it installs cancels a drive or leaves a transfer with one
other than by the requests and the reset of the disk, and neither touches tickets or counts. -/
inductive Client (d : SectorDisk) : Program (Booth κ ε) → Prop
  | done (result : Result) : Client d (.done result)
  | call {c : Call} {next : c.Answer → Program (Booth κ ε)} :
    d.Leaves c → (∀ answer, Client d (next answer)) → Client d (.call c next)
  | look {next : Booth κ ε → Program (Booth κ ε)} :
    (∀ b, Client d (next b)) → Client d (.look next)
  | change {f : Booth κ ε → Booth κ ε} {next : Program (Booth κ ε)} :
    d.Spares f → Client d next → Client d (.change f next)
  | setAction {u : UnitId} {action next : Program (Booth κ ε)} :
    Client d action → Client d next → Client d (.setAction u action next)
  | setHook {u : UnitId} {hook : Hook (Booth κ ε)} {next : Program (Booth κ ε)} :
    d.Spares (fun b => (hook b).2) → Client d next → Client d (.setHook u hook next)
  | park {u : UnitId} {delay : Float} {outcome : Outcome} {deliver : Outcome → Program (Booth κ ε)}
      {next : Program (Booth κ ε)} :
    u ∉ d.units → (∀ outcome, Client d (deliver outcome)) → Client d next →
      Client d (.park u delay outcome deliver next)
  | dispatch {next : Result → Program (Booth κ ε)} :
    (∀ result, Client d (next result)) → Client d (.dispatch next)
  | request {drive : UInt64} {request : Request} {done : Outcome → Program (Booth κ ε)}
      {next : Result → Program (Booth κ ε)} :
    (∀ outcome, Client d (done outcome)) → (∀ result, Client d (next result)) →
      Client d (d.request drive request done next)
  | reset {next : Result → Program (Booth κ ε)} :
    (∀ result, Client d (next result)) → Client d (d.reset next)

theorem spares_bootSector (d : SectorDisk) (bootSector : Option Bytes) :
    d.Spares fun b : Booth κ ε => b.modifyDisk d.record fun r => { r with bootSector } :=
  fun b => ⟨rfl, d.finished_modifyDisk _ b⟩

theorem client_boot (d : SectorDisk) (u : UnitId) {next : Result → Program (Booth κ ε)}
    (rest : ∀ result, Client d (next result)) :
    Client d (d.bootVia (fun drive request done => d.request drive request done) u next) := by
  unfold bootVia
  cases d.units.idxOf? u with
  | none => exact rest _
  | some number =>
    refine .call trivial fun _ => .change (d.spares_bootSector none) ?_
    refine .request (fun outcome => ?_) rest
    unfold keepBootSector
    split
    · exact .done _
    · exact .change (d.spares_bootSector (some outcome.data)) (.done _)

/-! ## Every ticket is accounted for -/

/-- Running the completion counts, punches the ticket `n`, and goes on as a client. -/
def Completes (d : SectorDisk) (n : Nat) (deliver : Outcome → Program (Booth κ ε)) : Prop :=
  ∃ request done, (∀ outcome, Client d (done outcome)) ∧
    deliver = d.counted request (ticketed n done)

/-- How tickets and drives match, where `slip` tells the ticket of the transfer that a drive holds. All
drives that hold one are in the queue, a `free` one excepted. -/
structure Matches (d : SectorDisk) (free : Option UnitId) (slip : UnitId → Option Nat)
    (s : Scheduler σ (Booth κ ε)) : Prop where
  parked : ∀ u ∈ d.units, ∀ k, (s.slot u).parked = some k →
    ∃ n, slip u = some n ∧ d.Completes n k.deliver
  held : ∀ u n, slip u = some n → u ∈ d.units ∧ (s.slot u).parked.isSome ∧
    s.world.tickets[n]? = some ⟨some u, 0⟩ ∧ (free ≠ some u → u ∈ s.agenda.units)
  tickets : ∀ (n : Nat) (t : Ticket), s.world.tickets[n]? = some t → t.Closed ∨
    ∃ u, t = ⟨some u, 0⟩ ∧ slip u = some n

/-- The drives are there, and all callbacks but completions of the disk belong to clients. -/
structure Hosts (d : SectorDisk) (s : Scheduler σ (Booth κ ε)) : Prop extends
    s.Installs (Client d) (fun hook => d.Spares fun b => (hook b).2) (· ∈ d.units) where
  drives : ∀ u ∈ d.units, u < s.slots.size

/-- All callbacks belong to clients, and all tickets are accounted for. -/
structure Accounted (d : SectorDisk) (free : Option UnitId) (s : Scheduler σ (Booth κ ε)) : Prop where
  hosts : d.Hosts s
  counts : d.finished s.world = some s.world.runs
  matched : ∃ slip, d.Matches free slip s

section
variable {d : SectorDisk} {free : Option UnitId} {s t : Scheduler σ (Booth κ ε)} {u : UnitId}

theorem Agrees.refl (b : Booth κ ε) : d.Agrees b b := ⟨rfl, rfl⟩

theorem Agrees.runs {b c : Booth κ ε} (agrees : d.Agrees b c) : c.runs = b.runs := by
  unfold Booth.runs
  rw [agrees.1]

/-- What touches no callbacks, takes no drive that holds a transfer out of the queue and at most draws
tickets that are closed at once keeps all tickets accounted for. -/
theorem Accounted.draw {free' : Option UnitId} (here : d.Accounted free s)
    (callbacks : ∀ u, (t.slot u).callbacks = (s.slot u).callbacks)
    (size : s.slots.size ≤ t.slots.size) (new : List Ticket)
    (drawn : t.world.tickets = s.world.tickets ++ new) (closed : ∀ ticket ∈ new, ticket.Closed)
    (counts : d.finished t.world = some t.world.runs)
    (pending : ∀ u ∈ d.units, free' ≠ some u → (s.slot u).parked.isSome →
      (free ≠ some u → u ∈ s.agenda.units) → u ∈ t.agenda.units) : d.Accounted free' t := by
  have parked : ∀ u, (t.slot u).parked = (s.slot u).parked := fun u => congrArg (·.2.2) (callbacks u)
  obtain ⟨slip, fits⟩ := here.matched
  refine ⟨⟨here.hosts.of_callbacks callbacks,
    fun u drive => Nat.lt_of_lt_of_le (here.hosts.drives u drive) size⟩, counts, slip, ?_⟩
  refine ⟨fun u drive k there => fits.parked u drive k (parked u ▸ there), fun u n holds => ?_,
    fun n ticket there => ?_⟩
  · obtain ⟨drive, some_parked, ticket, queued⟩ := fits.held u n holds
    have old : n < s.world.tickets.length := (List.getElem?_eq_some_iff.1 ticket).1
    rw [parked u, drawn, List.getElem?_append_left old]
    exact ⟨drive, some_parked, ticket, fun bound => pending u drive bound some_parked queued⟩
  · rw [drawn, List.getElem?_append] at there
    split at there
    · exact fits.tickets n ticket there
    · exact .inl (closed ticket (List.mem_of_getElem? there))

theorem Accounted.move {free' : Option UnitId} (here : d.Accounted free s)
    (callbacks : ∀ u, (t.slot u).callbacks = (s.slot u).callbacks)
    (size : s.slots.size ≤ t.slots.size) (agrees : d.Agrees s.world t.world)
    (pending : ∀ u ∈ d.units, free' ≠ some u → (s.slot u).parked.isSome →
      (free ≠ some u → u ∈ s.agenda.units) → u ∈ t.agenda.units) : d.Accounted free' t :=
  here.draw callbacks size [] (by rw [agrees.1, List.append_nil]) (by simp)
    (by rw [agrees.2, agrees.runs]; exact here.counts) pending

theorem Accounted.of_same (here : d.Accounted free s) (agenda : t.agenda.units = s.agenda.units)
    (slots : t.slots = s.slots) (world : t.world = s.world) : d.Accounted free t :=
  here.move (fun u => by rw [Scheduler.slot_of_slots slots]) (Nat.le_of_eq (by rw [slots]))
    (by rw [world]; exact .refl _) fun u _ bound _ queued => by
      rw [agenda]
      exact queued bound

theorem Accounted.steady : Scheduler.Steady (d.Accounted free : Scheduler σ (Booth κ ε) → Prop) where
  tell _ _ here := here.of_same rfl rfl rfl
  stop _ _ here := here.of_same rfl rfl rfl
  dispatching _ _ here := here.of_same rfl rfl rfl
  settle s here := here.of_same s.agenda.units_settle rfl rfl
  rearm s here _ := here.of_same s.agenda.units_rearm rfl rfl

theorem Accounted.change (here : d.Accounted free s) {f : Booth κ ε → Booth κ ε} (spares : d.Spares f) :
    d.Accounted free { s with world := f s.world } :=
  here.move (fun _ => rfl) (Nat.le_refl _) (spares _) fun _ _ bound _ queued => queued bound

theorem agrees_asked {u : UnitId}
    (hooks : ∀ hook, (s.slot u).hook = some hook → d.Spares fun b => (hook b).2) :
    d.Agrees s.world (s.asked u) := by
  unfold Scheduler.asked
  cases installed : (s.slot u).hook with
  | none => exact .refl _
  | some hook => exact hooks hook installed s.world

/-! ## Callbacks change hands -/

theorem Accounted.modifySlot (here : d.Accounted free s) (f : Slot (Booth κ ε) → Slot (Booth κ ε))
    (actions : ∀ p, (f (s.slot u)).action = some p → Client d p)
    (hooks : ∀ hook, (f (s.slot u)).hook = some hook → d.Spares fun b => (hook b).2)
    (guests : u ∉ d.units → ∀ k, (f (s.slot u)).parked = some k → ∀ outcome, Client d (k.deliver outcome))
    (drives : u ∈ d.units → (f (s.slot u)).parked = (s.slot u).parked) :
    d.Accounted free (s.modifySlot u f) := by
  have parked : ∀ v ∈ d.units, ((s.modifySlot u f).slot v).parked = (s.slot v).parked := by
    intro v drive
    rw [Scheduler.slot_modifySlot]
    split
    · rename_i both
      obtain ⟨rfl, -⟩ := both
      exact drives drive
    · rfl
  have hosts : d.Hosts (s.modifySlot u f) :=
    ⟨here.hosts.toInstalls.modifySlot f actions hooks guests, fun v drive => by
      rw [Scheduler.size_modifySlot]
      exact here.hosts.drives v drive⟩
  obtain ⟨slip, fits⟩ := here.matched
  refine ⟨hosts, here.counts, slip, fun v drive k there => fits.parked v drive k (parked v drive ▸ there),
    fun v n holds => ?_, fits.tickets⟩
  obtain ⟨drive, rest⟩ := fits.held v n holds
  rw [parked v drive]
  exact ⟨drive, rest⟩

/-! ## Calls and the queue -/

variable [MediaStore σ]

/-- No call of a client loses a ticket. -/
theorem Accounted.perform (here : d.Accounted free s) {c : Call} (leaves : d.Leaves c) :
    d.Accounted free (s.perform c).2 := by
  refine here.move (s.callbacks_perform c) (s.size_perform c) ?_ fun u drive bound _ queued =>
    Scheduler.mem_units_perform (queued bound) ?_
  · rw [Scheduler.world_perform]
    cases c with
    | cancel u => exact agrees_asked (here.hosts.hooks u)
    | _ => exact .refl _
  · rintro rfl
    exact leaves drive

theorem Accounted.cancel (here : d.Accounted none s) (u : UnitId) : d.Accounted (some u) (s.cancel u) := by
  refine here.move (s.callbacks_perform (.cancel u)) (s.size_perform (.cancel u)) ?_ ?_
  · rw [Scheduler.world_cancel]
    exact agrees_asked (here.hosts.hooks u)
  · intro v _ bound _ queued
    refine Scheduler.mem_units_perform (c := .cancel u) (queued nofun) ?_
    rintro ⟨⟩
    exact bound rfl

theorem Accounted.requeue (here : d.Accounted (some u) s) (c : Call) (leaves : d.Leaves c)
    (queued : u ∈ (s.perform c).2.agenda.units) : d.Accounted none (s.perform c).2 :=
  (here.perform leaves).move (fun _ => rfl) (Nat.le_refl _) (.refl _) fun v _ _ _ still => by
    by_cases same : u = v
    · exact same ▸ queued
    · exact still fun h => same (Option.some.inj h)

omit [MediaStore σ] in
theorem Accounted.of_empty (here : d.Accounted (some u) s) (empty : (s.slot u).parked = none) :
    d.Accounted none s :=
  here.move (fun _ => rfl) (Nat.le_refl _) (.refl _) fun v _ _ holds still => by
    refine still fun h => ?_
    rw [← Option.some.inj h, empty] at holds
    cases holds

omit [MediaStore σ] in
theorem Accounted.popped (here : d.Accounted none s) {agenda : Agenda}
    (popped : s.agenda.pop? = some (u, agenda)) : d.Accounted (some u) { s with agenda } :=
  here.move (fun _ => rfl) (Nat.le_refl _) (.refl _) fun v _ bound _ queued => by
    have pending := queued nofun
    rw [Agenda.units_of_pop? popped] at pending
    exact (List.mem_cons.1 pending).resolve_left fun same => bound (congrArg some same.symm)

/-! ## Tickets drawn and punched -/

/-- The board once the completion of a request has been counted and its ticket punched. -/
def punched (d : SectorDisk) (request : Request) (outcome : Outcome) (n : Nat) (b : Booth κ ε) :
    Booth κ ε :=
  Booth.punch n (b.modifyDisk d.record (·.count request outcome))

omit [MediaStore σ] in
theorem counts_punched {b : Booth κ ε} {n : Nat} {ticket : Ticket} (request : Request)
    (outcome : Outcome) (counts : d.finished b = some b.runs) (there : b.tickets[n]? = some ticket) :
    d.finished (d.punched request outcome n b) = some (d.punched request outcome n b).runs := by
  show d.finished (b.modifyDisk d.record (·.count request outcome)) = some (Booth.punch n _).runs
  rw [finished_count, counts, Booth.runs_punch (b := b.modifyDisk d.record _) there]
  rfl

theorem exec_counted (request : Request) (n : Nat) (done : Outcome → Program (Booth κ ε))
    (outcome : Outcome) (dispatch : Motion σ (Booth κ ε)) :
    (d.counted request (ticketed n done) outcome).exec dispatch s =
      (done outcome).exec dispatch { s with world := d.punched request outcome n s.world } := rfl

omit [MediaStore σ] in
/-- The ticket of a refused request is closed. -/
theorem Accounted.refuse (here : d.Accounted none s) :
    d.Accounted none { s with world := s.world.issue none } :=
  here.draw (fun _ => rfl) (Nat.le_refl _) [⟨none, 0⟩] rfl
    (fun ticket new => by rw [List.mem_singleton.1 new]; rfl)
    (by rw [Booth.runs_issue]; exact here.counts) fun _ _ bound _ queued => queued bound

theorem Accounted.at_once (here : d.Accounted none s) (u : UnitId) (sectorSize : UInt64)
    (request : Request) (outcome : Outcome) :
    d.Accounted none
      { (Scheduler.transfer u sectorSize request { s with world := s.world.issue (some u) }).2 with
        world := d.punched request outcome s.world.tickets.length (s.world.issue (some u)) } := by
  have drawn : (s.world.issue (some u)).tickets[s.world.tickets.length]? = some ⟨some u, 0⟩ := by simp
  refine here.draw (fun v => s.callbacks_perform (.transfer u sectorSize request) v)
    (s.size_perform (.transfer u sectorSize request)) [⟨some u, 1⟩] ?_ (fun ticket new => ?_)
    (counts_punched request outcome ?_ drawn) fun _ _ bound _ queued => queued bound
  · exact Booth.tickets_punch_issue (some u) s.world
  · rw [List.mem_singleton.1 new]
    rfl
  · rw [Booth.runs_issue]
    exact here.counts

omit [MediaStore σ] in
/-- Where only one drive gets or hands over a transfer, the slips of the others stay. -/
theorem Matches.update {slip : UnitId → Option Nat} (fits : d.Matches free slip s)
    (wider : ∀ v, u ≠ v → free ≠ some v) (drive : u ∈ d.units) (new : Option Nat)
    (parked : ∀ v, u ≠ v → (t.slot v).parked = (s.slot v).parked)
    (pending : ∀ v, u ≠ v → v ∈ s.agenda.units → v ∈ t.agenda.units)
    (kept : ∀ (n : Nat) ticket, slip u ≠ some n → s.world.tickets[n]? = some ticket →
      t.world.tickets[n]? = some ticket)
    (completes : ∀ k, (t.slot u).parked = some k → ∃ n, new = some n ∧ d.Completes n k.deliver)
    (held : ∀ n, new = some n → (t.slot u).parked.isSome ∧ t.world.tickets[n]? = some ⟨some u, 0⟩ ∧
      u ∈ t.agenda.units)
    (tickets : ∀ (n : Nat) ticket, t.world.tickets[n]? = some ticket →
      ticket.Closed ∨ ticket = ⟨some u, 0⟩ ∧ new = some n ∨
        slip u ≠ some n ∧ s.world.tickets[n]? = some ticket) :
    d.Matches none (fun v => if u = v then new else slip v) t where
  parked v drive k there := by
    by_cases same : u = v
    · subst same
      simp only [if_true]
      exact completes k there
    · rw [if_neg same]
      exact fits.parked v drive k (parked v same ▸ there)
  held v n holds := by
    by_cases same : u = v
    · subst same
      rw [if_pos rfl] at holds
      obtain ⟨holds, unpunched, queued⟩ := held n holds
      exact ⟨drive, holds, unpunched, fun _ => queued⟩
    · rw [if_neg same] at holds
      obtain ⟨drive, holds', unpunched, queued⟩ := fits.held v n holds
      refine ⟨drive, by rwa [parked v same], kept n _ (fun mine => ?_) unpunched,
        fun _ => pending v same (queued (wider v same))⟩
      rw [(fits.held u n mine).2.2.1] at unpunched
      cases unpunched
      exact same rfl
  tickets n ticket there := by
    rcases tickets n ticket there with closed | ⟨rfl, mine⟩ | ⟨foreign, old⟩
    · exact .inl closed
    · exact .inr ⟨u, rfl, by rw [if_pos rfl, mine]⟩
    · refine (fits.tickets n ticket old).imp_right ?_
      rintro ⟨v, rfl, holds⟩
      refine ⟨v, rfl, ?_⟩
      rw [if_neg, holds]
      rintro rfl
      exact foreign holds

/-- The ticket of a deferred request is that of the transfer which its drive now holds. -/
theorem Accounted.defer (here : d.Accounted none s) (drive : u ∈ d.units)
    (idle : (s.slot u).parked = none) (sectorSize : UInt64) (latency : Float) (request : Request)
    {done : Outcome → Program (Booth κ ε)} (clients : ∀ outcome, Client d (done outcome)) :
    d.Accounted none (Scheduler.defer u sectorSize latency request
      (d.counted request (ticketed s.world.tickets.length done))
      { s with world := s.world.issue (some u) }) := by
  let n := s.world.tickets.length
  let drawn : Scheduler σ (Booth κ ε) := { s with world := s.world.issue (some u) }
  let k : Parked (Booth κ ε) :=
    ⟨(drawn.transfer u sectorSize request).1, d.counted request (ticketed n done)⟩
  let t := drawn.defer u sectorSize latency request k.deliver
  have holds : (t.slot u).parked = some k :=
    congrArg Slot.parked (Scheduler.slot_defer_self (s := drawn) (here.hosts.drives u drive))
  have others : ∀ v, u ≠ v → (t.slot v).parked = (s.slot v).parked := fun v apart =>
    congrArg Slot.parked (Scheduler.slot_defer_of_ne (s := drawn) apart)
  have hosts : d.Hosts t :=
    ⟨here.hosts.keep (fun v => (Scheduler.action_hook_defer (s := drawn) u v).1)
      (fun v => (Scheduler.action_hook_defer (s := drawn) u v).2)
      fun v guest => others v fun same => guest (same ▸ drive), fun v mine => by
        rw [Scheduler.size_defer (s := drawn)]
        exact here.hosts.drives v mine⟩
  have agrees : d.Agrees (s.world.issue (some u)) t.world := by
    show d.Agrees _ (drawn.defer _ _ _ _ _).world
    rw [Scheduler.world_defer]
    refine agrees_asked (s := (drawn.transfer u sectorSize request).2) fun f there => ?_
    refine here.hosts.hooks u f ?_
    rw [← there]
    exact (congrArg (·.2.1) (drawn.callbacks_perform (.transfer u sectorSize request) u)).symm
  have counts : d.finished t.world = some (Booth.runs t.world) := by
    rw [agrees.2, agrees.runs, Booth.runs_issue]
    exact here.counts
  have appended : Booth.tickets t.world = s.world.tickets ++ [⟨some u, 0⟩] := agrees.1
  have last : (Booth.tickets t.world)[n]? = some ⟨some u, 0⟩ := by
    rw [appended]
    exact List.getElem?_concat_length
  obtain ⟨slip, fits⟩ := here.matched
  have none_held : slip u = none := by
    refine Option.eq_none_iff_forall_ne_some.2 fun m holds => ?_
    have other := (fits.held u m holds).2.1
    rw [idle] at other
    cases other
  refine ⟨hosts, counts, _, fits.update (fun _ _ => nofun) drive (some n) others
    (fun v _ queued => Scheduler.mem_units_defer_of_mem (s := drawn) queued)
    (fun m ticket _ there => ?_) (fun k' there => ?_) (fun m same => ?_) fun m ticket there => ?_⟩
  · rw [appended, List.getElem?_append_left (List.getElem?_eq_some_iff.1 there).1]
    exact there
  · cases holds.symm.trans there
    exact ⟨n, rfl, request, done, clients, rfl⟩
  · cases same
    exact ⟨by rw [holds]; rfl, last, Scheduler.mem_units_defer⟩
  · rw [appended, List.getElem?_append] at there
    split at there
    · exact .inr (.inr ⟨by rw [none_held]; exact nofun, there⟩)
    · rename_i late
      rw [List.getElem?_singleton] at there
      split at there
      · rename_i first
        have place : n = m := Nat.le_antisymm (Nat.le_of_not_lt late) (Nat.sub_eq_zero_iff_le.1 first)
        exact .inr (.inl ⟨(Option.some.inj there).symm, congrArg some place⟩)
      · cases there

omit [MediaStore σ] in
/-- A drive that comes up hands its transfer over: its ticket is punched, then the completion goes on as
a client. -/
theorem Accounted.complete (here : d.Accounted (some u) s) (drive : u ∈ d.units) {k : Parked (Booth κ ε)}
    (holds : (s.slot u).parked = some k) :
    ∃ request n done, (∀ outcome, Client d (done outcome)) ∧
      k.deliver = d.counted request (ticketed n done) ∧
      ∀ outcome, d.Accounted none
        { s.modifySlot u fun slot => { slot with parked := none } with
          world := d.punched request outcome n s.world } := by
  obtain ⟨slip, fits⟩ := here.matched
  obtain ⟨n, mine, request, done, clients, deliver⟩ := fits.parked u drive k holds
  refine ⟨request, n, done, clients, deliver, fun outcome => ?_⟩
  have unpunched := (fits.held u n mine).2.2.1
  let f : Slot (Booth κ ε) → Slot (Booth κ ε) := fun slot => { slot with parked := none }
  let t : Scheduler σ (Booth κ ε) :=
    { s.modifySlot u f with world := d.punched request outcome n s.world }
  have slots : ∀ v, t.slot v = if u = v ∧ u < s.slots.size then f (s.slot v) else s.slot v := fun v =>
    Scheduler.slot_modifySlot u v f s
  have others : ∀ v, u ≠ v → t.slot v = s.slot v := fun v apart => by
    rw [slots, if_neg fun both => apart both.1]
  have emptied : (t.slot u).parked = none := by
    rw [slots, if_pos ⟨rfl, here.hosts.drives u drive⟩]
  have hosts : d.Hosts t := by
    have hosts := here.hosts.toInstalls.modifySlot (u := u) f (here.hosts.actions u)
      (here.hosts.hooks u) fun _ _ => nofun
    refine ⟨hosts.of_callbacks fun _ => rfl, fun v mine => ?_⟩
    show v < (s.modifySlot u f).slots.size
    rw [Scheduler.size_modifySlot]
    exact here.hosts.drives v mine
  have changed : ∀ m, (Booth.tickets t.world)[m]? =
      if n = m then some ⟨some u, 1⟩ else s.world.tickets[m]? := by
    intro m
    show (List.modify s.world.tickets n fun t => { t with runs := t.runs + 1 })[m]? = _
    rw [List.getElem?_modify]
    split
    · rename_i same
      rw [← same, unpunched]
      rfl
    · simp
  refine ⟨hosts, counts_punched request outcome here.counts unpunched, _,
    fits.update (fun v apart same => apart (Option.some.inj same)) drive none
      (fun v apart => congrArg Slot.parked (others v apart)) (fun v _ queued => queued)
      (fun m ticket foreign there => ?_) (fun k there => ?_) (fun _ => nofun) fun m ticket there => ?_⟩
  · have other : n ≠ m := fun same => foreign (same ▸ mine)
    rw [changed, if_neg other]
    exact there
  · cases emptied.symm.trans there
  · rw [changed] at there
    split at there
    · rw [← Option.some.inj there]
      exact .inl rfl
    · rename_i other
      refine .inr (.inr ⟨fun holds => other ?_, there⟩)
      exact Option.some.inj (mine.symm.trans holds)

/-! ## Programs of clients -/

section
variable {dispatch : Motion σ (Booth κ ε)} {next : Result → Program (Booth κ ε)}

/-- A request keeps all tickets accounted for if its completion and what comes after it do. -/
theorem request_keeps {drive : UInt64} {request : Request} {done : Outcome → Program (Booth κ ε)}
    (clients : ∀ outcome, Client d (done outcome))
    (completes : ∀ outcome, Motion.Keeps (d.Accounted none) ((done outcome).exec dispatch))
    (rest : ∀ result, Motion.Keeps (d.Accounted none) ((next result).exec dispatch)) :
    Motion.Keeps (d.Accounted none) ((d.request drive request done next).exec dispatch) := by
  intro s here result t ended
  rw [exec_request] at ended
  cases admitted : d.admits drive s with
  | none =>
    rw [admitted] at ended
    obtain ⟨status, left, refused, agenda, slots, world, -⟩ :=
      exec_submit_refused (s := { s with world := s.world.issue none }) request
        (ticketed s.world.tickets.length done) next dispatch admitted
    rw [refused] at ended
    exact rest _ _ (here.refuse.of_same (congrArg Agenda.units agenda) slots world) _ _ ended
  | some u =>
    have drawn : d.admits drive { s with world := s.world.issue (some u) } = some u := admitted
    rw [admitted, exec_submit_admitted drawn] at ended
    have drive := mem_units_of_unit (of_admits admitted).1
    have told := Accounted.steady.tell s (summary (s.nameOf u) request) here
    cases backend : d.backend with
    | immediate sectorSize =>
      rw [backend, exec_submit_immediate, exec_counted] at ended
      split at ended
      · cases ended
      · rename_i completed
        exact rest _ _ (completes _ _ (told.at_once u sectorSize request _) _ _ completed) _ _ ended
    | deferred sectorSize latency =>
      have idle := parked_of_admits admitted (by rw [backend]; rfl)
      rw [backend, exec_submit_deferred] at ended
      split at ended
      · rename_i pending
        have holds : (s.slot u).parked.isSome := pending
        rw [idle] at holds
        cases holds
      · exact rest _ _ (told.defer drive idle sectorSize latency request clients) _ _ ended

theorem exec_resetDrives_cons (u : UnitId) (l : List UnitId) :
    (resetDrives (u :: l) next).exec dispatch s =
      if ((s.cancel u).slot u).parked.isSome then
        (resetDrives l next).exec dispatch ((s.cancel u).activate u 0).2
      else (resetDrives l next).exec dispatch (s.cancel u) := by
  show Program.exec dispatch
    ((if ((s.cancel u).view u).ioPending then _ else _ : Act (Booth κ ε) Result) next) _ = _
  by_cases pending : ((s.cancel u).slot u).parked.isSome
  · rw [if_pos pending, if_pos (show ((s.cancel u).view u).ioPending = true from pending)]
    rfl
  · rw [if_neg pending, if_neg (show ¬((s.cancel u).view u).ioPending = true from pending)]

theorem resetDrives_keeps (l : List UnitId)
    (rest : ∀ result, Motion.Keeps (d.Accounted none) ((next result).exec dispatch)) :
    Motion.Keeps (d.Accounted none) ((resetDrives l next).exec dispatch) := by
  induction l with
  | nil => exact rest _
  | cons u l ih =>
    intro s here result t ended
    rw [exec_resetDrives_cons] at ended
    have canceled := here.cancel u
    split at ended
    · exact ih _ (canceled.requeue (.activate u 0) trivial (Scheduler.mem_units_activate u 0 _)) _ _ ended
    · rename_i empty
      exact ih _ (canceled.of_empty (Option.not_isSome_iff_eq_none.1 empty)) _ _ ended

theorem Client.keeps {p : Program (Booth κ ε)} (client : Client d p)
    (inner : Motion.Keeps (d.Accounted none) dispatch) :
    Motion.Keeps (d.Accounted none) (p.exec dispatch) := by
  induction client with
  | done result =>
    intro s here result t ended
    simp only [Program.exec, Option.some.injEq, Prod.mk.injEq] at ended
    rwa [← ended.2]
  | call leaves _ ih => exact fun s here => ih _ _ (here.perform leaves)
  | look _ ih => exact fun s here => ih _ s here
  | change spares _ ih => exact fun s here => ih _ (here.change spares)
  | setAction action _ _ ih =>
    exact fun s here => ih _ (here.modifySlot _ (fun p there => Option.some.inj there ▸ action)
      (here.hosts.hooks _) (here.hosts.guests _) fun _ => rfl)
  | setHook spares _ ih =>
    exact fun s here => ih _ (here.modifySlot _ (here.hosts.actions _)
      (fun hook there => Option.some.inj there ▸ spares) (here.hosts.guests _) fun _ => rfl)
  | park guest deliver _ _ ih =>
    exact fun s here => ih _ (here.modifySlot _ (here.hosts.actions _) (here.hosts.hooks _)
      (fun _ k there => Option.some.inj there ▸ deliver) fun drive => absurd drive guest)
  | dispatch _ ih =>
    intro s here result t ended
    simp only [Program.exec] at ended
    cases dispatched : dispatch s with
    | none => simp [dispatched] at ended
    | some answer =>
      rw [dispatched] at ended
      exact ih _ _ (inner _ here _ _ dispatched) _ _ ended
  | request clients _ completes rest => exact request_keeps clients completes rest
  | reset _ rest => exact resetDrives_keeps d.units rest

/-- A unit that comes up keeps all tickets accounted for, whether it waits on, hands a transfer over or
acts. -/
theorem fire_accounted (inner : Motion.Keeps (d.Accounted none) dispatch)
    (here : d.Accounted (some u) s) {result : Result}
    (ended : Scheduler.fire dispatch u s = some (result, t)) : d.Accounted none t := by
  have told := fun m => Accounted.steady.tell s m here
  cases Scheduler.fired_of_fire ended with
  | waits =>
    refine Accounted.requeue ?_ (.activateAfter u (s.slot u).delay) trivial
      (Scheduler.mem_units_activateAfter u _ _)
    exact (told _).modifySlot _ (here.hosts.actions u) (here.hosts.hooks u) (here.hosts.guests u)
      fun _ => rfl
  | @handsOver k _ _ _ holds ran =>
    by_cases drive : u ∈ d.units
    · obtain ⟨request, n, done, clients, deliver, after⟩ := (told (.completing _)).complete drive holds
      rw [deliver, exec_counted] at ran
      exact (clients k.outcome).keeps inner _ (after k.outcome) _ _ ran
    · have empty := (told (.completing (s.slot u).endpoint.name)).modifySlot (u := u)
        (fun slot => { slot with parked := none }) (here.hosts.actions u) (here.hosts.hooks u)
        (fun _ _ => nofun) fun mine => absurd mine drive
      refine (here.hosts.guests u drive k holds k.outcome).keeps inner _ (empty.of_empty ?_) _ _ ran
      rw [Scheduler.slot_modifySlot]
      split
      · rfl
      · rename_i outside
        have beyond := Nat.not_lt.1 fun inside => outside ⟨rfl, inside⟩
        rw [Scheduler.slot_of_size_le beyond]
        rfl
  | rests _ idle => exact (told _).of_empty idle
  | @acts action _ t _ idle installed ran =>
    have taken := ((told (.firing (s.slot u).endpoint.name)).of_empty idle).modifySlot (u := u)
      (fun slot => { slot with action := none }) (fun _ => nofun) (here.hosts.hooks u)
      (here.hosts.guests u) fun _ => rfl
    have client := here.hosts.actions u action installed
    have done := client.keeps inner _ taken _ _ ran
    refine done.modifySlot _ (fun p there => ?_) (done.hosts.hooks u) (done.hosts.guests u) fun _ => rfl
    rcases Option.or_eq_some_iff.1 there with new | ⟨-, old⟩
    · exact done.hosts.actions u p new
    · rwa [← Option.some.inj old]

theorem drain_accounted (pops : Nat) :
    Motion.Keeps (d.Accounted none) (Scheduler.drain pops : Motion σ (Booth κ ε)) :=
  Scheduler.drain_keeps Accounted.steady
    (fun _ inner _ _ _ here popped _ _ ended => fire_accounted inner (here.popped popped) ended) pops

theorem processEvent_accounted (pops : Nat) :
    Motion.Keeps (d.Accounted none) (Scheduler.processEvent pops : Motion σ (Booth κ ε)) :=
  Scheduler.process_keeps Accounted.steady (fun _ => id) (fun s => Accounted.steady.stop s false)
    Accounted.steady.settle (drain_accounted pops)

theorem Client.run {p : Program (Booth κ ε)} (client : Client d p) (pops : Nat) :
    Motion.Keeps (d.Accounted none) (p.run pops : Motion σ (Booth κ ε)) :=
  client.keeps (processEvent_accounted pops)

end

end

end SectorDisk

end Peripheral
