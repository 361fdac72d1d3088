import Peripheral.Proofs.Devices
import Peripheral.Proofs.Stopping
import Peripheral.Proofs.Undisturbed
import Peripheral.Storage.MemoryImages

/-!
# A printer keeps its pace

The printer of a terminal displays a character when it fires, and schedules itself anew if there is another
one. Putting a character schedules it as well, but leaves the deadline of a printer that is in the queue.

* `Terminal.pending?`, `Terminal.pace` : what is still to be displayed, and the ticks for each character;
* `Terminal.printerLicense` : others put characters, and leave the printer alone apart from that;
* `Terminal.prints` : what a firing of the printer does; `Terminal.Displays` : **a firing in which a character
  goes from the terminal to the console**;
* `Terminal.Printed`, `Terminal.Course` : so many of the characters that were pending have been displayed, each
  in its tick (`bears_course`, `course_advances`, `Course.tick`, `Course.on_time`);
* `Terminal.Printing`, `Terminal.Tended` : runs that are driven by ticks, and what they start from
  (`Machine.built_tended`);
* `printer_keeps_pace` : **the `j`-th of the pending characters is displayed `j` times the pace after the
  first**.
-/

namespace Peripheral
open Scheduler

variable {σ κ ε : Type}

namespace Terminal

variable {t : Terminal}

/-! ## What others may do -/

def pending? (t : Terminal) (b : Board κ ε) : Option (List UInt8) :=
  (b.terminals[t.record]?).map TerminalRecord.output

def pace (t : Terminal) : Nat := t.outputTicks.toInt.toNat

/-- What is done with a terminal from outside: characters are put to it, and it is looked at and changed in
any way that leaves its output alone. -/
inductive Use (t : Terminal) : {α : Type} → Act (Board κ ε) α → Prop
  | put (byte : UInt8) : Use t (t.putChar byte)
  | update {α : Type} (f : Board κ ε → α × Board κ ε) :
    (∀ b, t.pending? (f b).2 = t.pending? b) → Use t (Act.update f)

/-- Others put characters, but neither spend ticks nor touch the printer and its output otherwise. -/
def printerLicense [Console κ] (t : Terminal) : License (Board κ ε) where
  staff u := if u = t.printer then some t.display else none
  calls := Call.Passive
  changes f := ∀ b, t.pending? (f b) = t.pending? b
  deeds := t.Use
  passive _ passive := passive

section
variable [Console κ]

theorem printerLicense_none {u : UnitId} :
    (t.printerLicense : License (Board κ ε)).staff u = none ↔ u ≠ t.printer := by
  simp [printerLicense]

theorem printerLicense_some {u : UnitId} {p : Program (Board κ ε)} :
    t.printerLicense.staff u = some p ↔ u = t.printer ∧ p = t.display := by
  simp [printerLicense, eq_comm]

theorem printerLicense_printer : t.printerLicense.staff t.printer = some (t.display : Program (Board κ ε)) :=
  if_pos rfl

theorem display_passive : (t.display : Program (Board κ ε)).Passive := by
  intro b
  dsimp only
  split
  · trivial
  · show Program.Passive (if _ then _ else _)
    split
    · trivial
    · exact ⟨trivial, fun _ => trivial⟩

theorem printerLicense_timeless : (t.printerLicense : License (Board κ ε)).Timeless where
  staff u p there := by
    obtain ⟨-, rfl⟩ := printerLicense_some.1 there
    exact display_passive
  calls _ := id
  deeds m next use passive := by
    cases use with
    | put byte => exact ⟨trivial, fun _ => passive ()⟩
    | update f => exact fun b => passive (f b).1

end

/-! ## Boards -/

theorem pending?_modify (f : TerminalRecord → TerminalRecord) (b : Board κ ε) :
    t.pending? (t.modify f b) = (b.terminals[t.record]?).map fun r => (f r).output := by
  unfold pending? modify Board.modifyTerminal
  rw [Array.getElem?_modify, if_pos rfl, Option.map_map]
  rfl

theorem output_of_pending {b : Board κ ε} {output : List UInt8} (pending : t.pending? b = some output) :
    (b.terminal t.record).output = output := by
  obtain ⟨record, there, rfl⟩ := Option.map_eq_some_iff.1 pending
  rw [Board.terminal, Array.getD_eq_getD_getElem?, there]
  rfl

theorem pending?_output (f : List UInt8 → List UInt8) {b : Board κ ε} {output : List UInt8}
    (pending : t.pending? b = some output) :
    t.pending? (t.modify (fun r => { r with output := f r.output }) b) = some (f output) := by
  obtain ⟨record, there, rfl⟩ := Option.map_eq_some_iff.1 pending
  rw [pending?_modify, there]
  rfl

/-! ## The printer fires -/

section
variable [MediaStore σ] [Console κ] {dispatch : Motion σ (Board κ ε)} {result : Result}
  {s s' : Scheduler σ (Board κ ε)}

/-- The board after the first of the pending characters was displayed. -/
def displayed (byte : UInt8) (rest : List UInt8) (t : Terminal) (b : Board κ ε) : Board κ ε :=
  { t.modify (fun r => { r with output := rest }) b with console := Console.write byte b.console }

/-- The printer, out of the queue, displays the first character and schedules itself if there is another. -/
theorem exec_display (dispatch : Motion σ (Board κ ε)) (idle : t.printer ∉ s.agenda.units) :
    ∃ last, t.display.exec dispatch s = some (.ok (), last) ∧
      match (s.world.terminal t.record).output with
      | [] => last.world = s.world ∧ last.agenda = s.agenda
      | byte :: rest => last.world = t.displayed byte rest s.world ∧
        last.agenda = if rest.isEmpty then s.agenda else s.agenda.insert t.printer t.outputTicks := by
  simp only [display, Program.exec]
  rcases (s.world.terminal t.record).output with - | ⟨byte, - | ⟨next, rest⟩⟩
  · exact ⟨s, rfl, rfl, rfl⟩
  · exact ⟨_, rfl, rfl, rfl⟩
  · exact ⟨_, rfl, world_activate _ _ _,
      (activate_idle (s := { s with world := t.displayed byte (next :: rest) s.world }) _ idle).2⟩

/-- The printer displays a character when it fires, and comes back at its pace if there is another one. -/
theorem prints (here : s.Undisturbed t.printerLicense) (settled : s.agenda.Settled)
    (idle : t.printer ∉ s.agenda.units) (fired : fire dispatch t.printer s = some (result, s')) :
    s'.Undisturbed t.printerLicense ∧ s'.agenda.Settled ∧
      ∀ byte rest, t.pending? s.world = some (byte :: rest) →
        result = .ok () ∧ s'.world = t.displayed byte rest s.world ∧
        (rest ≠ [] → (t.printer, (t.pace : Int)) ∈ s'.agenda.remaining) := by
  obtain ⟨b, last, ran, agenda, world, agenda', world', slots, size⟩ :=
    here.toStaffed.fire_staff printerLicense_printer (fun b result last => slots_display) fired
  obtain ⟨last', ran', after⟩ := t.exec_display dispatch (s := b) (by rwa [agenda])
  rw [ran] at ran'
  cases ran'
  rw [world, agenda, ← world', ← agenda'] at after
  have still (same : s'.agenda = s.agenda) : s'.Undisturbed t.printerLicense ∧ s'.agenda.Settled :=
    ⟨here.of_same slots size same, by rwa [same]⟩
  obtain ⟨booked, folded⟩ := here.activate t.printer t.outputTicks
  have inserted := (activate_idle t.outputTicks idle).2
  have back (same : s'.agenda = s.agenda.insert t.printer t.outputTicks) :
      s'.Undisturbed t.printerLicense ∧ s'.agenda.Settled := by
    rw [← inserted] at same
    exact ⟨booked.of_same (fun v => (slots v).trans (slot_activate _ _ _ _).symm)
      (size.trans (size_activate _ _ _).symm) same, by rw [same]; exact folded settled⟩
  cases output : (s.world.terminal t.record).output with
  | nil =>
    rw [output] at after
    refine ⟨(still after.2).1, (still after.2).2, fun byte rest pending => ?_⟩
    rw [output_of_pending pending] at output
    cases output
  | cons byte rest =>
    rw [output] at after
    obtain ⟨shows, queue⟩ := after
    have both : s'.Undisturbed t.printerLicense ∧ s'.agenda.Settled := by
      split at queue
      · exact still queue
      · exact back queue
    refine ⟨both.1, both.2, fun byte' rest' pending => ?_⟩
    rw [output_of_pending pending] at output
    cases output
    refine ⟨rfl, shows, fun more => ?_⟩
    rw [if_neg (by simpa using more), ← inserted] at queue
    rw [queue]
    have due := here.activate_due idle t.outputTicks
    rwa [← Int.toNat_eq_max] at due

/-- A firing of the printer in which a character goes from the terminal to the console. -/
def Displays (t : Terminal) (byte : UInt8) (f : Firing σ (Board κ ε)) : Prop :=
  f.unit = t.printer ∧ ∃ rest s', t.pending? f.scheduler.world = some (byte :: rest) ∧
    f.fire = some (.ok (), s') ∧ s'.world.console = Console.write byte f.scheduler.world.console ∧
    t.pending? s'.world = some rest

/-- The firings of the printer in a tick: those in its dispatch, if there is one. -/
def printings (pops : Nat) (t : Terminal) (s : Scheduler σ (Board κ ε)) : List (Firing σ (Board κ ε)) :=
  if s.agenda.interval ≤ 0 then (s.round pops).filter (·.unit = t.printer) else []

end

/-! ## The course of printing -/

section
variable [MediaStore σ] [Console κ] {pending : List UInt8} {due now count : Nat} {amid : Bool}
  {log : List (Nat × Firing σ (Board κ ε))} {s s' : Scheduler σ (Board κ ε)}

/-- So many of the characters that were pending have been displayed, each when it was due, and the printer is
in the queue for the next one. All firings of the printer are in the log, with the ticks spent before them. The
characters that are due now may have been displayed inside of a dispatch only. -/
structure Printed (t : Terminal) (pending : List UInt8) (due now : Nat) (amid : Bool)
    (log : List (Nat × Firing σ (Board κ ε))) (s : Scheduler σ (Board κ ε)) (count : Nat) : Prop where
  past : ∀ j < count, due + j * t.pace < now + amid.toNat
  shown : ∀ j byte, j < count → pending[j]? = some byte →
    ∃ f, log[j]? = some (due + j * t.pace, f) ∧ t.Displays byte f
  logged : count < pending.length → log.length = count
  left : count < pending.length → ∃ more, t.pending? s.world = some (pending.drop count ++ more)
  waits : count < pending.length →
    (t.printer, ((due + count * t.pace : Nat) : Int) - now) ∈ s.agenda.remaining

/-- The printer keeps its pace, and inside of a dispatch no ticks are left to be folded in. -/
structure Course (t : Terminal) (pending : List UInt8) (due now : Nat) (amid : Bool)
    (log : List (Nat × Firing σ (Board κ ε))) (s : Scheduler σ (Board κ ε)) : Prop extends
    s.Undisturbed t.printerLicense where
  settled : amid → s.agenda.Settled
  printed : ∃ count, t.Printed pending due now amid log s count

/-- What neither takes the printer out of the queue nor takes anything from its output. -/
theorem Course.move (course : t.Course pending due now amid log s)
    (undisturbed : s'.Undisturbed t.printerLicense) (settled : s.agenda.Settled → s'.agenda.Settled)
    (waits : ∀ r, (t.printer, r) ∈ s.agenda.remaining → (t.printer, r) ∈ s'.agenda.remaining)
    (output : ∀ output, t.pending? s.world = some output →
      ∃ more, t.pending? s'.world = some (output ++ more)) :
    t.Course pending due now amid log s' := by
  obtain ⟨count, printed⟩ := course.printed
  refine ⟨undisturbed, fun here => settled (course.settled here), count, printed.past, printed.shown,
    printed.logged, fun short => ?_, fun short => waits _ (printed.waits short)⟩
  obtain ⟨more, left⟩ := printed.left short
  obtain ⟨more', left'⟩ := output _ left
  exact ⟨more ++ more', by rw [left', List.append_assoc]⟩

theorem Course.still (course : t.Course pending due now amid log s)
    (undisturbed : s'.Undisturbed t.printerLicense) (settled : s.agenda.Settled → s'.agenda.Settled)
    (waits : ∀ r, (t.printer, r) ∈ s.agenda.remaining → (t.printer, r) ∈ s'.agenda.remaining)
    (output : t.pending? s'.world = t.pending? s.world) : t.Course pending due now amid log s' :=
  course.move undisturbed settled waits fun _ there => ⟨[], by rw [output, there, List.append_nil]⟩

theorem Course.of_same (course : t.Course pending due now amid log s) (slots : ∀ u, s'.slot u = s.slot u)
    (size : s'.slots.size = s.slots.size) (agenda : s'.agenda = s.agenda)
    (output : t.pending? s'.world = t.pending? s.world) : t.Course pending due now amid log s' :=
  course.still (course.toUndisturbed.of_same slots size agenda) (by rw [agenda]; exact id)
    (fun r => by rw [agenda]; exact id) output

theorem bears_course : (t.printerLicense : License (Board κ ε)).Bears
    (t.Course pending due now amid log : Scheduler σ (Board κ ε) → Prop) where
  staffed _ course := course.toStaffed
  perform s c course passive spares :=
    course.still (course.toUndisturbed.perform passive spares) (course.keeps_time passive).2.2
      (fun r => course.keeps_deadline passive (spares _ _ printerLicense_printer))
      (course.toStaffed.world_perform (fun _ => id) c)
  change s f course keeps := course.of_same (fun _ => rfl) rfl rfl (keeps s.world)
  modifySlot s u f course other carries hooks :=
    course.still (course.toUndisturbed.modifySlot other f carries hooks) id (fun _ => id) rfl
  deed s α m course use := by
    cases use with
    | put byte =>
      let next : Scheduler σ (Board κ ε) :=
        { s with world := t.modify (fun r => { r with output := r.output ++ [byte] }) s.world }
      have same : next.Undisturbed t.printerLicense := course.toUndisturbed.of_same (fun _ => rfl) rfl rfl
      obtain ⟨booked, settled⟩ := same.activate t.printer t.outputTicks
      refine ⟨(), (next.activate t.printer t.outputTicks).2, ?_, fun dispatch next => rfl⟩
      refine course.move booked settled (fun r there => ?_) fun output there => ⟨[byte], ?_⟩
      · have active : t.printer ∈ next.agenda.units := mem_units_of_remaining there
        rw [activate_pending active]
        exact there
      · rw [world_activate]
        exact pending?_output (· ++ [byte]) there
    | update f keeps =>
      exact ⟨(f s.world).1, { s with world := (f s.world).2 },
        course.of_same (fun _ => rfl) rfl rfl (keeps s.world), fun _ _ => rfl⟩

def logOf (t : Terminal) (now : Nat) (fired : List (Firing σ (Board κ ε))) :
    List (Nat × Firing σ (Board κ ε)) :=
  (fired.filter (·.unit = t.printer)).map fun f => (now, f)

/-- The printer, just taken off the queue, displays the next of the characters that were pending. -/
theorem Printed.next (printed : t.Printed pending due now true log s count) {f : Firing σ (Board κ ε)}
    {result : Result} (printer : f.unit = t.printer)
    (output : f.scheduler.world = s.world) (on_time : count < pending.length → due + count * t.pace = now)
    (fired : f.fire = some (result, s'))
    (prints : ∀ byte rest, t.pending? s.world = some (byte :: rest) →
      result = .ok () ∧ s'.world = t.displayed byte rest s.world ∧
      (rest ≠ [] → (t.printer, (t.pace : Int)) ∈ s'.agenda.remaining)) :
    ∃ count, t.Printed pending due now true (log ++ [(now, f)]) s' count := by
  have kept : ∀ j byte, j < count → pending[j]? = some byte →
      ∃ f', (log ++ [(now, f)])[j]? = some (due + j * t.pace, f') ∧ t.Displays byte f' := by
    intro j byte before there
    obtain ⟨f', logged, displays⟩ := printed.shown j byte before there
    refine ⟨f', ?_, displays⟩
    rw [List.getElem?_append_left (List.getElem?_eq_some_iff.1 logged).1]
    exact logged
  by_cases short : count < pending.length
  · obtain ⟨more, left⟩ := printed.left short
    rw [List.drop_eq_getElem_cons short, List.cons_append] at left
    obtain ⟨rfl, shows, again⟩ := prints _ _ left
    have now_due := on_time short
    have rest : t.pending? s'.world = some (pending.drop (count + 1) ++ more) := by
      rw [shows]
      exact pending?_output (fun _ => _) left
    refine ⟨count + 1, fun j before => ?_, fun j byte before there => ?_, fun _ => ?_, fun _ => ⟨more, rest⟩,
      fun next => ?_⟩
    · have most : j * t.pace ≤ count * t.pace := Nat.mul_le_mul_right _ (Nat.le_of_lt_succ before)
      show due + j * t.pace < now + 1
      omega
    · rcases Nat.lt_succ_iff_lt_or_eq.1 before with early | rfl
      · exact kept j byte early there
      · rw [List.getElem?_eq_getElem short] at there
        cases there
        refine ⟨f, ?_, printer, _, s', by rw [output]; exact left, fired, by rw [shows, output]; rfl, rest⟩
        rw [now_due, ← printed.logged short, List.getElem?_concat_length]
    · rw [List.length_append, printed.logged short, List.length_singleton]
    · have following : pending.drop (count + 1) ++ more ≠ [] := by
        rw [List.drop_eq_getElem_cons next]
        exact List.cons_ne_nil _ _
      have pace : ((due + (count + 1) * t.pace : Nat) : Int) - now = t.pace := by
        rw [Nat.add_mul, Nat.one_mul]
        omega
      rw [pace]
      exact again following
  · exact ⟨count, printed.past, kept, fun h => absurd h short, fun h => absurd h short,
      fun h => absurd h short⟩

theorem course_advances : Scheduler.Advances fun fired =>
    (t.Course pending due now true (log ++ t.logOf now fired) : Scheduler σ (Board κ ε) → Prop) := by
  intro fired s pops u agenda result s' course soon popped ended
  obtain ⟨undisturbed, settled, idle, others, head⟩ :=
    course.toUndisturbed.pop (course.settled rfl) soon popped
  let f : Firing σ (Board κ ε) := ⟨pops, u, { s with agenda }⟩
  have more : t.logOf now (fired ++ [f]) =
      t.logOf now fired ++ if u = t.printer then [(now, f)] else [] := by
    rw [logOf, List.filter_append, List.map_append]
    by_cases printer : u = t.printer <;> simp [printer, logOf, f]
  rw [more, ← List.append_assoc]
  by_cases printer : u = t.printer
  · subst printer
    rw [if_pos rfl]
    obtain ⟨count, printed⟩ := course.printed
    obtain ⟨after, folded, shows⟩ := prints undisturbed settled idle ended
    refine ⟨after, fun _ => folded, printed.next (f := f) rfl rfl (fun short => ?_) ended shows⟩
    have zero := head _ (printed.waits short)
    omega
  · rw [if_neg printer, List.append_nil]
    refine bears_course.fire_others (printerLicense_none.2 printer) _ { s with agenda } ?_ _ _ ended
    exact course.still undisturbed (fun _ => settled) (fun r => others _ r (Ne.symm printer)) rfl

theorem steady_course : Steady (t.Course pending due now true log : Scheduler σ (Board κ ε) → Prop) where
  tell _ _ course := course.of_same (fun _ => rfl) rfl rfl rfl
  stop _ _ course := course.of_same (fun _ => rfl) rfl rfl rfl
  dispatching _ _ course := course.of_same (fun _ => rfl) rfl rfl rfl
  settle s course :=
    course.still course.toUndisturbed.settle (fun _ => settled_settle _)
      (fun r there => by rw [remaining_settle]; exact there) rfl
  rearm s course empty :=
    course.still (course.toUndisturbed.rearm empty) (fun _ => settled_rearm _)
      (fun r there => absurd empty (queue_ne_nil_of_mem there)) rfl

theorem Course.enter (course : t.Course pending due now false log s) :
    t.Course pending due now true log { s with agenda := s.agenda.settle } := by
  obtain ⟨count, printed⟩ := course.printed
  refine ⟨course.toUndisturbed.settle, fun _ => settled_settle _, count,
    fun j before => Nat.lt_succ_of_lt (printed.past j before), printed.shown, printed.logged, printed.left,
    fun short => ?_⟩
  rw [remaining_settle]
  exact printed.waits short

theorem Course.consume (course : t.Course pending due now amid log s) (ahead : s.agenda.Timely 1) :
    t.Course pending due (now + 1) false log (s.consume 1) := by
  obtain ⟨count, printed⟩ := course.printed
  refine ⟨course.toUndisturbed.consume ahead, nofun, count, fun j before => ?_, printed.shown, printed.logged,
    printed.left, fun short => ?_⟩
  · have last := printed.past j before
    have most : amid.toNat ≤ 1 := Bool.toNat_le amid
    show _ < now + 1 + 0
    omega
  · have nearer := nears_deadline ahead (printed.waits short)
    have same : ((due + count * t.pace : Nat) : Int) - (now + 1 : Nat) =
        ((due + count * t.pace : Nat) : Int) - now - 1 := by omega
    rwa [same]

theorem Course.dispatch (course : t.Course pending due now false log s) {pops : Nat} {result : Result}
    (clear : s.stop = false) (soon : s.agenda.interval ≤ 0)
    (ended : s.processEvent pops = some (result, s')) :
    t.Course pending due now true (log ++ t.logOf now (s.round pops)) s' := by
  refine processEvent_round (P := fun fired => t.Course pending due now true (log ++ t.logOf now fired))
    (fun _ => steady_course) course_advances ?_ (Int32.le_iff_toInt_le.1 soon) clear ended
  rw [logOf, List.filter_nil, List.map_nil, List.append_nil]
  exact course.enter

theorem Course.tick (course : t.Course pending due now false log s) {pops : Nat}
    (ticked : s.tick pops = some (.ok (), s')) :
    t.Course pending due (now + 1) false (log ++ (t.printings pops s).map fun f => (now, f)) s' := by
  unfold Scheduler.tick at ticked
  unfold printings
  split at ticked
  · rename_i soon
    rw [if_pos soon]
    split at ticked
    · cases ticked
    · cases ticked
    · rename_i dispatched
      cases ticked
      have clear : s.stop = false := by
        by_contra asked
        rw [(processEvent_of_stop (Bool.not_eq_false _ ▸ asked) pops).1] at dispatched
        cases dispatched
      exact (course.dispatch clear soon dispatched).consume
        (course.toUndisturbed.ahead printerLicense_timeless (Int32.le_iff_toInt_le.1 soon) dispatched)
  · rename_i later
    cases ticked
    rw [if_neg later, List.map_nil, List.append_nil]
    rw [Int32.le_iff_toInt_le, Int.not_le] at later
    exact course.consume { course.timely with soonest := fun _ => later }

theorem Course.of_undisturbed (here : s.Undisturbed t.printerLicense) :
    t.Course [] due now false log s :=
  ⟨here, nofun, 0, fun j before => absurd before (Nat.not_lt_zero j),
    fun j _ before => absurd before (Nat.not_lt_zero j), nofun, nofun, nofun⟩

theorem Course.start (here : s.Undisturbed t.printerLicense) (output : t.pending? s.world = some pending)
    (queued : (t.printer, (due : Int)) ∈ s.agenda.remaining) : t.Course pending due 0 false [] s := by
  refine ⟨here, nofun, 0, fun j before => absurd before (Nat.not_lt_zero j),
    fun j _ before => absurd before (Nat.not_lt_zero j), fun _ => rfl, fun _ => ⟨[], ?_⟩, fun _ => ?_⟩
  · rw [List.drop_zero, List.append_nil]
    exact output
  · have now : ((due + 0 * t.pace : Nat) : Int) - (0 : Nat) = due := by
      rw [Nat.zero_mul]
      omega
    rw [now]
    exact queued

/-- Between ticks all characters that were due have been displayed, and no other ones. -/
theorem Course.on_time (course : t.Course pending due now false log s) {j : Nat} {byte : UInt8}
    (there : pending[j]? = some byte) :
    if due + j * t.pace < now then ∃ f, log[j]? = some (due + j * t.pace, f) ∧ t.Displays byte f
    else log.length ≤ j := by
  obtain ⟨count, printed⟩ := course.printed
  rcases Nat.lt_or_ge j count with before | after
  · have past : due + j * t.pace < now := printed.past j before
    rw [if_pos past]
    exact printed.shown j byte before there
  · have short : count < pending.length := Nat.lt_of_le_of_lt after (List.getElem?_eq_some_iff.1 there).1
    have ahead := course.toUndisturbed.least (printed.waits short)
    have later : count * t.pace ≤ j * t.pace := Nat.mul_le_mul_right _ after
    rw [if_neg (by omega), printed.logged short]
    exact after

/-! ## Runs -/

/-- Runs from a scheduler on that are driven by ticks: between ticks programs put characters to the terminal and
do what else others may do. The firings of the printer are logged with the number of ticks before them. -/
inductive Printing (pops : Nat) (t : Terminal) (s : Scheduler σ (Board κ ε)) :
    Nat → List (Nat × Firing σ (Board κ ε)) → Scheduler σ (Board κ ε) → Prop
  | start : Printing pops t s 0 [] s
  | call {ticks : Nat} {log : List (Nat × Firing σ (Board κ ε))} {a b : Scheduler σ (Board κ ε)}
      {p : Program (Board κ ε)} {result : Result} :
    Printing pops t s ticks log a → p.Within t.printerLicense → p.run pops a = some (result, b) →
      Printing pops t s ticks log b
  /-- A tick is refused if a stop was asked for since the last one. -/
  | refused {ticks : Nat} {log : List (Nat × Firing σ (Board κ ε))} {a b : Scheduler σ (Board κ ε)} :
    Printing pops t s ticks log a → a.stop = true → a.tick pops = some (.error .stopped, b) →
      Printing pops t s ticks log b
  | tick {ticks : Nat} {log : List (Nat × Firing σ (Board κ ε))} {a b : Scheduler σ (Board κ ε)} :
    Printing pops t s ticks log a → a.tick pops = some (.ok (), b) →
      Printing pops t s (ticks + 1) (log ++ (t.printings pops a).map fun f => (ticks, f)) b

theorem undisturbed_of_failed (here : s.Undisturbed t.printerLicense) {pops : Nat} {status : Status}
    (failed : s.tick pops = some (.error status, s')) : s'.Undisturbed t.printerLicense ∧
      (s.stop = true → s' = { s with stop := false }) := by
  unfold Scheduler.tick at failed
  split at failed
  · rename_i soon
    split at failed
    · cases failed
    · rename_i dispatched
      cases failed
      by_cases asked : s.stop = true
      · rw [(processEvent_of_stop asked pops).1] at dispatched
        cases dispatched
        exact ⟨here.of_same (fun _ => rfl) rfl rfl, fun _ => rfl⟩
      · have course : t.Course [] 0 0 false [] s := .of_undisturbed here
        exact ⟨(course.dispatch (Bool.not_eq_true _ ▸ asked) soon dispatched).toUndisturbed,
          fun again => absurd again asked⟩
    · cases failed
  · cases failed

theorem Printing.course {pops ticks : Nat} (printing : Printing pops t s ticks log s')
    (course : t.Course pending due 0 false [] s) : t.Course pending due ticks false log s' := by
  induction printing with
  | start => exact course
  | call _ within ran ih => exact within.keeps bears_course _ _ ih _ _ ran
  | refused _ asked failed ih =>
    rw [(undisturbed_of_failed ih.toUndisturbed failed).2 asked]
    exact ih.of_same (fun _ => rfl) rfl rfl rfl
  | tick _ ticked ih => exact ih.tick ticked

theorem Printing.split {pops ticks i : Nat} (printing : Printing pops t s ticks log s') (before : i < ticks) :
    ∃ a early late, Printing pops t s i early a ∧
      log = early ++ (t.printings pops a).map (fun f => (i, f)) ++ late ∧ ∀ e ∈ late, i < e.1 := by
  induction printing with
  | start => exact absurd before (Nat.not_lt_zero i)
  | call _ _ _ ih => exact ih before
  | refused _ _ _ ih => exact ih before
  | @tick ticks log a b run ticked ih =>
    rcases Nat.lt_succ_iff_lt_or_eq.1 before with earlier | rfl
    · obtain ⟨c, early, late, part, whole, later⟩ := ih earlier
      refine ⟨c, early, late ++ (t.printings pops a).map (fun f => (ticks, f)), part, ?_, fun e there => ?_⟩
      · rw [whole, List.append_assoc]
      · rcases List.mem_append.1 there with old | new
        · exact later e old
        · obtain ⟨f, -, rfl⟩ := List.mem_map.1 new
          exact earlier
    · exact ⟨a, log, [], run, (List.append_nil _).symm, nofun⟩

/-! ## Schedulers with a terminal -/

/-- Schedulers that come up in simulations that are driven by ticks. The terminal may be reset, its printer
scheduled and cancelled, and ticks may fail. -/
inductive Tended (t : Terminal) : Scheduler σ (Board κ ε) → Prop
  | fresh {s : Scheduler σ (Board κ ε)} :
    s.Staffed t.printerLicense → s.agenda.queue = [] → Tended t s
  | call {s s' : Scheduler σ (Board κ ε)} {p : Program (Board κ ε)} {pops : Nat} {result : Result} :
    Tended t s → p.Within t.printerLicense → p.run pops s = some (result, s') → Tended t s'
  | tick {s s' : Scheduler σ (Board κ ε)} {pops : Nat} {result : Result} :
    Tended t s → s.tick pops = some (result, s') → Tended t s'
  | reset {s s' : Scheduler σ (Board κ ε)} {pops : Nat} {result : Result} :
    Tended t s → (t.reset .done).run pops s = some (result, s') → Tended t s'
  | activate {s : Scheduler σ (Board κ ε)} (ticks : Int32) :
    Tended t s → Tended t (s.activate t.printer ticks).2
  | cancel {s : Scheduler σ (Board κ ε)} : Tended t s → Tended t (s.cancel t.printer)

theorem Tended.undisturbed (tended : t.Tended s) : s.Undisturbed t.printerLicense := by
  have course {s : Scheduler σ (Board κ ε)} (here : s.Undisturbed t.printerLicense) :
      t.Course [] 0 0 false [] s := .of_undisturbed here
  induction tended with
  | fresh staffed empty =>
    refine ⟨staffed, ?_, timely_of_empty empty⟩
    rw [Agenda.units, empty]
    exact List.nodup_nil
  | call _ within ran ih => exact (within.keeps bears_course _ _ (course ih) _ _ ran).toUndisturbed
  | @tick s s' pops result _ ticked ih =>
    cases result with
    | ok => exact ((course ih).tick ticked).toUndisturbed
    | error status => exact (undisturbed_of_failed ih ticked).1
  | @reset s s' _ _ _ ended ih =>
    let cleared := (s.cancel t.keyboard).cancel t.printer
    have same : ({ cleared with world := t.modify (fun _ => {}) cleared.world }.activate t.keyboard
        t.pollTicks).2 = s' := congrArg Prod.snd (Option.some.inj ended)
    have forgets :
        Undisturbed t.printerLicense { cleared with world := t.modify (fun _ => {}) cleared.world } :=
      ((ih.cancel t.keyboard).cancel t.printer).of_same (fun _ => rfl) rfl rfl
    rw [← same]
    exact (forgets.activate t.keyboard t.pollTicks).1
  | activate ticks _ ih => exact (ih.activate t.printer ticks).1
  | cancel _ ih => exact ih.cancel t.printer

theorem within_putChars (bytes : List UInt8) {next : Unit → Program (Board κ ε)}
    (rest : (next ()).Within t.printerLicense) : (t.putChars bytes next).Within t.printerLicense := by
  induction bytes with
  | nil => exact rest
  | cons byte bytes ih =>
    show Program.Within t.printerLicense (t.putChar byte fun _ => t.putChars bytes next)
    exact .deed (Use.put byte : t.printerLicense.deeds (t.putChar byte)) fun _ => ih

theorem poll_keeps_printer (apart : t.keyboard ≠ t.printer) :
    (t.poll : Program (Board κ ε)).Within t.printerLicense := by
  refine .activate (printerLicense_none.2 apart) fun _ => .look fun b => ?_
  dsimp only
  refine .change (fun b' => pending?_modify _ b') ?_
  split
  · exact .tell _ (.done _)
  · exact .done _

end

end Terminal

/-! ## Machines of descriptions -/

section
variable [MediaStore σ] [Console κ] {d : Description} {pops : Nat} {m : Machine σ (Board κ ε)}

omit [MediaStore σ] in
theorem Peripherals.keep_from_printer (d : Description) :
    (plan d).clock.Licensed ((plan d).terminal.printerLicense : License (Board κ ε)) ∧
      (plan d).disk.Licensed ((plan d).terminal.printerLicense : License (Board κ ε)) := by
  refine ⟨⟨Terminal.printerLicense_none.2 ?_, fun _ _ => rfl⟩,
    ⟨fun u drive => Terminal.printerLicense_none.2 ?_, fun _ _ => rfl⟩⟩
  · exact Nat.ne_of_lt (Nat.succ_pos _)
  · have bound : u < 1 + d.disk.drives.toNat :=
      (List.mem_range'_1.1 (show u ∈ List.range' 1 d.disk.drives.toNat from drive)).2
    exact Nat.ne_of_lt (Nat.lt_succ_of_lt bound)

theorem Machine.built_tended {media : σ} {console : κ} {extra : ε} {journal : Journal} {p : Peripherals}
    (built : build pops d media console extra journal = some (.ok p, m)) : p.terminal.Tended m.scheduler := by
  obtain ⟨-, rfl, bare, ended, equipped⟩ := build_cases built
  have assembled := assembled_of_assemble ended
  obtain ⟨clock, disk⟩ := Peripherals.keep_from_printer (κ := κ) (ε := ε) d
  have apart : (Peripherals.plan d).terminal.keyboard ≠ (Peripherals.plan d).terminal.printer :=
    Nat.ne_of_lt (Nat.lt_succ_self _)
  have staffed : bare.scheduler.Staffed (Peripherals.plan d).terminal.printerLicense := by
    obtain ⟨polls, displays⟩ := Peripherals.actionOf_terminal (κ := κ) (ε := ε) d
    refine assembled.staffed (fun u p there => ?_) fun u p other there => ?_
    · obtain ⟨rfl, rfl⟩ := Terminal.printerLicense_some.1 there
      exact ⟨by show 1 + d.disk.drives.toNat + 1 < _; omega, displays⟩
    · rw [Peripherals.actionOf] at there
      split at there
      · exact Option.some.inj there ▸ clock.action_within
      · split at there
        · exact Option.some.inj there ▸ Terminal.poll_keeps_printer apart
        · rename_i keyboard
          have printer : u ≠ 2 + d.disk.drives.toNat := by
            rintro rfl
            refine Terminal.printerLicense_none.1 other ?_
            show _ = 1 + d.disk.drives.toNat + 1
            omega
          rw [if_neg printer] at there
          cases there
  have custody :
      Scheduler.Custody ((Peripherals.plan d).terminal.Tended : Scheduler σ (Board κ ε) → Prop) := by
    intro s c custodial tended
    have quiet : c.Passive ∧ ∀ u, c.Spares u := by
      cases c with
      | attach | detach | tell => exact ⟨trivial, fun _ => trivial⟩
      | _ => exact custodial.elim
    have ran : (Program.call c fun _ => .done (.ok ())).run 0 s = some (.ok (), (s.perform c).2) := rfl
    exact tended.call (.call quiet.1 (fun u _ _ => quiet.2 u) fun _ => .done (.ok ())) ran
  refine (equip_keeps custody (fun device there s tended _ _ ran => ?_)
    (fun device there u s tended _ _ ran => ?_) (.fresh staffed ?_) equipped).1
  · rw [assembled.devices] at there
    simp only [List.mem_cons, List.not_mem_nil, or_false] at there
    rcases there with rfl | rfl | rfl
    · exact tended.call clock.reset_within ran
    · exact tended.call disk.reset_within ran
    · exact tended.reset ran
  · rw [assembled.devices] at there
    exact tended.call (Peripherals.boots_within disk device there u) ran
  · rw [assembled.agenda]
    rfl

end

/-- In a run that is driven by ticks, however programs put characters to a terminal meanwhile: if the printer is
due in some ticks, the `j`-th of the pending characters, counted from 0, is displayed after as many ticks and
`j` times the pace of the terminal, and not before, by the `j`-th firing of the printer. At a pace of 0, the
dispatch of a single tick displays all that was pending. -/
theorem printer_keeps_pace [MediaStore σ] [Console κ] {t : Terminal} {s s' : Scheduler σ (Board κ ε)}
    {pending : List UInt8} {due ticks pops : Nat} {log : List (Nat × Firing σ (Board κ ε))}
    (tended : t.Tended s) (output : t.pending? s.world = some pending)
    (queued : (t.printer, (due : Int)) ∈ s.agenda.remaining) (printing : t.Printing pops s ticks log s') :
    (∀ (j : Nat) byte, pending[j]? = some byte →
      if due + j * t.pace < ticks then ∃ f, log[j]? = some (due + j * t.pace, f) ∧ t.Displays byte f
      else log.length ≤ j) ∧
    (t.pace = 0 → due < ticks → ∃ a early late, t.Printing pops s due early a ∧
      log = early ++ (t.printings pops a).map (fun f => (due, f)) ++ late ∧
      ∀ (j : Nat) byte, pending[j]? = some byte →
        ∃ f, (t.printings pops a)[j]? = some f ∧ t.Displays byte f) := by
  have start : t.Course pending due 0 false [] s := .start tended.undisturbed output queued
  have on_time {n : Nat} {log : List (Nat × Firing σ (Board κ ε))} {a : Scheduler σ (Board κ ε)}
      (part : t.Printing pops s n log a) {j : Nat} {byte : UInt8} (there : pending[j]? = some byte) :=
    (part.course start).on_time there
  refine ⟨fun j byte there => on_time printing there, fun at_once enough => ?_⟩
  obtain ⟨a, early, late, part, whole, later⟩ := printing.split enough
  refine ⟨a, early, late, part, whole, fun j byte there => ?_⟩
  have short : j < pending.length := (List.getElem?_eq_some_iff.1 there).1
  have none := on_time part (List.getElem?_eq_getElem (Nat.zero_lt_of_lt short))
  rw [if_neg (by omega), Nat.le_zero, List.length_eq_zero_iff] at none
  have logged := on_time printing there
  rw [at_once, Nat.mul_zero, Nat.add_zero, if_pos enough, whole, none, List.nil_append] at logged
  obtain ⟨f, logged, displays⟩ := logged
  refine ⟨f, ?_, displays⟩
  rcases Nat.lt_or_ge j ((t.printings pops a).map fun f => (due, f)).length with here | after
  · rw [List.getElem?_append_left here, List.getElem?_map] at logged
    obtain ⟨f', there', same⟩ := Option.map_eq_some_iff.1 logged
    cases same
    exact there'
  · rw [List.getElem?_append_right after] at logged
    exact absurd (later _ (List.mem_of_getElem? logged)) (Nat.lt_irrefl due)

/-- Two characters that are put to a terminal are displayed a tick apart, although a third one comes between. -/
theorem characters_come_tick_by_tick :
    ∃ (p : Peripherals) (s s' : Scheduler MemoryImages (Board Headless Unit))
      (log : List (Nat × Firing MemoryImages (Board Headless Unit))),
      p.terminal.Tended s ∧ p.terminal.pending? s.world = some [0x61, 0x62] ∧
      (p.terminal.printer, ((1 : Nat) : Int)) ∈ s.agenda.remaining ∧ p.terminal.Printing 9 s 3 log s' ∧
      p.terminal.pace = 1 ∧ p.terminal.pending? s'.world = some [0x63] ∧
      (∃ f, log[0]? = some (1, f) ∧ p.terminal.Displays 0x61 f) ∧
      ∃ f, log[1]? = some (2, f) ∧ p.terminal.Displays 0x62 f := by
  let d : Description := { terminal := { outputTicks := 1 } }
  let t := (Peripherals.plan d).terminal
  let put (bytes : List UInt8) : Program (Board Headless Unit) := t.putChars bytes fun _ => .done (.ok ())
  let built : Option (Except Status Peripherals × Machine MemoryImages (Board Headless Unit)) :=
    Machine.build 9 d ⟨[], []⟩ (Headless.withInput []) () (.empty none)
  have builds : built.map (·.1) = some (.ok (Peripherals.plan d)) := by decide +kernel
  have course : (built.bind fun m => ((put [0x61, 0x62]).run 9 m.2.scheduler).bind fun s =>
      (s.2.tick 9).bind fun a => ((put [0x63]).run 9 a.2).bind fun b => (b.2.tick 9).bind fun c =>
        (c.2.tick 9).map fun last => decide (a.1 = .ok () ∧ c.1 = .ok () ∧ last.1 = .ok () ∧
          t.pending? s.2.world = some [0x61, 0x62] ∧ t.pending? last.2.world = some [0x63] ∧
          (t.printer, 1) ∈ s.2.agenda.remaining)) = some true := by
    decide +kernel
  obtain ⟨⟨_, m⟩, ended, rfl⟩ := Option.map_eq_some_iff.1 builds
  rw [ended, Option.bind_some] at course
  obtain ⟨⟨_, s⟩, typed, course⟩ := Option.bind_eq_some_iff.1 course
  obtain ⟨⟨_, a⟩, first, course⟩ := Option.bind_eq_some_iff.1 course
  obtain ⟨⟨_, b⟩, more, course⟩ := Option.bind_eq_some_iff.1 course
  obtain ⟨⟨_, c⟩, second, course⟩ := Option.bind_eq_some_iff.1 course
  obtain ⟨⟨_, last⟩, third, course⟩ := Option.map_eq_some_iff.1 course
  obtain ⟨rfl, rfl, rfl, output, left, queued⟩ := of_decide_eq_true course
  have puts (bytes : List UInt8) : (put bytes).Within t.printerLicense :=
    Terminal.within_putChars bytes (.done _)
  have tended : t.Tended s := (Machine.built_tended ended).call (puts _) typed
  have printing : t.Printing 9 s 3 _ last :=
    .tick (.tick (.call (.tick .start first) (puts _) more) second) third
  have on_time := (printer_keeps_pace tended output queued printing).1
  exact ⟨_, s, last, _, tended, output, queued, printing, rfl, left, on_time 0 _ rfl, on_time 1 _ rfl⟩

end Peripheral
