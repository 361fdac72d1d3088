import Peripheral.Proofs.Conservation
import Peripheral.Proofs.Stopping

/-!
# Budgets of runs

A run goes slot by slot: it looks at its budget, fires what is due, executes an instruction and spends a tick.
What is due at the end of a budget is left to the run that comes next, so that two runs in a row do what one
run does with both budgets.

* `Machine.runSlots_add` : slots that are run in two goes;
* `Machine.executions`, `ticks_of_runSlots` : the answers of the instructions that a run executes; its ticks are
  those that end well;
* `FoldsFirst` : changes in which nothing is taken off the queue before time is folded in
  (`FoldsFirst.elapsedWrapping`);
* `Machine.Completes` : a run comes to the same as the rest of one (`run_completes`);
* `tick_budget_splits` : **a budget may be split**, and the ticks of a run are those that time goes by;
* `Scheduler.tickTimes`, `Machine.run_idle` : ticks in a row, and a run without instructions;
* `idle_run_is_ticks_in_a_row` : **the two drivers of time agree**.
-/

namespace Peripheral

variable {σ ω : Type} [MediaStore σ]

/-! ## Slots in two goes -/

namespace Machine

variable {pops : Nat} {instruction : Program ω} {s t : Scheduler σ ω}

theorem runSlots_shift (slots before ticks : Nat) (s : Scheduler σ ω) :
    runSlots pops instruction slots (before + ticks) s =
      (runSlots pops instruction slots ticks s).map fun (pause, last, t) => (pause, before + last, t) := by
  induction slots generalizing ticks s with
  | zero => rfl
  | succ slots ih =>
    rw [runSlots, runSlots]
    split
    · rfl
    · rfl
    · exact ih (ticks + 1) _

/-- Slots that are run in two goes, the second one only if the first one was not cut short. -/
theorem runSlots_add (a b ticks : Nat) (s : Scheduler σ ω) :
    runSlots pops instruction (a + b) ticks s =
      match runSlots pops instruction a ticks s with
      | some (.exhausted, last, t) => runSlots pops instruction b last t
      | ended => ended := by
  induction a generalizing ticks s with
  | zero => rw [Nat.zero_add, runSlots]
  | succ a ih =>
    rw [Nat.succ_add, runSlots, runSlots]
    split
    · rfl
    · rfl
    · exact ih (ticks + 1) _

theorem ticks_of_exhausted {slots ticks last : Nat}
    (ended : runSlots pops instruction slots ticks s = some (.exhausted, last, t)) : last = ticks + slots := by
  induction slots generalizing ticks s with
  | zero =>
    cases ended
    rfl
  | succ slots ih =>
    rw [runSlots] at ended
    split at ended
    · cases ended
    · cases ended
    · rw [ih ended]
      omega

theorem run_of_budget (slots budget : Nat) (m : Machine σ ω) :
    m.run pops slots instruction (some budget) =
      (runSlots pops instruction budget 0 m.scheduler).map fun (pause, ticks, t) =>
        m.afterwards (report ticks t pause) := by
  unfold run
  rw [Option.getD_some]
  cases runSlots pops instruction budget 0 m.scheduler <;> rfl

omit [MediaStore σ] in
theorem report_ok {ticks : Nat} {pause : Pause} {r : RunReport} (told : (report ticks s pause).1 = .ok r) :
    r.ticks = ticks ∧ (report ticks s pause).2.agenda = s.agenda := by
  cases pause with
  | exhausted =>
    cases told
    exact ⟨rfl, rfl⟩
  | ended status =>
    unfold report at told ⊢
    dsimp only at told ⊢
    split at told
    · rename_i expected
      cases told
      rw [if_pos expected]
      exact ⟨rfl, rfl⟩
    · cases told

/-! ## Instructions that a run executes -/

/-- What a slot begins with: a dispatch, if the interval has run out. -/
def fireDue (pops : Nat) : Motion σ ω := fun s =>
  if s.agenda.interval ≤ 0 then s.processEvent pops else some (.ok (), s)

def executions (pops : Nat) (instruction : Program ω) : Nat → Scheduler σ ω → List Result
  | 0, _ => []
  | slots + 1, s =>
    match fireDue pops s with
    | some (.ok (), s) =>
      match instruction.run pops s with
      | none => []
      | some (.error status, _) => [.error status]
      | some (.ok (), s) => .ok () :: executions pops instruction slots (s.consume 1)
    | _ => []

/-- A slot whose dispatch ended badly executes nothing; another one executes its instruction. -/
theorem slotOf_eq (pops : Nat) (instruction : Program ω) (s : Scheduler σ ω) :
    slotOf pops instruction s =
      match fireDue pops s with
      | some (.ok (), s) => instruction.run pops s
      | ended => ended := by
  unfold slotOf fireDue
  split
  · cases s.processEvent pops with
    | none => rfl
    | some answer =>
      obtain ⟨result, t⟩ := answer
      cases result <;> rfl
  · rfl

/-- The ticks of a run are the instructions that ended well. -/
theorem ticks_of_runSlots {slots ticks last : Nat} {pause : Pause}
    (ended : runSlots pops instruction slots ticks s = some (pause, last, t)) :
    last = ticks + (executions pops instruction slots s).countP (·.isOk) := by
  induction slots generalizing ticks s with
  | zero =>
    cases ended
    rfl
  | succ slots ih =>
    rw [runSlots, slotOf_eq] at ended
    rw [executions]
    generalize fireDue pops s = due at ended ⊢
    rcases due with - | ⟨status | ⟨⟩, u⟩
    · cases ended
    · cases ended
      rfl
    · dsimp only at ended ⊢
      generalize instruction.run pops u = ran at ended ⊢
      rcases ran with - | ⟨status | ⟨⟩, v⟩
      · cases ended
      · cases ended
        rfl
      · dsimp only at ended ⊢
        rw [ih ended, List.countP_cons_of_pos rfl]
        omega

end Machine

/-! ## Time that a run goes by -/

/-- Time is folded in before anything is taken off the queue, or an empty queue is waited on anew. -/
def FoldsFirst : List Change → Prop
  | [] | .settled :: _ => True
  | .popped _ _ :: _ | .rested :: _ => False
  | .spent _ :: h | .queued _ _ :: h | .removed _ :: h => FoldsFirst h

section
omit [MediaStore σ]

theorem FoldsFirst.append {h h' : List Change} (first : FoldsFirst h) (second : FoldsFirst h') :
    FoldsFirst (h ++ h') := by
  fun_induction FoldsFirst h with
  | case1 => exact second
  | case2 => trivial
  | case3 | case4 => exact first.elim
  | case5 _ _ ih | case6 _ _ _ ih | case7 _ _ ih => exact ih first

theorem Scheduler.foldsFirst_changesOf (s : Scheduler σ ω) (c : Call) : FoldsFirst (s.changesOf c) := by
  cases c with
  | activate | activateAfter | cancel =>
    simp only [changesOf]
    split <;> trivial
  | _ => trivial

theorem FoldsFirst.elapsedWrapping {a : Agenda} {h : List Change} (folds : FoldsFirst h)
    (possible : Trail Change.Possible a h) (quiet : ∀ ticks, .spent ticks ∉ h) :
    (a.after h).elapsedWrapping = a.elapsedWrapping := by
  have shows : a.Shows a.elapsedWrapping False := ⟨rfl, False.elim⟩
  generalize a.elapsedWrapping = spent at shows ⊢
  induction h generalizing a with
  | nil => exact shows.time
  | cons c h ih =>
    have later : ∀ ticks, .spent ticks ∉ h := fun ticks there => quiet ticks (List.mem_cons_of_mem _ there)
    cases c with
    | spent ticks => exact absurd List.mem_cons_self (quiet ticks)
    | queued u ticks => exact ih folds possible.2 later (shows.insert u ticks)
    | removed u => exact ih folds possible.2 later (shows.remove u)
    | settled => exact ((shows.settle True).after possible.2 later).time
    | popped | rested => exact folds.elim

end

/-- A dispatch folds time in before it takes the first unit off. -/
theorem Scheduler.foldsFirst_processEventChanges (pops : Nat) (s : Scheduler σ ω) :
    FoldsFirst (s.processEventChanges pops) := by
  unfold processEventChanges processChanges
  split <;> trivial

theorem Program.foldsFirst_runChanges (pops : Nat) (p : Program ω) (s : Scheduler σ ω) :
    FoldsFirst (p.runChanges pops s) := by
  unfold runChanges
  induction p generalizing s with
  | done result => trivial
  | call c next ih => exact (s.foldsFirst_changesOf c).append (ih _ _)
  | look next ih => exact ih _ s
  | change f next ih => exact ih _
  | setAction u action next _ ih => exact ih _
  | setHook u hook next ih => exact ih _
  | park u delay outcome deliver next _ ih => exact ih _
  | dispatch next ih =>
    rw [changes]
    refine (s.foldsFirst_processEventChanges pops).append ?_
    split
    · trivial
    · exact ih _ _

namespace Machine

variable {pops : Nat} {instruction : Program ω} {s t : Scheduler σ ω}

theorem foldsFirst_slotChanges (pops : Nat) (instruction : Program ω) (s : Scheduler σ ω) :
    FoldsFirst (slotChanges pops instruction s) := by
  unfold slotChanges
  split
  · refine (s.foldsFirst_processEventChanges pops).append ?_
    split
    · exact instruction.foldsFirst_runChanges pops _
    · trivial
  · exact instruction.foldsFirst_runChanges pops s

/-- The changes that the dispatches and the instructions of some slots make: all but the ticks that the run
spends by itself. -/
def workChanges (pops : Nat) (instruction : Program ω) : Nat → Chronicle σ ω
  | 0, _ => []
  | slots + 1, s =>
    slotChanges pops instruction s ++
      match slotOf pops instruction s with
      | some (.ok (), t) => workChanges pops instruction slots (t.consume 1)
      | _ => []

/-- Where neither instructions nor callbacks spend ticks, time goes by the ticks of the run. -/
theorem elapsedWrapping_of_runSlots {slots ticks last : Nat} {pause : Pause}
    (quiet : ∀ n, .spent n ∉ workChanges pops instruction slots s)
    (ended : runSlots pops instruction slots ticks s = some (pause, last, t)) :
    ∃ k, last = ticks + k ∧ t.agenda.elapsedWrapping = s.agenda.elapsedWrapping + UInt32.ofNat k := by
  induction slots generalizing ticks s with
  | zero =>
    cases ended
    exact ⟨0, rfl, (UInt32.add_zero _).symm⟩
  | succ slots ih =>
    have recorded := slotOf_recordedBy (σ := σ) pops instruction
    have slot : ∀ result u, slotOf pops instruction s = some (result, u) →
        u.agenda.elapsedWrapping = s.agenda.elapsedWrapping := fun result u ran => by
      rw [recorded.agenda s result u ran]
      exact (foldsFirst_slotChanges pops instruction s).elapsedWrapping (recorded.possible s)
        fun n there => quiet n (List.mem_append_left _ there)
    rw [runSlots] at ended
    split at ended
    · cases ended
    · rename_i stopped
      cases ended
      exact ⟨0, rfl, by rw [slot _ _ stopped]; exact (UInt32.add_zero _).symm⟩
    · rename_i u went
      obtain ⟨k, sum, time⟩ := ih (fun n there => quiet n (by
        rw [workChanges, went]
        exact List.mem_append_right _ there)) ended
      refine ⟨1 + k, by omega, ?_⟩
      have spent : (u.consume 1).agenda.elapsedWrapping = u.agenda.elapsedWrapping + 1 :=
        Agenda.elapsedWrapping_consume 1 u.agenda
      rw [time, spent, slot _ _ went, UInt32.ofNat_add, ← UInt32.add_assoc]
      rfl

end Machine

/-! ## Budgets that are split -/

/-- The report of a run that went on where another one left off: the ticks of both count. -/
def RunReport.after (before : Nat) (r : RunReport) : RunReport := { r with ticks := before + r.ticks }

/-- A run comes to the same as the rest of one that had `before` ticks behind it: the same answer with those
ticks added, and the same machine but for the journal, in which stopped runs tell their ticks. -/
structure Machine.Completes (before : Nat) (rest whole : Except Status RunReport × Machine σ ω) : Prop where
  answer : whole.1 = rest.1.map (·.after before)
  registry : whole.2.registry = rest.2.registry
  scheduler : ∃ journal, whole.2.scheduler = { rest.2.scheduler with journal }

omit [MediaStore σ] in
theorem Machine.completes_report (before ticks : Nat) (m : Machine σ ω) (t : Scheduler σ ω) (pause : Pause) :
    Completes before (m.afterwards (report ticks t pause)) (m.afterwards (report (before + ticks) t pause)) := by
  cases pause with
  | exhausted => exact ⟨rfl, rfl, _, rfl⟩
  | ended status =>
    unfold report
    dsimp only
    split
    · exact ⟨rfl, rfl, _, rfl⟩
    · exact ⟨rfl, rfl, _, rfl⟩

/-- Where all slots of a budget were run, one run with both budgets comes to the same as the rest. -/
theorem Machine.run_completes {pops a : Nat} {instruction : Program ω} {m : Machine σ ω} {t : Scheduler σ ω}
    (ended : runSlots pops instruction a 0 m.scheduler = some (.exhausted, a, t)) (slots b : Nat) :
    Option.Rel (Completes a) (({ m with scheduler := t } : Machine σ ω).run pops slots instruction (some b))
      (m.run pops slots instruction (some (a + b))) := by
  have later : runSlots pops instruction (a + b) 0 m.scheduler = runSlots pops instruction b (a + 0) t := by
    rw [runSlots_add, ended, Nat.add_zero]
  rw [run_of_budget, run_of_budget, later, runSlots_shift]
  dsimp only
  cases runSlots pops instruction b 0 t with
  | none => exact .none
  | some rest => exact .some (completes_report a rest.2.1 m rest.2.2 rest.1)

section
open Machine

/-- Where a run has used up a budget, going on with another budget comes to the same as one run with both, and
the ticks add up. Where it ends otherwise, a larger budget does not change anything. Whenever a run reports its
end, its ticks are the instructions that ended well, and if neither the instructions nor any callbacks spend
ticks of their own, simulated time has gone by as many. -/
theorem tick_budget_splits (pops slots : Nat) (instruction : Program ω) (m : Machine σ ω) (a b : Nat) :
    (∀ ticks elapsed m₁,
      m.run pops slots instruction (some a) = some (.ok ⟨.tickLimit, ticks, elapsed⟩, m₁) →
      ticks = a ∧ Option.Rel (Completes a) (m₁.run pops slots instruction (some b))
        (m.run pops slots instruction (some (a + b)))) ∧
    (∀ answer m₁, m.run pops slots instruction (some a) = some (answer, m₁) →
      (∀ r, answer = .ok r → r.reason ≠ .tickLimit) →
      m.run pops slots instruction (some (a + b)) = some (answer, m₁)) ∧
    (m.run pops slots instruction (some a) = none → m.run pops slots instruction (some (a + b)) = none) ∧
    ∀ budget r m', m.run pops slots instruction budget = some (.ok r, m') →
      r.ticks = (executions pops instruction (budget.getD slots) m.scheduler).countP (·.isOk) ∧
      ((∀ n, .spent n ∉ workChanges pops instruction (budget.getD slots) m.scheduler) →
        m'.scheduler.agenda.elapsedWrapping =
          m.scheduler.agenda.elapsedWrapping + UInt32.ofNat r.ticks) := by
  have both : runSlots pops instruction (a + b) 0 m.scheduler = _ := runSlots_add a b 0 m.scheduler
  refine ⟨fun ticks elapsed m₁ ran => ?_, fun answer m₁ ran early => ?_, fun ran => ?_,
    fun budget r m' ran => ?_⟩
  · obtain ⟨pause, last, t, ended, same⟩ := run_cases ran
    rw [Option.getD_some] at ended
    have told : (report last t pause).1 = .ok ⟨.tickLimit, ticks, elapsed⟩ := (congrArg Prod.fst same).symm
    obtain rfl := exhausted_of_report told rfl
    cases same
    obtain rfl : ticks = a := by rw [ticks_of_exhausted ended, Nat.zero_add]
    exact ⟨rfl, run_completes ended slots b⟩
  · obtain ⟨pause, last, t, ended, same⟩ := run_cases ran
    rw [Option.getD_some] at ended
    rw [ended] at both
    rw [run_of_budget, both]
    cases pause with
    | exhausted =>
      cases same
      exact absurd rfl (early _ rfl)
    | ended status => exact congrArg some same.symm
  · rw [run_of_budget, Option.map_eq_none_iff] at ran ⊢
    rw [both, ran]
  · obtain ⟨pause, last, t, ended, same⟩ := run_cases ran
    obtain ⟨told, left⟩ := report_ok (congrArg Prod.fst same).symm
    have agenda : m'.scheduler.agenda = t.agenda :=
      (congrArg (fun answer => answer.2.scheduler.agenda) same).trans left
    refine ⟨?_, fun quiet => ?_⟩
    · rw [told, ticks_of_runSlots ended, Nat.zero_add]
    · obtain ⟨k, sum, time⟩ := elapsedWrapping_of_runSlots quiet ended
      rw [told, agenda, sum, Nat.zero_add]
      exact time

omit [MediaStore σ] in
theorem Machine.report_of_told {ran : Option (Except Status RunReport × Machine σ ω)} {reason : RunEnd}
    {ticks : Nat} (told : ran.map (·.1.map fun r => (r.reason, r.ticks)) = some (.ok (reason, ticks))) :
    ∃ elapsed m', ran = some (.ok ⟨reason, ticks, elapsed⟩, m') := by
  obtain ⟨⟨answer, m'⟩, rfl, shown⟩ := Option.map_eq_some_iff.1 told
  cases answer with
  | error status => cases shown
  | ok r =>
    cases shown
    exact ⟨r.elapsed, m', rfl⟩

/-- An instruction counts up to five and then asks for a stop, while a unit fires every other tick. The run with
both budgets ends in the middle of the second one. -/
theorem stop_within_second_budget :
    ∃ (m m₁ last whole : Machine MemoryImages Nat) (instruction : Program Nat) (e e' : Float),
      m.run 9 0 instruction (some 3) = some (.ok ⟨.tickLimit, 3, e⟩, m₁) ∧
      m₁.run 9 0 instruction (some 4) = some (.ok ⟨.stopped .stopped, 2, e'⟩, last) ∧
      m.run 9 0 instruction (some (3 + 4)) = some (.ok ⟨.stopped .stopped, 3 + 2, e'⟩, whole) ∧
      m.run 9 0 instruction (some (3 + 4 + 1)) = some (.ok ⟨.stopped .stopped, 3 + 2, e'⟩, whole) ∧
      last.scheduler.world = 5 ∧ whole.scheduler.world = last.scheduler.world ∧
      (executions 9 instruction 7 m.scheduler).countP (·.isOk) = 5 ∧
      whole.scheduler.agenda.elapsedWrapping = m.scheduler.agenda.elapsedWrapping + 5 := by
  let instruction : Program Nat := .look fun n =>
    if n = 5 then .done (.error .stopped) else .change (· + 1) (.done (.ok ()))
  let blank : Scheduler MemoryImages Nat := .start 100 1 0 default (.empty (some .debug))
  let s := ((blank.perform (.addUnit { name := "A" })).2.modifySlot 0 fun slot =>
    { slot with action := some (.call (.activate 0 2) fun _ => .done (.ok ())) })
  let m : Machine MemoryImages Nat := .ofScheduler (s.perform (.activate 0 2)).2
  obtain ⟨splits, -, -, counts⟩ := tick_budget_splits 9 0 instruction m 3 4
  obtain ⟨-, stays, -, -⟩ := tick_budget_splits 9 0 instruction m (3 + 4) 1
  obtain ⟨e, m₁, first⟩ : ∃ e m₁, m.run 9 0 instruction (some 3) = some (.ok ⟨.tickLimit, 3, e⟩, m₁) :=
    report_of_told (by decide +kernel)
  obtain ⟨e', whole, both⟩ : ∃ e' whole,
      m.run 9 0 instruction (some (3 + 4)) = some (.ok ⟨.stopped .stopped, 3 + 2, e'⟩, whole) :=
    report_of_told (by decide +kernel)
  have world : (m.run 9 0 instruction (some (3 + 4))).map (·.2.scheduler.world) = some 5 := by decide +kernel
  rw [both] at world
  have quiet : workChanges 9 instruction 7 m.scheduler =
      [.settled, .popped 0 0, .queued 0 2, .settled, .popped 0 0, .queued 0 2] := by decide +kernel
  obtain ⟨-, rest⟩ := splits 3 e m₁ first
  rw [both] at rest
  generalize second : m₁.run 9 0 instruction (some 4) = ran at rest
  cases rest with
  | @some ran _ same =>
    obtain ⟨answer, last⟩ := ran
    obtain ⟨told, -, journal, left⟩ := same
    cases answer with
    | error status => cases told
    | ok r =>
      obtain ⟨reason, ticks, elapsed⟩ := r
      simp only [Except.map, RunReport.after, Except.ok.injEq, RunReport.mk.injEq, Nat.add_left_cancel_iff]
        at told
      obtain ⟨rfl, rfl, rfl⟩ := told
      have same : whole.scheduler.world = last.scheduler.world := by rw [left]
      obtain ⟨ticked, time⟩ := counts (some (3 + 4)) _ whole both
      exact ⟨m, m₁, last, whole, instruction, e, e', first, second, both,
        stays _ whole both (by rintro _ ⟨⟩; simp), same ▸ Option.some.inj world, same, ticked.symm,
        time fun n => by rw [Option.getD_some, quiet]; simp⟩

end

/-! ## Ticks in a row -/

/-- Tick so many times, ending at the first tick that fails; with the number of ticks that ended well. -/
def Scheduler.tickTimes (pops : Nat) : Nat → Scheduler σ ω → Option (Result × Nat × Scheduler σ ω)
  | 0, s => some (.ok (), 0, s)
  | times + 1, s =>
    match s.tick pops with
    | none => none
    | some (.error status, s) => some (.error status, 0, s)
    | some (.ok (), s) => (tickTimes pops times s).map fun (result, ticks, t) => (result, ticks + 1, t)

theorem Scheduler.ticks_of_tickTimes {pops times ticks : Nat} {s t : Scheduler σ ω} {result : Result}
    (ended : s.tickTimes pops times = some (result, ticks, t)) :
    result = .ok () ∧ ticks = times ∨ ∃ status, result = .error status ∧ ticks < times := by
  induction times generalizing ticks s with
  | zero =>
    cases ended
    exact .inl ⟨rfl, rfl⟩
  | succ times ih =>
    rw [tickTimes] at ended
    split at ended
    · cases ended
    · cases ended
      exact .inr ⟨_, rfl, Nat.succ_pos times⟩
    · obtain ⟨⟨_, k, _⟩, later, same⟩ := Option.map_eq_some_iff.1 ended
      cases same
      rcases ih later with ⟨well, all⟩ | ⟨status, failed, fewer⟩
      · exact .inl ⟨well, congrArg (· + 1) all⟩
      · exact .inr ⟨status, failed, Nat.succ_lt_succ fewer⟩

namespace Machine

def Pause.ofResult : Result → Pause
  | .ok () => .exhausted
  | .error status => .ended status

/-- A tick is a slot without an instruction, and then the tick that the slot takes. -/
theorem tick_eq (pops : Nat) (s : Scheduler σ ω) :
    s.tick pops =
      match slotOf pops idle s with
      | some (.ok (), t) => some (.ok (), t.consume 1)
      | ended => ended := by
  unfold Scheduler.tick slotOf
  split
  · rcases s.processEvent pops with - | ⟨status | ⟨⟩, t⟩
    · rfl
    · rfl
    · rfl
  · rfl

/-- Slots without instructions are ticks in a row, up to the first one that fails. -/
theorem runSlots_idle (pops times ticks : Nat) (s : Scheduler σ ω) :
    runSlots pops idle times ticks s =
      (s.tickTimes pops times).map fun (result, k, t) => (Pause.ofResult result, ticks + k, t) := by
  induction times generalizing ticks s with
  | zero => rfl
  | succ times ih =>
    rw [runSlots, Scheduler.tickTimes, tick_eq]
    rcases slotOf pops idle s with - | ⟨status | ⟨⟩, t⟩
    · rfl
    · rfl
    · dsimp only
      rw [ih, Option.map_map]
      refine congrFun (congrArg Option.map (funext fun ended => ?_)) _
      show (Pause.ofResult ended.1, ticks + 1 + ended.2.1, ended.2.2) =
        (Pause.ofResult ended.1, ticks + (ended.2.1 + 1), ended.2.2)
      rw [Nat.add_right_comm, Nat.add_assoc]

theorem run_idle (pops slots times : Nat) (m : Machine σ ω) :
    m.run pops slots idle (some times) =
      (m.scheduler.tickTimes pops times).map fun (result, ticks, t) =>
        m.afterwards (report ticks t (Pause.ofResult result)) := by
  rw [run_of_budget, runSlots_idle, Option.map_map]
  refine congrFun (congrArg Option.map (funext fun ended => ?_)) _
  show m.afterwards (report (0 + ended.2.1) ended.2.2 _) = m.afterwards (report ended.2.1 ended.2.2 _)
  rw [Nat.zero_add]

end Machine

section
open Machine

/-- A run without instructions and with a budget of `n`, and up to `n` ticks of the scheduler that end at the
first one that fails, have an answer for the same machines. They leave the same devices and the same scheduler
behind but for the journal, and as many slots of the run end well as ticks do. The run has used up its budget
exactly if all ticks ended well, was stopped exactly if the tick that failed did so with an expected stop, and
fails exactly with any other status of that tick. -/
theorem idle_run_is_ticks_in_a_row (pops slots n : Nat) (m : Machine σ ω) :
    (m.run pops slots idle (some n) = none ↔ m.scheduler.tickTimes pops n = none) ∧
    ∀ result ticks t, m.scheduler.tickTimes pops n = some (result, ticks, t) →
      ∃ answer m', m.run pops slots idle (some n) = some (answer, m') ∧
        m'.registry = m.registry ∧ (∃ journal, m'.scheduler = { t with journal }) ∧
        (executions pops idle n m.scheduler).countP (·.isOk) = ticks ∧
        (∀ r, answer = .ok r → r.ticks = ticks ∧ r.elapsed = t.agenda.elapsed) ∧
        ((∃ r, answer = .ok r ∧ r.reason = .tickLimit) ↔ ticks = n) ∧
        (∀ status, (∃ r, answer = .ok r ∧ r.reason = .stopped status) ↔
          result = .error status ∧ status.isExpectedStop = true) ∧
        ∀ status, answer = .error status ↔ result = .error status ∧ status.isExpectedStop = false := by
  refine ⟨by rw [run_idle, Option.map_eq_none_iff], fun result ticks t ended => ?_⟩
  have ran : m.run pops slots idle (some n) =
      some (m.afterwards (report ticks t (Pause.ofResult result))) := by
    rw [run_idle, ended]
    rfl
  have executed : (executions pops idle n m.scheduler).countP (·.isOk) = ticks := by
    have slots := runSlots_idle pops n 0 m.scheduler
    rw [ended] at slots
    have counted := ticks_of_runSlots slots
    omega
  rcases Scheduler.ticks_of_tickTimes ended with ⟨rfl, rfl⟩ | ⟨status, rfl, fewer⟩
  · refine ⟨_, _, ran, rfl, ⟨_, rfl⟩, executed, ?_⟩
    simp [report, Pause.ofResult]
  · have short : ticks ≠ n := Nat.ne_of_lt fewer
    cases expected : status.isExpectedStop with
    | true =>
      have stopped : report ticks t (Pause.ofResult (.error status)) =
          (.ok ⟨.stopped status, ticks, t.agenda.elapsed⟩, t.tell (.runStopped ticks status)) :=
        if_pos expected
      rw [stopped] at ran
      refine ⟨_, _, ran, rfl, ⟨_, rfl⟩, executed, ?_⟩
      simp [short, expected]
    | false =>
      have failed : report ticks t (Pause.ofResult (.error status)) = (.error status, t) :=
        if_neg (by rw [expected]; exact Bool.false_ne_true)
      rw [failed] at ran
      refine ⟨_, _, ran, rfl, ⟨_, rfl⟩, executed, ?_⟩
      simp [short, expected]

/-- Machines with a unit that ends after two ticks with an exit, and with a lack of memory. -/
theorem ticks_until_exit_or_failure :
    (∃ (m m' : Machine MemoryImages Unit) (t : Scheduler MemoryImages Unit) (r : RunReport),
      m.scheduler.tickTimes 9 5 = some (.error .exit, 2, t) ∧
      m.run 9 0 idle (some 5) = some (.ok r, m') ∧ r.reason = .stopped .exit ∧ r.ticks = 2 ∧
      m'.scheduler.agenda = t.agenda) ∧
    ∃ (m m' : Machine MemoryImages Unit) (t : Scheduler MemoryImages Unit),
      m.scheduler.tickTimes 9 5 = some (.error .noMemory, 2, t) ∧
      m.run 9 0 idle (some 5) = some (.error .noMemory, m') ∧ m'.scheduler.agenda = t.agenda := by
  let m (status : Status) : Machine MemoryImages Unit :=
    let blank : Scheduler MemoryImages Unit := .start 100 1 () default (.empty (some .debug))
    let s := (blank.perform (.addUnit { name := "A" })).2.modifySlot 0 fun slot =>
      { slot with action := some (.done (.error status)) }
    .ofScheduler (s.perform (.activate 0 2)).2
  constructor
  · have ends : ((m .exit).scheduler.tickTimes 9 5).map (fun x => (x.1, x.2.1)) = some (.error .exit, 2) := by
      decide +kernel
    obtain ⟨⟨result, ticks, t⟩, ended, told⟩ := Option.map_eq_some_iff.1 ends
    cases told
    obtain ⟨answer, m', ran, -, ⟨journal, left⟩, -, counts, -, stops, -⟩ :=
      (idle_run_is_ticks_in_a_row 9 0 5 (m .exit)).2 _ _ t ended
    obtain ⟨r, rfl, reason⟩ := (stops .exit).2 ⟨rfl, rfl⟩
    exact ⟨m .exit, m', t, r, ended, ran, reason, (counts r rfl).1, by rw [left]⟩
  · have ends : ((m .noMemory).scheduler.tickTimes 9 5).map (fun x => (x.1, x.2.1)) =
        some (.error .noMemory, 2) := by
      decide +kernel
    obtain ⟨⟨result, ticks, t⟩, ended, told⟩ := Option.map_eq_some_iff.1 ends
    cases told
    obtain ⟨answer, m', ran, -, ⟨journal, left⟩, -, -, -, -, fails⟩ :=
      (idle_run_is_ticks_in_a_row 9 0 5 (m .noMemory)).2 _ _ t ended
    obtain rfl := (fails .noMemory).2 ⟨rfl, rfl⟩
    exact ⟨m .noMemory, m', t, ended, ran, by rw [left]⟩

end

end Peripheral
