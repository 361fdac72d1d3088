import Peripheral.Proofs.Budgets
import Peripheral.Proofs.Conservation
import Peripheral.Proofs.Ledger

/-!
# Ticks that a dispatch forgets

Ticks that a callback spends are loose until a change of the queue folds them into simulated time. When the
last unit is taken off the queue, and when an empty queue is waited on anew, the interval is loaded without
that, and what is loose then is gone: no clock will ever show it.

* `Change.Reloads` : the changes that load the interval without folding time in;
* `Change.leavesLoose`, `forgotten` : the ticks that are loose after a change, and those that a history forgets
  (`forgotten_range`, `forgotten_eq_zero`);
* `Agenda.Loose` : an agenda with a number of loose ticks; `Loose.apply`, `Loose.after` : simulated time and the
  ticks forgotten add up to the ticks spent;
* `dispatch_keeps_time_iff` : **a dispatch accounts for the ticks that callbacks spend exactly if it forgets
  none**.
-/

namespace Peripheral

/-! ## Loose ticks -/

namespace Change

/-- The interval is loaded without folding time in: a unit is taken off that no other one is behind, or an empty
queue is waited on anew. -/
def Reloads (a : Agenda) : Change → Prop
  | .popped _ _ => a.queue.tail = []
  | .rested => True
  | _ => False

def leavesLoose (a : Agenda) (loose : Int) : Change → Int
  | .spent ticks => loose + ticks.toInt
  | .popped _ _ => if a.queue.tail = [] then 0 else loose
  | .queued _ _ | .removed _ | .settled | .rested => 0

/-- The ticks that a change forgets: all that are loose when the interval is loaded anew. -/
def forgets (a : Agenda) (loose : Int) : Change → Int
  | .popped _ _ => if a.queue.tail = [] then loose else 0
  | .rested => loose
  | .spent _ | .queued _ _ | .removed _ | .settled => 0

end Change

/-- The ticks that a history forgets, from an agenda with a number of loose ticks on. -/
def forgotten : Agenda → Int → List Change → Int
  | _, _, [] => 0
  | a, loose, c :: h => c.forgets a loose + forgotten (c.apply a) (c.leavesLoose a loose) h

section
variable {a : Agenda} {loose : Int} {c : Change} {h : List Change}

/-- What was loose, and what a change spends, is forgotten or folded in by it, or is loose after it. -/
theorem Change.forgets_range (start : 0 ≤ loose) (nonneg : 0 ≤ c.ticks) :
    0 ≤ c.forgets a loose ∧ 0 ≤ c.leavesLoose a loose ∧
      c.forgets a loose + c.leavesLoose a loose ≤ loose + c.ticks := by
  cases c with
  | spent n =>
    have more : 0 ≤ n.toInt := nonneg
    simp only [forgets, leavesLoose, ticks]
    omega
  | popped u offset =>
    simp only [forgets, leavesLoose, ticks]
    split <;> omega
  | queued | removed | settled | rested =>
    simp only [forgets, leavesLoose, ticks]
    omega

/-- Where no change spends a negative number of ticks, no more is forgotten than was loose or is spent. -/
theorem forgotten_range (start : 0 ≤ loose) (nonneg : ∀ c ∈ h, 0 ≤ c.ticks) :
    0 ≤ forgotten a loose h ∧ forgotten a loose h ≤ loose + elapsed h := by
  induction h generalizing a loose with
  | nil =>
    rw [forgotten, elapsed]
    omega
  | cons c h ih =>
    obtain ⟨here, next, shared⟩ := Change.forgets_range (a := a) start (nonneg c List.mem_cons_self)
    obtain ⟨least, most⟩ := ih (a := c.apply a) next fun d there => nonneg d (List.mem_cons_of_mem c there)
    rw [forgotten, elapsed]
    omega

theorem Change.forgets_of_folds (folds : ¬c.Reloads a) : c.forgets a loose = 0 := by
  cases c with
  | popped u offset => exact if_neg folds
  | rested => exact absurd trivial folds
  | spent | queued | removed | settled => rfl

theorem forgotten_eq_zero (folds : Trail (fun a c => ¬c.Reloads a) a h) : forgotten a loose h = 0 := by
  induction h generalizing a loose with
  | nil => rfl
  | cons c h ih => rw [forgotten, Change.forgets_of_folds folds.1, ih folds.2, Int.add_zero]

/-! ## Words -/

theorem toUInt32_eq_ofInt (ticks : Int32) : ticks.toUInt32 = UInt32.ofInt ticks.toInt := by
  have word : ticks.toUInt32.toNat = ticks.toBitVec.toNat := rfl
  have range := ticks.toBitVec.isLt
  rw [← UInt32.toNat_inj, word, ← ticks.toInt_toBitVec, BitVec.toInt_eq_toNat_cond]
  simp only [UInt32.ofInt, UInt32.toNat_ofNat']
  split <;> omega

theorem ofInt_eq_zero_iff (ticks : Int) : UInt32.ofInt ticks = 0 ↔ (UInt32.size : Int) ∣ ticks := by
  rw [← UInt32.toNat_inj]
  simp only [UInt32.ofInt, UInt32.toNat_ofNat', UInt32.toNat_zero]
  show _ ↔ (4294967296 : Int) ∣ ticks
  omega

/-! ## Simulated time with what is forgotten -/

/-- The ticks that are not folded in are as many as are loose. -/
def Agenda.Loose (a : Agenda) (loose : Int) : Prop := a.unaccounted.toUInt32 = UInt32.ofInt loose

theorem Agenda.Settled.none_loose (settled : a.Settled) : a.Loose 0 := by
  unfold Agenda.Loose Agenda.unaccounted
  rw [settled, Int32.sub_self]
  rfl

theorem Agenda.Loose.elapsedWrapping (known : a.Loose loose) :
    a.elapsedWrapping = a.clock + UInt32.ofInt loose := by
  rw [Agenda.elapsedWrapping, known]

theorem Agenda.Loose.rearm (known : a.Loose loose) :
    a.rearm.Loose 0 ∧ a.rearm.elapsedWrapping + UInt32.ofInt loose = a.elapsedWrapping := by
  refine ⟨(settled_rearm a).none_loose, ?_⟩
  rw [(settled_rearm a).elapsedWrapping, Agenda.clock_rearm, known.elapsedWrapping]

theorem Agenda.Loose.popped {u : UnitId} {offset : Int32} {f : Entry} {rest : List Entry}
    (known : a.Loose loose) (queue : a.queue = ⟨u, offset⟩ :: f :: rest) :
    ((Change.popped u offset).apply a).Loose loose ∧
      ((Change.popped u offset).apply a).elapsedWrapping = a.elapsedWrapping := by
  have same : ((Change.popped u offset).apply a).unaccounted = a.unaccounted := by
    simp only [Change.apply, Agenda.pop?, queue, Option.map_some, Option.getD_some, Agenda.unaccounted,
      Agenda.reference]
    rw [← Int32.toBitVec_inj]
    simp only [Int32.toBitVec_sub, Int32.toBitVec_add]
    bv_omega
  have clock : ((Change.popped u offset).apply a).clock = a.clock := by
    simp only [Change.apply, Agenda.pop?, queue, Option.map_some, Option.getD_some]
  unfold Agenda.Loose at known ⊢
  rw [Agenda.elapsedWrapping, Agenda.elapsedWrapping, same, clock]
  exact ⟨known, rfl⟩

theorem Agenda.Loose.apply (known : a.Loose loose) (possible : c.Possible a) :
    (c.apply a).Loose (c.leavesLoose a loose) ∧
      (c.apply a).elapsedWrapping + UInt32.ofInt (c.forgets a loose) =
        a.elapsedWrapping + UInt32.ofInt c.ticks := by
  have none : ∀ word : UInt32, word + UInt32.ofInt 0 = word := UInt32.add_zero
  have shows : a.Shows a.elapsedWrapping False := ⟨rfl, False.elim⟩
  cases c with
  | spent ticks =>
    simp only [Change.forgets, Change.leavesLoose, Change.ticks, none]
    refine ⟨?_, ?_⟩
    · show (a.consume ticks).unaccounted.toUInt32 = _
      unfold Agenda.Loose at known
      rw [Agenda.unaccounted_consume, Int32.toUInt32_add, known, toUInt32_eq_ofInt, UInt32.ofInt_add]
    · rw [← toUInt32_eq_ofInt]
      exact Agenda.elapsedWrapping_consume ticks a
  | queued u ticks =>
    simp only [Change.forgets, Change.leavesLoose, Change.ticks, none]
    exact ⟨(settled_rearm _).none_loose, (shows.insert u ticks).time⟩
  | removed u =>
    simp only [Change.forgets, Change.leavesLoose, Change.ticks, none]
    refine ⟨?_, (shows.remove u).time⟩
    show (a.remove u).Loose 0
    unfold Agenda.remove
    rw [if_pos (Agenda.isActive_iff.2 possible)]
    exact (settled_rearm _).none_loose
  | settled =>
    simp only [Change.forgets, Change.leavesLoose, Change.ticks, none]
    exact ⟨(settled_settle a).none_loose, a.elapsedWrapping_settle⟩
  | popped u offset =>
    simp only [Change.forgets, Change.leavesLoose, Change.ticks, none]
    obtain ⟨rest, queue⟩ := possible
    cases rest with
    | nil =>
      have left : (Change.popped u offset).apply a = { a with queue := [] }.rearm := by
        simp only [Change.apply, Agenda.pop?, queue, Option.map_some, Option.getD_some]
      rw [queue, List.tail_cons, if_pos rfl, if_pos rfl, left]
      refine ⟨(settled_rearm _).none_loose, ?_⟩
      rw [(settled_rearm _).elapsedWrapping, Agenda.clock_rearm, known.elapsedWrapping]
    | cons f rest =>
      rw [queue, List.tail_cons, if_neg (List.cons_ne_nil f rest), if_neg (List.cons_ne_nil f rest), none]
      exact known.popped queue
  | rested =>
    simp only [Change.forgets, Change.leavesLoose, Change.ticks, none]
    exact known.rearm

/-- A history adds the ticks that it spends to simulated time, less those that it forgets. -/
theorem Agenda.Loose.after (known : a.Loose loose) (possible : Trail Change.Possible a h) :
    (a.after h).elapsedWrapping + UInt32.ofInt (forgotten a loose h) =
      a.elapsedWrapping + UInt32.ofInt (Peripheral.elapsed h) := by
  induction h generalizing a loose with
  | nil => rfl
  | cons c h ih =>
    obtain ⟨next, here⟩ := known.apply possible.1
    have later := ih next possible.2
    rw [Agenda.after_cons, forgotten, Peripheral.elapsed, UInt32.ofInt_add, UInt32.ofInt_add]
    calc ((c.apply a).after h).elapsedWrapping + (UInt32.ofInt (c.forgets a loose) +
          UInt32.ofInt (forgotten (c.apply a) (c.leavesLoose a loose) h))
        = ((c.apply a).after h).elapsedWrapping +
            UInt32.ofInt (forgotten (c.apply a) (c.leavesLoose a loose) h) + UInt32.ofInt (c.forgets a loose) := by
          ac_rfl
      _ = (c.apply a).elapsedWrapping + UInt32.ofInt (c.forgets a loose) +
            UInt32.ofInt (Peripheral.elapsed h) := by
          rw [later]
          ac_rfl
      _ = a.elapsedWrapping + (UInt32.ofInt c.ticks + UInt32.ofInt (Peripheral.elapsed h)) := by
          rw [here, UInt32.add_assoc]

end

/-! ## Dispatches -/

section
variable {σ ω : Type} [MediaStore σ]

/-- The ticks that a dispatch forgets. It starts with folding in what was loose before. -/
def Scheduler.forgotten (pops : Nat) (s : Scheduler σ ω) : Int :=
  Peripheral.forgotten s.agenda 0 (s.processEventChanges pops)

theorem Scheduler.elapsedWrapping_processEvent {s t : Scheduler σ ω} {pops : Nat} {result : Result}
    (ended : s.processEvent pops = some (result, t)) :
    t.agenda.elapsedWrapping + UInt32.ofInt (s.forgotten pops) =
      s.agenda.elapsedWrapping + UInt32.ofInt (elapsed (s.processEventChanges pops)) := by
  have records := processEvent_recordedBy (σ := σ) (ω := ω) pops
  have possible := records.possible s
  rw [records.agenda _ _ _ ended]
  unfold Scheduler.forgotten
  have folds : s.processEventChanges pops = [] ∨ ∃ h, s.processEventChanges pops = .settled :: h := by
    unfold processEventChanges processChanges
    split
    · exact .inl rfl
    · exact .inr ⟨_, rfl⟩
  rcases folds with nothing | ⟨h, changes⟩
  · rw [nothing]
    rfl
  · rw [changes] at possible ⊢
    have law := (settled_settle s.agenda).none_loose.after possible.2
    rw [Agenda.elapsedWrapping_settle] at law
    have first : Peripheral.forgotten s.agenda 0 (.settled :: h) = Peripheral.forgotten s.agenda.settle 0 h :=
      Int.zero_add _
    have rest : elapsed (.settled :: h) = elapsed h := Int.zero_add _
    rw [first, rest]
    exact law

/-- A dispatch whose callbacks spend no negative numbers of ticks, but do otherwise what they like, accounts for
the ticks that they spend exactly if those that it forgets do not show in a word. It forgets no more than they
spend, and nothing if it never takes the last unit off the queue and never waits on an empty one. -/
theorem dispatch_keeps_time_iff {s t : Scheduler σ ω} {pops : Nat} {result : Result}
    (ended : s.processEvent pops = some (result, t))
    (nonneg : ∀ c ∈ s.processEventChanges pops, 0 ≤ c.ticks) :
    (t.agenda.elapsedWrapping =
        s.agenda.elapsedWrapping + UInt32.ofInt (elapsed (s.processEventChanges pops)) ↔
      (UInt32.size : Int) ∣ s.forgotten pops) ∧
    t.agenda.elapsedWrapping + UInt32.ofInt (s.forgotten pops) =
      s.agenda.elapsedWrapping + UInt32.ofInt (elapsed (s.processEventChanges pops)) ∧
    (0 ≤ s.forgotten pops ∧ s.forgotten pops ≤ elapsed (s.processEventChanges pops)) ∧
    (Trail (fun a c => ¬c.Reloads a) s.agenda (s.processEventChanges pops) → s.forgotten pops = 0) := by
  have law := Scheduler.elapsedWrapping_processEvent ended
  have range := forgotten_range (a := s.agenda) (Int.le_refl 0) nonneg
  rw [Int.zero_add] at range
  refine ⟨?_, law, range, fun folds => forgotten_eq_zero folds⟩
  rw [← law, ← ofInt_eq_zero_iff]
  constructor
  · intro kept
    exact (UInt32.add_right_inj _).1 (kept.symm.trans (UInt32.add_zero _).symm)
  · intro nothing
    rw [nothing, UInt32.add_zero]

end

/-- The only unit of a queue spends five ticks when it fires, and time stands still. -/
theorem last_unit_spends_in_vain :
    ∃ s t : Scheduler MemoryImages Unit, s.processEvent 1 = some (.ok (), t) ∧
      s.processEventChanges 1 = [.settled, .popped 0 0, .spent 5, .rested] ∧ s.forgotten 1 = 5 ∧
      t.agenda.elapsedWrapping = s.agenda.elapsedWrapping ∧
      t.agenda.elapsedWrapping ≠
        s.agenda.elapsedWrapping + UInt32.ofInt (elapsed (s.processEventChanges 1)) := by
  let first : Scheduler MemoryImages Unit := .start 100 1 () default (.empty none)
  let spends : Program Unit := .call (.consume 5) fun _ => .done (.ok ())
  let ready := (first.perform (.addUnit { name := "A" })).2.modifySlot 0 fun slot =>
    { slot with action := some spends }
  let s := (ready.perform (.activate 0 0)).2
  have changes : s.processEventChanges 1 = [.settled, .popped 0 0, .spent 5, .rested] := by decide +kernel
  have spent : elapsed (s.processEventChanges 1) = 5 := by decide +kernel
  have vain : s.forgotten 1 = 5 := by decide +kernel
  have ends : (s.processEvent 1).map Prod.fst = some (.ok ()) := by decide +kernel
  obtain ⟨⟨_, t⟩, ended, rfl⟩ := Option.map_eq_some_iff.1 ends
  obtain ⟨exactly, law, -⟩ := dispatch_keeps_time_iff ended (by decide +kernel)
  rw [vain, spent] at law
  refine ⟨s, t, ended, changes, vain, (UInt32.add_left_inj _).1 law, fun kept => ?_⟩
  have none := exactly.1 kept
  rw [vain] at none
  exact absurd none (by decide)

end Peripheral
