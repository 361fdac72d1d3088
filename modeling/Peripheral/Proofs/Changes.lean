import Peripheral.Agenda.Lemmas

/-!
# Changes of an agenda

Whatever a run does, it changes its agenda in six ways. A history lists the changes in order; the
agenda at any moment of a run is what the history up to that moment makes of the first one.

* `Change` : a change; `Change.apply`, `Agenda.after` : what a change, what a history makes of an
  agenda;
* `Change.Possible` : the changes that a run can make;
* `Trail P a h` : every change of `h` meets `P` at the agenda that it is made to, from `a` on
  (`Trail.append`, `Trail.mono`, `Trail.invariant`);
* `nodup_after` : **no history puts a unit into the queue twice**.
-/

namespace Peripheral

/-- A change of an agenda in the course of a run. -/
inductive Change where
  /-- Ticks are spent. -/
  | spent (ticks : Int32)
  /-- An idle unit is put into the queue. -/
  | queued (u : UnitId) (ticks : Int32)
  /-- A pending unit is taken out of the queue. -/
  | removed (u : UnitId)
  /-- Spent ticks are folded into simulated time. -/
  | settled
  /-- The dispatcher takes a unit off the head of the queue; `offset` is what it has there. -/
  | popped (u : UnitId) (offset : Int32)
  /-- An empty queue is waited on anew. -/
  | rested
deriving DecidableEq, Repr

namespace Change

def apply : Change → Agenda → Agenda
  | .spent ticks, a => a.consume ticks
  | .queued u ticks, a => a.insert u ticks
  | .removed u, a => a.remove u
  | .settled, a => a.settle
  | .popped _ _, a => (a.pop?.map Prod.snd).getD a
  | .rested, a => a.rearm

/-- The changes that a run can make to an agenda: only idle units are put into the queue, only
pending ones are taken out, and only an empty queue is waited on. -/
def Possible (a : Agenda) : Change → Prop
  | .queued u _ => u ∉ a.units
  | .removed u => u ∈ a.units
  | .popped u offset => ∃ rest, a.queue = ⟨u, offset⟩ :: rest
  | .rested => a.queue = []
  | .spent _ | .settled => True

instance (a : Agenda) (c : Change) : Decidable (c.Possible a) :=
  match c with
  | .queued u _ => inferInstanceAs (Decidable (u ∉ a.units))
  | .removed u => inferInstanceAs (Decidable (u ∈ a.units))
  | .popped u offset =>
    decidable_of_iff (a.queue.head? = some ⟨u, offset⟩) List.head?_eq_some_iff
  | .rested => inferInstanceAs (Decidable (a.queue = []))
  | .spent _ | .settled => inferInstanceAs (Decidable True)

end Change

def Agenda.after (a : Agenda) (h : List Change) : Agenda := h.foldl (fun a c => c.apply a) a

namespace Agenda

theorem remove_of_idle {u : UnitId} {a : Agenda} (idle : u ∉ a.units) : a.remove u = a := by
  unfold remove
  rw [if_neg (by simpa using idle)]

@[simp] theorem after_nil (a : Agenda) : a.after [] = a := rfl

@[simp] theorem after_cons (a : Agenda) (c : Change) (h : List Change) :
    a.after (c :: h) = (c.apply a).after h := rfl

@[simp] theorem after_append (a : Agenda) (h₁ h₂ : List Change) :
    a.after (h₁ ++ h₂) = (a.after h₁).after h₂ := List.foldl_append

end Agenda

/-! ## Trails -/

/-- Every change of a history meets `P` at the agenda that it is made to, from `a` on. -/
def Trail (P : Agenda → Change → Prop) : Agenda → List Change → Prop
  | _, [] => True
  | a, c :: h => P a c ∧ Trail P (c.apply a) h

instance decidableTrail (P : Agenda → Change → Prop) [∀ a c, Decidable (P a c)] (a : Agenda) :
    ∀ h, Decidable (Trail P a h)
  | [] => inferInstanceAs (Decidable True)
  | c :: h =>
    have := decidableTrail P (c.apply a) h
    inferInstanceAs (Decidable (P a c ∧ Trail P (c.apply a) h))

namespace Trail

variable {P Q : Agenda → Change → Prop} {a : Agenda}

@[simp] theorem nil : Trail P a [] := trivial

@[simp] theorem cons_iff {c : Change} {h : List Change} :
    Trail P a (c :: h) ↔ P a c ∧ Trail P (c.apply a) h := Iff.rfl

@[simp] theorem append {h₁ h₂ : List Change} :
    Trail P a (h₁ ++ h₂) ↔ Trail P a h₁ ∧ Trail P (a.after h₁) h₂ := by
  induction h₁ generalizing a with
  | nil => simp
  | cons c h ih => simp [ih, and_assoc]

theorem mono {h : List Change} (imp : ∀ a c, P a c → Q a c) (t : Trail P a h) : Trail Q a h := by
  induction h generalizing a with
  | nil => trivial
  | cons c h ih => exact ⟨imp a c t.1, ih t.2⟩

theorem and {h : List Change} (p : Trail P a h) (q : Trail Q a h) :
    Trail (fun a c => P a c ∧ Q a c) a h := by
  induction h generalizing a with
  | nil => trivial
  | cons c h ih => exact ⟨⟨p.1, q.1⟩, ih p.2 q.2⟩

theorem of_isPrefix {h m : List Change} (t : Trail P a h) (moment : m <+: h) : Trail P a m := by
  obtain ⟨rest, rfl⟩ := moment
  exact (append.1 t).1

/-- What each change of a trail preserves holds after the whole of it. -/
theorem invariant {I : Agenda → Prop} {h : List Change} (t : Trail P a h)
    (step : ∀ a c, P a c → I a → I (c.apply a)) (first : I a) : I (a.after h) := by
  induction h generalizing a with
  | nil => exact first
  | cons c h ih => exact ih t.2 (step a c t.1 first)

end Trail

/-! ## Each unit is pending once -/

theorem nodup_insert {u : UnitId} {ticks : Int32} {a : Agenda} (idle : u ∉ a.units)
    (h : a.units.Nodup) : (a.insert u ticks).units.Nodup := by
  obtain ⟨before, after, split, placed⟩ := a.units_insert u ticks
  rw [placed, List.perm_middle.nodup_iff, List.nodup_cons, ← split]
  exact ⟨idle, h⟩

theorem pop?_of_queue {e : Entry} {rest : List Entry} {a : Agenda} (h : a.queue = e :: rest) :
    ∃ b, a.pop? = some (e.unit, b) ∧ b.units = rest.map Entry.unit := by
  cases popped : a.pop? with
  | none =>
    rw [Agenda.pop?_eq_none_iff] at popped
    simp [Agenda.units, h] at popped
  | some answer =>
    obtain ⟨u, b⟩ := answer
    have units := Agenda.units_of_pop? popped
    simp only [Agenda.units, h, List.map_cons, List.cons.injEq] at units
    exact ⟨b, by rw [units.1], units.2.symm⟩

theorem units_popped {u : UnitId} {offset : Int32} {rest : List Entry} {a : Agenda}
    (h : a.queue = ⟨u, offset⟩ :: rest) :
    ((Change.popped u offset).apply a).units = rest.map Entry.unit := by
  obtain ⟨b, popped, units⟩ := pop?_of_queue h
  simp [Change.apply, popped, units]

theorem Change.nodup_apply {a : Agenda} {c : Change} (possible : c.Possible a)
    (h : a.units.Nodup) : (c.apply a).units.Nodup := by
  cases c with
  | spent ticks => exact h
  | queued u ticks => exact nodup_insert possible h
  | removed u =>
    rw [Change.apply, Agenda.units_remove]
    exact h.erase u
  | settled =>
    rw [Change.apply, Agenda.units_settle]
    exact h
  | popped u offset =>
    obtain ⟨rest, queue⟩ := possible
    rw [units_popped queue]
    simp only [Agenda.units, queue, List.map_cons, List.nodup_cons] at h
    exact h.2
  | rested =>
    rw [Change.apply, Agenda.units_rearm]
    exact h

theorem Change.length_apply {a : Agenda} {c : Change} (possible : c.Possible a) :
    (c.apply a).units.length ≤ a.units.length + 1 := by
  cases c with
  | spent ticks => exact Nat.le_succ _
  | queued u ticks =>
    obtain ⟨before, after, split, placed⟩ := a.units_insert u ticks
    rw [Change.apply, placed, split, List.length_append, List.length_append, List.length_cons]
    omega
  | removed u =>
    have shorter := List.length_erase_le (a := u) (l := a.units)
    rw [Change.apply, Agenda.units_remove]
    omega
  | settled =>
    rw [Change.apply, Agenda.units_settle]
    exact Nat.le_succ _
  | popped u offset =>
    obtain ⟨rest, queue⟩ := possible
    rw [units_popped queue]
    simp only [Agenda.units, queue, List.map_cons, List.length_cons]
    omega
  | rested =>
    rw [Change.apply, Agenda.units_rearm]
    exact Nat.le_succ _

theorem nodup_after {a : Agenda} {h : List Change} (t : Trail Change.Possible a h)
    (first : a.units.Nodup) : (a.after h).units.Nodup :=
  t.invariant (fun _ _ => Change.nodup_apply) first

end Peripheral
