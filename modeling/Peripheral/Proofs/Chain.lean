import Mathlib.Data.List.Nodup
import Peripheral.Proofs.Changes

/-!
# The queue as a chain of units

Every pending unit holds a link to the next one and its offset; the clock holds a link to the first
one. Changes of the queue walk along the links and put new ones in place. A walk may never come to
an end, or come to a unit without a link: then the chain is broken. Walks are bounded by the number
of links that they may follow (`links`); the number of pending units suffices for a whole chain.

* `Chain` : links and offsets by unit; `Chain.step`, `Chain.replay` : a change, a history;
* `Chain.Holds c a` : the chain `c` holds the agenda `a` (`Holds.link?`, `Holds.offsetOf`);
* `holds_insert`, `holds_remove`, `holds_pop` : no change breaks a chain that holds an agenda, and
  the chain after it holds the agenda after it;
* `replay_holds` : **the chain that a history leaves behind holds the agenda that it leaves behind**.
-/

namespace Peripheral

/-- The queue as units hold it, and the clock. -/
structure Chain where
  /-- The first pending unit. -/
  head : Link
  /-- What follows a unit; `none` for an idle one. -/
  link : UnitId → Option Link
  /-- Ticks between a unit and the one before it. -/
  offset : UnitId → Int32
  interval : Int32
  idleTime : Int32
  idleWait : Int32
  time : Float
  clock : UInt32

/-- The outcome of a walk along links: none if it does not end within its bound, a unit if that one
lacks a link. -/
abbrev Walked := ExceptT UnitId Option

/-- The walk is not at its end after all links that it may follow. -/
def Walked.unending {α : Type} : Walked α := ExceptT.mk none

namespace Chain

def start (idleWait : Int32) : Chain :=
  { head := .last, link := fun _ => none, offset := fun _ => 0
    interval := 0, idleTime := 0, idleWait, time := 0, clock := 0 }

def setLink (u : UnitId) (l : Option Link) (c : Chain) : Chain :=
  { c with link := Function.update c.link u l }

def setOffset (u : UnitId) (t : Int32) (c : Chain) : Chain :=
  { c with offset := Function.update c.offset u t }

/-- What follows a pending unit. -/
def linkOf (u : UnitId) (c : Chain) : Walked Link :=
  match c.link u with
  | some l => pure l
  | none => throw u

def reference (c : Chain) : Int32 :=
  match c.head with
  | .last => c.idleTime
  | .next u => c.offset u

def consume (ticks : Int32) (c : Chain) : Chain := { c with interval := c.interval - ticks }

def settle (c : Chain) : Chain :=
  let unaccounted := c.reference - c.interval
  let c := { c with time := c.time + Ticks.toFloat unaccounted
                    clock := c.clock + unaccounted.toUInt32 }
  match c.head with
  | .last => { c with idleTime := c.interval }
  | .next u => c.setOffset u c.interval

def rearm (c : Chain) : Chain :=
  match c.head with
  | .last => { c with interval := c.idleWait, idleTime := c.idleWait }
  | .next u => { c with interval := c.offset u }

/-- Walk past all units that are due no later: the last of them, the ticks up to it, and what
follows. -/
def seek (ticks : Int32) (c : Chain) :
    Nat → Option UnitId → Int32 → Link → Walked (Option UnitId × Int32 × Link)
  | _, prev, passed, .last => pure (prev, passed, .last)
  | 0, _, _, .next _ => .unending
  | links + 1, prev, passed, .next v =>
    if ticks < Ticks.addSat passed (c.offset v) then pure (prev, passed, .next v)
    else do
      let following ← c.linkOf v
      seek ticks c links (some v) (Ticks.addSat passed (c.offset v)) following

/-- Let a unit follow another one, or be the first. -/
def lead (prev : Option UnitId) (u : UnitId) (c : Chain) : Chain :=
  match prev with
  | none => { c with head := .next u }
  | some p => c.setLink p (some (.next u))

def adjust (l : Link) (f : Int32 → Int32) (c : Chain) : Chain :=
  match l with
  | .last => c
  | .next v => c.setOffset v (f (c.offset v))

def insert (links : Nat) (u : UnitId) (ticks : Int32) (c : Chain) : Walked Chain := do
  let c := c.settle
  let ticks := max ticks 0
  let (prev, passed, cursor) ← c.seek ticks links none 0 c.head
  let offset := ticks - passed
  let c := ((c.lead prev u).setLink u (some cursor)).setOffset u offset
  return (c.adjust cursor (· - offset)).rearm

/-- Walk to the unit before `u` and lead it past `u`. -/
def bypass (u : UnitId) (successor : Link) (c : Chain) : Nat → Link → Walked Chain
  | _, .last => pure c
  | 0, .next _ => .unending
  | links + 1, .next v => do
    let next ← c.linkOf v
    if next = .next u then pure ((c.setLink v (some successor)).setLink u none)
    else bypass u successor c links next

/-- Lead the links past a pending unit. -/
def unhook (links : Nat) (u : UnitId) (successor : Link) (c : Chain) : Walked Chain :=
  if c.head = .next u then pure ({ c with head := successor }.setLink u none)
  else c.bypass u successor links c.head

/-- Take a pending unit out. A unit that still has a link after that means a broken chain. -/
def remove (links : Nat) (u : UnitId) (c : Chain) : Walked Chain := do
  let c := c.settle
  let successor ← c.linkOf u
  let c ← c.unhook links u successor
  let c :=
    if (c.link u).isNone then (c.adjust successor (· + c.offset u)).setOffset u 0 else c
  let c := c.rearm
  if (c.link u).isSome then throw u else return c

def pop (c : Chain) : Walked Chain :=
  match c.head with
  | .last => pure c
  | .next u => do
    let next ← c.linkOf u
    let c := { c with head := next, interval := c.interval - c.offset u }
    let c := (c.setLink u none).setOffset u 0
    match next with
    | .last => return c.rearm
    | .next v => return { c with interval := c.interval + c.offset v }

def step (links : Nat) (c : Chain) : Change → Walked Chain
  | .spent ticks => pure (c.consume ticks)
  | .queued u ticks => c.insert links u ticks
  | .removed u => c.remove links u
  | .settled => pure c.settle
  | .popped _ _ => c.pop
  | .rested => pure c.rearm

def replay (links : Nat) (c : Chain) (h : List Change) : Walked Chain := h.foldlM (step links) c

/-! ## Chains that hold an agenda -/

/-- The link to the first of some entries, `after` if there are none. -/
def toward (after : Link) : List Entry → Link
  | [] => after
  | e :: _ => .next e.unit

/-- Entries are held by their units, each linked to the next one and the last to `after`. -/
def Stores (after : Link) (c : Chain) : List Entry → Prop
  | [] => True
  | e :: rest =>
    c.link e.unit = some (toward after rest) ∧ c.offset e.unit = e.offset ∧ Stores after c rest

def adjustFirst (f : Int32 → Int32) : List Entry → List Entry
  | [] => []
  | e :: rest => { e with offset := f e.offset } :: rest

/-- The clocks of a chain and of an agenda show the same. -/
def Shows (c : Chain) (a : Agenda) : Prop :=
  c.interval = a.interval ∧ c.idleTime = a.idleTime ∧ c.idleWait = a.idleWait ∧ c.time = a.time ∧
    c.clock = a.clock

/-- A chain holds an agenda: its queue from the head on, nothing of it in idle units, and its
clock. -/
structure Holds (c : Chain) (a : Agenda) : Prop where
  head : c.head = toward .last a.queue
  stores : c.Stores .last a.queue
  idle : ∀ u ∉ a.units, c.link u = none ∧ c.offset u = 0
  shows : c.Shows a

/-! ## Storage -/

section
variable {c d : Chain} {after : Link} {p q : List Entry}

theorem toward_append : toward after (p ++ q) = toward (toward after q) p := by
  cases p <;> rfl

theorem stores_append :
    c.Stores after (p ++ q) ↔ c.Stores (toward after q) p ∧ c.Stores after q := by
  induction p with
  | nil => simp [Stores]
  | cons e p ih => simp only [List.cons_append, Stores, toward_append, ih, and_assoc]

theorem Stores.congr (h : c.Stores after q)
    (same : ∀ e ∈ q, d.link e.unit = c.link e.unit ∧ d.offset e.unit = c.offset e.unit) :
    d.Stores after q := by
  induction q with
  | nil => trivial
  | cons e q ih =>
    obtain ⟨link, offset, rest⟩ := h
    obtain ⟨link', offset'⟩ := same e List.mem_cons_self
    exact ⟨link'.trans link, offset'.trans offset,
      ih rest fun f there => same f (List.mem_cons_of_mem _ there)⟩

theorem linkOf_of_link {u : UnitId} {l : Link} (h : c.link u = some l) : c.linkOf u = pure l := by
  simp [linkOf, h]

@[simp] theorem toward_adjustFirst (f : Int32 → Int32) (q : List Entry) :
    toward after (adjustFirst f q) = toward after q := by
  cases q <;> rfl

@[simp] theorem map_unit_adjustFirst (f : Int32 → Int32) (q : List Entry) :
    (adjustFirst f q).map Entry.unit = q.map Entry.unit := by
  cases q <;> rfl

end

/-! ## The clock -/

theorem Holds.reference {c : Chain} {a : Agenda} (h : c.Holds a) : c.reference = a.reference := by
  unfold Chain.reference Agenda.reference
  rw [h.head]
  cases queue : a.queue with
  | nil => exact h.shows.2.1
  | cons e rest =>
    have stores := h.stores
    rw [queue] at stores
    exact stores.2.1

theorem Holds.consume {c : Chain} {a : Agenda} (h : c.Holds a) (ticks : Int32) :
    (c.consume ticks).Holds (a.consume ticks) := by
  refine ⟨h.head, h.stores.congr fun _ _ => ⟨rfl, rfl⟩, h.idle, ?_, h.shows.2⟩
  rw [Chain.consume, Agenda.consume, h.shows.1]

theorem settle_of_last {c : Chain} (h : c.head = .last) :
    c.settle =
      { c with idleTime := c.interval, time := c.time + Ticks.toFloat (c.reference - c.interval)
               clock := c.clock + (c.reference - c.interval).toUInt32 } := by
  simp [Chain.settle, h]

theorem settle_of_next {c : Chain} {u : UnitId} (h : c.head = .next u) :
    c.settle =
      { c with offset := Function.update c.offset u c.interval
               time := c.time + Ticks.toFloat (c.reference - c.interval)
               clock := c.clock + (c.reference - c.interval).toUInt32 } := by
  simp [Chain.settle, Chain.setOffset, h]

theorem Holds.settle {c : Chain} {a : Agenda} (h : c.Holds a) (nodup : a.units.Nodup) :
    c.settle.Holds a.settle := by
  have reference := h.reference
  obtain ⟨head, stores, idle, interval, idleTime, idleWait, time, clock⟩ := h
  unfold Agenda.settle Agenda.elapsed Agenda.elapsedWrapping Agenda.unaccounted
  unfold Agenda.units at idle nodup
  cases queue : a.queue with
  | nil =>
    rw [queue] at head idle
    rw [settle_of_last head, reference, interval, time, clock]
    exact ⟨head, trivial, idle, rfl, rfl, idleWait, rfl, rfl⟩
  | cons e rest =>
    rw [queue] at head stores idle nodup
    rw [settle_of_next head, reference, interval, time, clock]
    obtain ⟨link, offset, others⟩ := stores
    rw [List.map_cons, List.nodup_cons] at nodup
    refine ⟨head, ⟨link, Function.update_self .., others.congr fun f there => ⟨rfl, ?_⟩⟩,
      fun v out => ?_, rfl, idleTime, idleWait, rfl, rfl⟩
    · have apart : f.unit ≠ e.unit := fun same =>
        nodup.1 (same ▸ List.mem_map_of_mem there)
      exact Function.update_of_ne apart ..
    · have apart : v ≠ e.unit := fun same => out (by simp [Agenda.units, same])
      obtain ⟨link, offset⟩ := idle v out
      exact ⟨link, (Function.update_of_ne apart ..).trans offset⟩

theorem rearm_of_last {c : Chain} (h : c.head = .last) :
    c.rearm = { c with interval := c.idleWait, idleTime := c.idleWait } := by
  simp [Chain.rearm, h]

theorem rearm_of_next {c : Chain} {u : UnitId} (h : c.head = .next u) :
    c.rearm = { c with interval := c.offset u } := by
  simp [Chain.rearm, h]

theorem Holds.rearm {c : Chain} {a : Agenda} (h : c.Holds a) : c.rearm.Holds a.rearm := by
  obtain ⟨head, stores, idle, interval, idleTime, idleWait, time, clock⟩ := h
  unfold Agenda.rearm
  unfold Agenda.units at idle
  cases queue : a.queue with
  | nil =>
    rw [queue] at head idle
    rw [rearm_of_last head]
    exact ⟨head, trivial, idle, idleWait, idleWait, idleWait, time, clock⟩
  | cons e rest =>
    rw [queue] at head stores idle
    rw [rearm_of_next head]
    exact ⟨head, stores.congr fun _ _ => ⟨rfl, rfl⟩, idle, stores.2.1, idleTime, idleWait, time,
      clock⟩

/-! ## Insertion -/

def lastOf (prev : Option UnitId) : List Entry → Option UnitId
  | [] => prev
  | e :: rest => lastOf (some e.unit) rest

@[simp] theorem lastOf_concat (prev : Option UnitId) (p : List Entry) (e : Entry) :
    lastOf prev (p ++ [e]) = some e.unit := by
  induction p generalizing prev with
  | nil => rfl
  | cons f p ih => exact ih _

/-- The walk of an insertion ends where the queue takes the unit in. -/
theorem seek_toward {c : Chain} {q : List Entry} {links : Nat} (ticks : Int32)
    (prev : Option UnitId) (passed : Int32) (h : c.Stores .last q) (room : q.length ≤ links) :
    ∃ before after reached, q = before ++ after ∧
      c.seek ticks links prev passed (toward .last q) =
        pure (lastOf prev before, reached, toward .last after) ∧
      ∀ u, Agenda.place u ticks passed q = before ++ ⟨u, ticks - reached⟩ ::
        adjustFirst (· - (ticks - reached)) after := by
  induction q generalizing prev passed links with
  | nil => exact ⟨[], [], passed, rfl, by rw [toward, seek]; rfl, fun u => rfl⟩
  | cons e q ih =>
    obtain ⟨link, offset, rest⟩ := h
    obtain ⟨links, rfl⟩ : ∃ more, links = more + 1 := Nat.exists_eq_add_one.2 (by
      rw [List.length_cons] at room
      omega)
    rw [toward, seek, offset]
    by_cases soon : ticks < Ticks.addSat passed e.offset
    · refine ⟨[], e :: q, passed, rfl, if_pos soon, fun u => ?_⟩
      simp only [Agenda.place, if_pos soon, List.nil_append, adjustFirst]
    · obtain ⟨before, after, reached, split, walk, placed⟩ :=
        ih (some e.unit) (Ticks.addSat passed e.offset) rest (Nat.le_of_succ_le_succ room)
      refine ⟨e :: before, after, reached, by rw [split, List.cons_append], ?_, fun u => ?_⟩
      · rw [if_neg soon, linkOf_of_link link, pure_bind, walk]
        rfl
      · simp only [Agenda.place, if_neg soon, placed u, List.cons_append]

section
variable {c : Chain} {u v : UnitId} {l : Link} {f : Int32 → Int32}

@[simp] theorem link_setOffset (t : Int32) : (c.setOffset u t).link = c.link := rfl

@[simp] theorem offset_setLink (k : Option Link) : (c.setLink u k).offset = c.offset := rfl

@[simp] theorem offset_lead (prev : Option UnitId) : (c.lead prev u).offset = c.offset := by
  cases prev <;> rfl

@[simp] theorem link_rearm : c.rearm.link = c.link := by
  unfold Chain.rearm
  split <;> rfl

@[simp] theorem link_adjust : (c.adjust l f).link = c.link := by
  cases l <;> rfl

@[simp] theorem head_adjust : (c.adjust l f).head = c.head := by
  cases l <;> rfl

theorem link_setLink_of_ne (k : Option Link) (apart : v ≠ u) :
    (c.setLink u k).link v = c.link v := Function.update_of_ne apart ..

theorem offset_setOffset_of_ne (t : Int32) (apart : v ≠ u) :
    (c.setOffset u t).offset v = c.offset v := Function.update_of_ne apart ..

theorem link_setLink_self (k : Option Link) : (c.setLink u k).link u = k :=
  Function.update_self ..

theorem offset_setOffset_self (t : Int32) : (c.setOffset u t).offset u = t :=
  Function.update_self ..

theorem shows_adjust {a : Agenda} (h : c.Shows a) : (c.adjust l f).Shows a := by
  cases l <;> exact h

theorem shows_lead {a : Agenda} {prev : Option UnitId} (h : c.Shows a) :
    (c.lead prev u).Shows a := by
  cases prev <;> exact h

theorem offset_adjust_of_ne (apart : l ≠ .next v) : (c.adjust l f).offset v = c.offset v := by
  cases l with
  | last => rfl
  | next w => exact offset_setOffset_of_ne _ fun same => apart (by rw [same])

theorem toward_ne {q : List Entry} (out : v ∉ q.map Entry.unit) : toward .last q ≠ .next v := by
  cases q with
  | nil => simp [toward]
  | cons e q =>
    rw [toward, ne_eq, Link.next.injEq]
    rintro rfl
    exact out (by simp)

theorem Stores.adjust {p q : List Entry} (h : c.Stores .last (p ++ q))
    (nodup : ((p ++ q).map Entry.unit).Nodup) :
    (c.adjust (toward .last q) f).Stores .last (p ++ adjustFirst f q) := by
  rw [List.map_append, List.nodup_append] at nodup
  obtain ⟨-, nodup, disjoint⟩ := nodup
  rw [stores_append] at h ⊢
  rw [toward_adjustFirst]
  obtain ⟨front, back⟩ := h
  refine ⟨front.congr fun e there => ⟨by rw [link_adjust], offset_adjust_of_ne ?_⟩, ?_⟩
  · exact toward_ne fun twice => disjoint _ (List.mem_map_of_mem there) _ twice rfl
  · cases q with
    | nil => trivial
    | cons e q =>
      obtain ⟨link, offset, rest⟩ := back
      rw [List.map_cons, List.nodup_cons] at nodup
      refine ⟨by rw [link_adjust]; exact link, ?_, rest.congr fun g there => ?_⟩
      · rw [toward, Chain.adjust, offset_setOffset_self, offset]
      · exact ⟨by rw [link_adjust], offset_adjust_of_ne
          (toward_ne (q := [e]) fun twice => nodup.1 (by
            rw [List.map_singleton, List.mem_singleton] at twice
            exact twice ▸ List.mem_map_of_mem there))⟩

end

theorem Stores.splice {c : Chain} {u : UnitId} {before after : List Entry}
    (h : c.Stores .last (before ++ after)) (nodup : ((before ++ after).map Entry.unit).Nodup)
    (idle : u ∉ (before ++ after).map Entry.unit) (offset : Int32) :
    (((c.lead (lastOf none before) u).setLink u (some (toward .last after))).setOffset u
      offset).Stores .last (before ++ ⟨u, offset⟩ :: after) := by
  rw [List.map_append, List.mem_append, not_or] at idle
  rw [List.map_append, List.nodup_append] at nodup
  obtain ⟨nodup, -, disjoint⟩ := nodup
  obtain ⟨front, back⟩ := stores_append.1 h
  have apart : ∀ {e : Entry} {q : List Entry}, e ∈ q → u ∉ q.map Entry.unit → e.unit ≠ u :=
    fun there out same => out (same ▸ List.mem_map_of_mem there)
  rw [stores_append]
  rcases List.eq_nil_or_concat' before with rfl | ⟨init, p, rfl⟩
  · refine ⟨trivial, link_setLink_self _, offset_setOffset_self _, back.congr fun e there => ?_⟩
    have other := apart there idle.2
    refine ⟨?_, ?_⟩
    · rw [link_setOffset, link_setLink_of_ne _ other]
      rfl
    · rw [offset_setOffset_of_ne _ other]
      rfl
  · rw [lastOf_concat]
    have led : ∀ e : Entry, e.unit ≠ u → e.unit ≠ p.unit →
        (((c.lead (some p.unit) u).setLink u (some (toward .last after))).setOffset u
            offset).link e.unit = c.link e.unit ∧
          (((c.lead (some p.unit) u).setLink u (some (toward .last after))).setOffset u
            offset).offset e.unit = c.offset e.unit := by
      intro e other before
      refine ⟨?_, ?_⟩
      · rw [link_setOffset, link_setLink_of_ne _ other, lead, link_setLink_of_ne _ before]
      · rw [offset_setOffset_of_ne _ other, offset_setLink, offset_lead]
    rw [stores_append] at front
    obtain ⟨init_front, -, last, -⟩ := front
    have p_apart : p.unit ≠ u := apart (by simp) idle.1
    simp only [List.map_append, List.map_cons, List.map_nil, List.nodup_append] at nodup
    refine ⟨stores_append.2 ⟨init_front.congr fun e there => ?_, ?_, ?_, trivial⟩, ?_, ?_, ?_⟩
    · exact led e (apart (List.mem_append_left _ there) idle.1)
        (nodup.2.2 _ (List.mem_map_of_mem there) _ List.mem_cons_self)
    · rw [link_setOffset, link_setLink_of_ne _ p_apart, lead, link_setLink_self]
      rfl
    · rw [offset_setOffset_of_ne _ p_apart, offset_setLink, offset_lead]
      exact last
    · exact link_setLink_self _
    · exact offset_setOffset_self _
    · refine back.congr fun e there => led e (apart there idle.2) fun same => ?_
      exact disjoint p.unit (by simp) e.unit (List.mem_map_of_mem there) same.symm

theorem holds_insert {c : Chain} {a : Agenda} {u : UnitId} {links : Nat} (ticks : Int32)
    (h : c.Holds a) (nodup : a.units.Nodup) (room : a.units.length ≤ links) (idle : u ∉ a.units) :
    ∃ d, c.insert links u ticks = pure d ∧ d.Holds (a.insert u ticks) := by
  have settled := h.settle nodup
  rw [← Agenda.units_settle, Agenda.units, List.length_map] at room
  obtain ⟨before, after, reached, split, walk, placed⟩ :=
    seek_toward (max ticks 0) none 0 settled.stores room
  rw [← Agenda.units_settle] at nodup idle
  unfold Chain.insert
  dsimp only
  rw [settled.head, walk, pure_bind]
  dsimp only
  refine ⟨_, rfl, Holds.rearm ?_⟩
  rw [placed u]
  obtain ⟨head, stores, others, shows⟩ := settled
  unfold Agenda.units at nodup idle others
  rw [split] at nodup idle stores head others
  generalize c.settle = c at *
  have spliced := stores.splice nodup idle (max ticks 0 - reached)
  rw [List.append_cons] at spliced
  have adjusted := spliced.adjust (f := (· - (max ticks 0 - reached))) (by
    rw [← List.append_cons, List.map_append, List.map_cons, List.nodup_middle, ← List.map_append]
    exact List.nodup_cons.2 ⟨idle, nodup⟩)
  rw [← List.append_cons] at adjusted
  refine ⟨?_, adjusted, fun v out => ?_, shows_adjust (shows_lead shows)⟩
  · rw [head_adjust]
    show (c.lead (lastOf none before) u).head = _
    rcases List.eq_nil_or_concat' before with rfl | ⟨init, p, rfl⟩
    · rfl
    · rw [lastOf_concat]
      simp only [List.append_assoc, toward_append] at head ⊢
      exact head
  · simp only [Agenda.units, List.map_append, List.map_cons, map_unit_adjustFirst, List.mem_append,
      List.mem_cons, not_or] at out
    obtain ⟨front, other, back⟩ := out
    obtain ⟨link, offset⟩ := others v (by
      rw [List.map_append, List.mem_append, not_or]
      exact ⟨front, back⟩)
    refine ⟨?_, ?_⟩
    · rw [link_adjust, link_setOffset, link_setLink_of_ne _ other]
      rcases List.eq_nil_or_concat' before with rfl | ⟨init, p, rfl⟩
      · exact link
      · rw [lastOf_concat, lead, link_setLink_of_ne _ (by rintro rfl; simp at front)]
        exact link
    · rw [offset_adjust_of_ne (toward_ne back), offset_setOffset_of_ne _ other, offset_setLink,
        offset_lead]
      exact offset

/-! ## Removal -/

theorem split_of_mem {u : UnitId} {q : List Entry} (pending : u ∈ q.map Entry.unit) :
    ∃ before e after, q = before ++ e :: after ∧ e.unit = u ∧ u ∉ before.map Entry.unit ∧
      Agenda.unlink u q = before ++ adjustFirst (· + e.offset) after := by
  induction q with
  | nil => simp at pending
  | cons f q ih =>
    by_cases here : f.unit = u
    · refine ⟨[], f, q, rfl, here, by simp, ?_⟩
      rw [Agenda.unlink.eq_def]
      cases q with
      | nil => simp [here, adjustFirst]
      | cons g q => simp [here, adjustFirst]
    · rw [List.map_cons, List.mem_cons] at pending
      obtain ⟨before, e, after, split, is, first, rest⟩ :=
        ih (pending.resolve_left fun same => here same.symm)
      refine ⟨f :: before, e, after, by rw [split, List.cons_append], is, ?_, ?_⟩
      · rw [List.map_cons, List.mem_cons, not_or]
        exact ⟨fun same => here same.symm, first⟩
      · rw [Agenda.unlink.eq_def]
        simp only [if_neg here, rest, List.cons_append]

theorem bypass_toward {c : Chain} {u : UnitId} {successor : Link} {init : List Entry} {p : Entry}
    {links : Nat} (h : c.Stores (.next u) (init ++ [p])) (out : u ∉ (init ++ [p]).map Entry.unit)
    (room : init.length < links) :
    c.bypass u successor links (toward (.next u) (init ++ [p])) =
      pure ((c.setLink p.unit (some successor)).setLink u none) := by
  obtain ⟨links, rfl⟩ : ∃ more, links = more + 1 := Nat.exists_eq_add_one.2 (by omega)
  induction init generalizing links with
  | nil =>
    obtain ⟨link, -, -⟩ := h
    rw [List.nil_append, toward, bypass, linkOf_of_link link, pure_bind]
    exact if_pos rfl
  | cons f init ih =>
    have link : c.link f.unit = some (toward (.next u) (init ++ [p])) := h.1
    have rest : c.Stores (.next u) (init ++ [p]) := h.2.2
    rw [List.cons_append, List.map_cons, List.mem_cons, not_or] at out
    have on : toward (.next u) (init ++ [p]) ≠ .next u := by
      intro same
      cases init with
      | nil => exact out.2 (by simpa [toward] using same.symm)
      | cons g init => exact out.2 (by simp [toward] at same; simp [same])
    rw [List.length_cons] at room
    obtain ⟨links, rfl⟩ : ∃ more, links = more + 1 := Nat.exists_eq_add_one.2 (by omega)
    rw [List.cons_append, toward, bypass, linkOf_of_link link, pure_bind, if_neg on]
    exact ih rest out.2 links (by omega)

theorem Stores.unhook {c : Chain} {before after : List Entry} {e : Entry} (links : Nat)
    (room : before.length ≤ links) (head : c.head = toward .last (before ++ e :: after))
    (h : c.Stores .last (before ++ e :: after))
    (nodup : ((before ++ e :: after).map Entry.unit).Nodup) :
    ∃ d, c.unhook links e.unit (toward .last after) = pure d ∧
      d.head = toward .last (before ++ after) ∧ d.Stores .last (before ++ after) ∧
      d.link e.unit = none ∧ d.offset = c.offset ∧
      (∀ v ∉ before.map Entry.unit, v ≠ e.unit → d.link v = c.link v) ∧
      ∀ a, c.Shows a → d.Shows a := by
  rw [List.map_append, List.map_cons, List.nodup_middle, List.nodup_cons, List.mem_append,
    not_or, List.nodup_append] at nodup
  obtain ⟨⟨first, later⟩, unique, -, disjoint⟩ := nodup
  obtain ⟨front, -, -, back⟩ := stores_append.1 h
  have apart : ∀ {f : Entry} {q : List Entry}, f ∈ q → e.unit ∉ q.map Entry.unit →
      f.unit ≠ e.unit := fun there out same => out (same ▸ List.mem_map_of_mem there)
  unfold Chain.unhook
  rcases List.eq_nil_or_concat' before with rfl | ⟨init, p, rfl⟩
  · rw [List.nil_append, toward] at head
    refine ⟨{ c with head := toward .last after }.setLink e.unit none, if_pos head, rfl, ?_,
      link_setLink_self _, rfl, fun v _ other => link_setLink_of_ne _ other, fun a shows => shows⟩
    exact back.congr fun f there => ⟨link_setLink_of_ne _ (apart there later), rfl⟩
  · refine ⟨(c.setLink p.unit (some (toward .last after))).setLink e.unit none, ?_, ?_, ?_,
      link_setLink_self _, rfl, ?_, fun a shows => shows⟩
    · have past : c.head = toward (.next e.unit) (init ++ [p]) := by
        rw [head, toward_append, toward]
      have near : init.length < links := by
        rw [List.length_append, List.length_singleton] at room
        exact room
      rw [past, if_neg, bypass_toward front first near]
      intro same
      cases init with
      | nil => exact apart (by simp) first (Link.next.inj same)
      | cons g init => exact apart (by simp) first (Link.next.inj same)
    · show c.head = _
      rw [head, List.append_assoc, List.append_assoc, toward_append, toward_append]
      cases init <;> rfl
    · have p_apart := apart (List.mem_append_right _ List.mem_cons_self) first
      simp only [List.map_append, List.map_cons, List.map_nil, List.nodup_append] at unique
      rw [stores_append] at front
      rw [List.append_assoc, stores_append]
      refine ⟨front.1.congr fun f there => ⟨?_, rfl⟩, ?_, front.2.2.1, back.congr fun f there =>
        ⟨?_, rfl⟩⟩
      · rw [link_setLink_of_ne _ (apart (List.mem_append_left _ there) first),
          link_setLink_of_ne]
        exact unique.2.2 _ (List.mem_map_of_mem there) _ List.mem_cons_self
      · rw [link_setLink_of_ne _ p_apart, link_setLink_self]
        rfl
      · rw [link_setLink_of_ne _ (apart there later), link_setLink_of_ne]
        intro same
        exact disjoint p.unit (by simp) f.unit (List.mem_map_of_mem there) same.symm
    · intro v out other
      rw [link_setLink_of_ne _ other, link_setLink_of_ne]
      rintro rfl
      exact out (by simp)

theorem holds_remove {c : Chain} {a : Agenda} {u : UnitId} {links : Nat} (h : c.Holds a)
    (nodup : a.units.Nodup) (room : a.units.length ≤ links) (pending : u ∈ a.units) :
    ∃ d, c.remove links u = pure d ∧ d.Holds (a.remove u) := by
  have settled := h.settle nodup
  rw [← Agenda.units_settle, Agenda.units, List.length_map] at room
  have active := Agenda.isActive_iff.2 pending
  rw [← Agenda.units_settle] at nodup pending
  unfold Agenda.units at nodup pending
  obtain ⟨before, e, after, split, rfl, first, unlinked⟩ := split_of_mem pending
  unfold Chain.remove Agenda.remove
  rw [if_pos active]
  dsimp only
  rw [unlinked]
  obtain ⟨head, stores, others, shows⟩ := settled
  unfold Agenda.units at others
  rw [split] at nodup stores head others room
  rw [List.length_append, List.length_cons] at room
  generalize c.settle = c at *
  obtain ⟨-, link, offset, -⟩ := stores_append.1 stores
  obtain ⟨d, unhooked, head', stores', link', offset', same, shows'⟩ :=
    Stores.unhook links (by omega) head stores nodup
  have stays : ((d.adjust (toward .last after) (· + e.offset)).setOffset e.unit 0).rearm.link
      e.unit = none := by
    rw [link_rearm, link_setOffset, link_adjust, link']
  have gone : (d.link e.unit).isNone = true := by rw [link']; rfl
  rw [linkOf_of_link link, pure_bind, unhooked, pure_bind]
  simp only [gone, if_true, offset', offset, stays, Option.isSome_none, Bool.false_eq_true,
    if_false]
  refine ⟨_, rfl, Holds.rearm ?_⟩
  rw [List.map_append, List.map_cons, List.nodup_middle, List.nodup_cons, List.mem_append,
    not_or, ← List.map_append] at nodup
  obtain ⟨⟨-, later⟩, unique⟩ := nodup
  have adjusted := stores'.adjust (f := (· + e.offset)) unique
  refine ⟨?_, adjusted.congr fun f there => ⟨rfl, offset_setOffset_of_ne _ ?_⟩, fun v out => ?_,
    shows_adjust (shows' _ shows)⟩
  · show (d.adjust (toward .last after) (· + e.offset)).head = _
    rw [head_adjust, head', toward_append, toward_append, toward_adjustFirst]
  · rintro same
    rcases List.mem_append.1 there with front | back
    · exact first (same ▸ List.mem_map_of_mem front)
    · refine later ?_
      rw [← map_unit_adjustFirst (· + e.offset), ← same]
      exact List.mem_map_of_mem back
  · simp only [Agenda.units, List.map_append, map_unit_adjustFirst, List.mem_append, not_or] at out
    by_cases here : v = e.unit
    · rw [here]
      exact ⟨by rw [link_setOffset, link_adjust, link'], offset_setOffset_self _⟩
    · obtain ⟨link, offset⟩ := others v (by
        rw [List.map_append, List.map_cons, List.mem_append, List.mem_cons, not_or, not_or]
        exact ⟨out.1, here, out.2⟩)
      refine ⟨?_, ?_⟩
      · rw [link_setOffset, link_adjust, same v out.1 here]
        exact link
      · rw [offset_setOffset_of_ne _ here, offset_adjust_of_ne (toward_ne out.2), offset']
        exact offset

theorem holds_pop {c : Chain} {a : Agenda} {e : Entry} {rest : List Entry} (h : c.Holds a)
    (nodup : a.units.Nodup) (queue : a.queue = e :: rest) :
    ∃ d, c.pop = pure d ∧ d.Holds ((Change.popped e.unit e.offset).apply a) := by
  obtain ⟨head, stores, others, shows⟩ := h
  unfold Agenda.units at nodup others
  rw [queue] at head stores nodup others
  obtain ⟨link, offset, back⟩ := stores
  rw [List.map_cons, List.nodup_cons] at nodup
  have apart : ∀ f ∈ rest, f.unit ≠ e.unit := fun f there same =>
    nodup.1 (same ▸ List.mem_map_of_mem there)
  let d := ({ c with head := toward .last rest, interval := c.interval - e.offset }.setLink e.unit
    none).setOffset e.unit 0
  have popped : c.pop = match toward .last rest with
      | .last => pure d.rearm
      | .next v => pure { d with interval := d.interval + d.offset v } := by
    unfold Chain.pop
    rw [head, toward]
    dsimp only
    rw [linkOf_of_link link, pure_bind, offset]
  have others' : ∀ v ∉ rest.map Entry.unit, d.link v = none ∧ d.offset v = 0 := by
    intro v out
    by_cases here : v = e.unit
    · rw [here]
      exact ⟨link_setLink_self _, offset_setOffset_self _⟩
    · obtain ⟨link, offset⟩ := others v (by
        rw [List.map_cons, List.mem_cons, not_or]
        exact ⟨here, out⟩)
      exact ⟨(link_setLink_of_ne _ here).trans link, (offset_setOffset_of_ne _ here).trans offset⟩
  have stores' : d.Stores .last rest := back.congr fun f there =>
    ⟨link_setLink_of_ne _ (apart f there), offset_setOffset_of_ne _ (apart f there)⟩
  rw [popped]
  obtain ⟨interval, idleTime, idleWait, time, clock⟩ := shows
  cases rest with
  | nil =>
    refine ⟨_, rfl, ?_⟩
    simp only [Change.apply, Agenda.pop?, queue, Option.map_some, Option.getD_some]
    have drained : d.Holds { a with queue := [], interval := d.interval } :=
      ⟨rfl, trivial, others', rfl, idleTime, idleWait, time, clock⟩
    exact drained.rearm
  | cons f rest =>
    refine ⟨_, rfl, ?_⟩
    simp only [Change.apply, Agenda.pop?, queue, Option.map_some, Option.getD_some]
    refine ⟨rfl, stores'.congr fun _ _ => ⟨rfl, rfl⟩, others', ?_, idleTime, idleWait, time, clock⟩
    show c.interval - e.offset + d.offset f.unit = _
    rw [stores'.2.1, interval]

/-! ## Histories -/

/-- No possible change breaks a chain that holds an agenda. -/
theorem step_holds {c : Chain} {a : Agenda} {x : Change} {links : Nat} (h : c.Holds a)
    (nodup : a.units.Nodup) (room : a.units.length ≤ links) (possible : x.Possible a) :
    ∃ d, c.step links x = pure d ∧ d.Holds (x.apply a) := by
  cases x with
  | spent ticks => exact ⟨_, rfl, h.consume ticks⟩
  | queued u ticks => exact holds_insert ticks h nodup room possible
  | removed u => exact holds_remove h nodup room possible
  | settled => exact ⟨_, rfl, h.settle nodup⟩
  | popped u offset =>
    obtain ⟨rest, queue⟩ := possible
    exact holds_pop h nodup queue
  | rested => exact ⟨_, rfl, h.rearm⟩

/-- The chain that a history leaves behind holds the agenda that it leaves behind. No walk follows more
links than units were pending at first and have been put into the queue since. -/
theorem replay_holds {c : Chain} {a : Agenda} {h : List Change} (links : Nat) (first : c.Holds a)
    (nodup : a.units.Nodup) (room : a.units.length + h.length ≤ links)
    (t : Trail Change.Possible a h) :
    ∃ d, c.replay links h = pure d ∧ d.Holds (a.after h) := by
  induction h generalizing c a with
  | nil => exact ⟨c, rfl, first⟩
  | cons x h ih =>
    rw [List.length_cons] at room
    have longer := Change.length_apply t.1
    obtain ⟨d, stepped, holds⟩ := step_holds first nodup (show a.units.length ≤ links by omega) t.1
    obtain ⟨e, replayed, last⟩ := ih holds (Change.nodup_apply t.1 nodup) (by omega) t.2
    refine ⟨e, ?_, last⟩
    rw [replay, List.foldlM_cons, stepped, pure_bind]
    exact replayed

theorem start_holds (idleWait : Int32) : (start idleWait).Holds (Agenda.start idleWait) :=
  ⟨rfl, trivial, fun _ _ => ⟨rfl, rfl⟩, rfl, rfl, rfl, rfl, rfl⟩

/-! ## What a chain that holds an agenda looks like -/

/-- The units on the way from a link to the end. -/
inductive Walk (c : Chain) : Link → List UnitId → Prop
  | last : Walk c .last []
  | next {u : UnitId} {l : Link} {us : List UnitId} :
    c.link u = some l → Walk c l us → Walk c (.next u) (u :: us)

theorem Walk.link_of_mem {c : Chain} {l : Link} {us : List UnitId} (h : c.Walk l us) {u : UnitId}
    (met : u ∈ us) : ∃ next, c.link u = some next := by
  induction h with
  | last => simp at met
  | @next v l us link _ ih =>
    rcases List.mem_cons.1 met with rfl | later
    · exact ⟨l, link⟩
    · exact ih later

theorem Stores.walk {c : Chain} {q : List Entry} (h : c.Stores .last q) :
    c.Walk (toward .last q) (q.map Entry.unit) := by
  induction q with
  | nil => exact .last
  | cons e q ih => exact .next h.1 (ih h.2.2)

theorem Stores.link {c : Chain} {q : List Entry} (h : c.Stores .last q) {u : UnitId}
    (pending : u ∈ q.map Entry.unit) : c.link u = Agenda.linkIn? u q := by
  induction q with
  | nil => simp at pending
  | cons e q ih =>
    rw [Agenda.linkIn?.eq_def]
    dsimp only
    split
    · rename_i here
      rw [← here, h.1]
      cases q <;> rfl
    · rename_i other
      rw [List.map_cons, List.mem_cons] at pending
      exact ih h.2.2 (pending.resolve_left fun same => other same.symm)

theorem Stores.offset {c : Chain} {q : List Entry} (h : c.Stores .last q) :
    ∀ e ∈ q, c.offset e.unit = e.offset := by
  induction q with
  | nil => simp
  | cons e q ih => exact List.forall_mem_cons.2 ⟨h.2.1, ih h.2.2⟩

theorem linkIn?_eq_none {u : UnitId} {q : List Entry} (idle : u ∉ q.map Entry.unit) :
    Agenda.linkIn? u q = none := by
  induction q with
  | nil => rfl
  | cons e q ih =>
    rw [List.map_cons, List.mem_cons, not_or] at idle
    rw [Agenda.linkIn?.eq_def]
    dsimp only
    rw [if_neg fun same => idle.1 same.symm]
    exact ih idle.2

theorem Holds.headOf {c : Chain} {a : Agenda} (h : c.Holds a) : c.head = a.head := by
  rw [h.head]
  unfold Agenda.head
  cases a.queue <;> rfl

theorem Holds.link? {c : Chain} {a : Agenda} (h : c.Holds a) (u : UnitId) :
    c.link u = a.link? u := by
  unfold Agenda.link?
  by_cases pending : u ∈ a.units
  · exact h.stores.link pending
  · rw [linkIn?_eq_none pending]
    exact (h.idle u pending).1

theorem Holds.offsetOf {c : Chain} {a : Agenda} (h : c.Holds a) (u : UnitId) :
    c.offset u = a.offsetOf u := by
  unfold Agenda.offsetOf
  cases found : a.queue.find? fun e => e.unit == u with
  | none =>
    refine (h.idle u fun pending => ?_).2
    obtain ⟨e, there, is⟩ := List.mem_map.1 pending
    exact List.find?_eq_none.1 found e there (by simpa using is)
  | some e =>
    have is : e.unit = u := by simpa using List.find?_some found
    rw [← is]
    exact h.stores.offset e (List.mem_of_find?_eq_some found)

theorem Holds.unique {c d : Chain} {a : Agenda} (h : c.Holds a) (k : d.Holds a) : c = d := by
  obtain ⟨interval, idleTime, idleWait, time, clock⟩ := h.shows
  obtain ⟨interval', idleTime', idleWait', time', clock'⟩ := k.shows
  have link : c.link = d.link := funext fun u => (h.link? u).trans (k.link? u).symm
  have offset : c.offset = d.offset := funext fun u => (h.offsetOf u).trans (k.offsetOf u).symm
  have head := h.headOf.trans k.headOf.symm
  cases c
  cases d
  simp_all

end Chain

end Peripheral
