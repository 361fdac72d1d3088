import Peripheral.Ticks

/-!
# The agenda: simulated time and the units due at it

Pending units form a delta queue: every entry holds the ticks between itself and the entry before
it, so the deadline of a unit is the sum of the offsets up to it. The live `interval` counts down
the ticks until the head is due. Ticks spent since the last change of the queue are the difference
between the head's offset and the interval; they are folded into simulated time lazily, before
every change of the queue (`settle`), and the interval is loaded again after it (`rearm`).

* `Agenda.insert`, `Agenda.remove`, `Agenda.pop?` : insert, delete, take the head;
* `Agenda.consume` : spend ticks;
* `Agenda.elapsed`, `Agenda.elapsedWrapping` : simulated time;
* `Agenda.dueIn` : one plus the ticks until a unit is due, 0 if it is idle;
* `Agenda.link?`, `Agenda.offsetOf` : the queue seen as links from a unit to the one after it.
-/

namespace Peripheral

/-- Number of a unit, in the order of addition. -/
abbrev UnitId := Nat

/-- A queued unit and the ticks between it and the entry before it. -/
structure Entry where
  unit : UnitId
  offset : Int32
deriving DecidableEq, Repr, Inhabited

/-- What follows a queued unit. -/
inductive Link where
  | last
  | next (unit : UnitId)
deriving DecidableEq, Repr, Inhabited

inductive Activation where
  | queued
  /-- The unit was scheduled already and keeps its deadline. -/
  | alreadyActive
deriving DecidableEq, Repr, Inhabited

/-- Simulated time and the queue of pending units. -/
structure Agenda where
  /-- Pending units in firing order. -/
  queue : List Entry
  /-- Ticks until the head is due. -/
  interval : Int32
  /-- The offset that stands in for the head's while the queue is empty. -/
  idleTime : Int32
  /-- Ticks to wait before an empty queue is looked at again. -/
  idleWait : Int32
  /-- Simulated time in ticks, as of the last `settle`. -/
  time : Float
  /-- Simulated time in ticks modulo `2 ^ 32`, as of the last `settle`. -/
  clock : UInt32
deriving DecidableEq, Repr, Inhabited

namespace Agenda

def start (idleWait : Int32) : Agenda :=
  { queue := [], interval := 0, idleTime := 0, idleWait, time := 0, clock := 0 }

/-! ## Time -/

/-- The interval as it was when time was last settled. -/
def reference (a : Agenda) : Int32 :=
  match a.queue with
  | [] => a.idleTime
  | e :: _ => e.offset

/-- Ticks spent since time was last settled. -/
def unaccounted (a : Agenda) : Int32 := a.reference - a.interval

/-- Simulated time in ticks. -/
def elapsed (a : Agenda) : Float := a.time + Ticks.toFloat a.unaccounted

/-- Simulated time in ticks modulo `2 ^ 32`. -/
def elapsedWrapping (a : Agenda) : UInt32 := a.clock + a.unaccounted.toUInt32

def consume (ticks : Int32) (a : Agenda) : Agenda := { a with interval := a.interval - ticks }

/-- Fold the ticks spent into simulated time; the head's offset becomes the live interval. -/
def settle (a : Agenda) : Agenda :=
  let time := a.elapsed
  let clock := a.elapsedWrapping
  match a.queue with
  | [] => { a with time, clock, idleTime := a.interval }
  | e :: rest => { a with time, clock, queue := { e with offset := a.interval } :: rest }

/-- Load the interval from the head of the queue, or with the idle wait. -/
def rearm (a : Agenda) : Agenda :=
  match a.queue with
  | [] => { a with interval := a.idleWait, idleTime := a.idleWait }
  | e :: _ => { a with interval := e.offset }

/-! ## The queue -/

def units (a : Agenda) : List UnitId := a.queue.map Entry.unit

def isActive (u : UnitId) (a : Agenda) : Bool := a.queue.any fun e => e.unit == u

/-- Put a unit due in `ticks` behind every entry that is due no later; `passed` is the sum of the
offsets before the list. -/
def place (u : UnitId) (ticks : Int32) : Int32 → List Entry → List Entry
  | passed, [] => [⟨u, ticks - passed⟩]
  | passed, e :: rest =>
    let reached := Ticks.addSat passed e.offset
    if ticks < reached then
      ⟨u, ticks - passed⟩ :: { e with offset := e.offset - (ticks - passed) } :: rest
    else e :: place u ticks reached rest

/-- Take a unit out; its offset goes to the entry after it. -/
def unlink (u : UnitId) : List Entry → List Entry
  | [] => []
  | e :: rest =>
    if e.unit = u then
      match rest with
      | [] => []
      | f :: rest => { f with offset := f.offset + e.offset } :: rest
    else e :: unlink u rest

/-- Insert an idle unit due in `ticks`; a negative count is due at once. -/
def insert (u : UnitId) (ticks : Int32) (a : Agenda) : Agenda :=
  let a := a.settle
  { a with queue := place u (max ticks 0) 0 a.queue }.rearm

/-- Remove a unit; removing an idle one changes nothing. -/
def remove (u : UnitId) (a : Agenda) : Agenda :=
  if a.isActive u then
    let a := a.settle
    { a with queue := unlink u a.queue }.rearm
  else a

/-- Take the head off. The interval moves on to the next entry, less what has been spent. -/
def pop? (a : Agenda) : Option (UnitId × Agenda) :=
  match a.queue with
  | [] => none
  | [e] => some (e.unit, { a with queue := [] }.rearm)
  | e :: f :: rest =>
    some (e.unit, { a with queue := f :: rest, interval := a.interval - e.offset + f.offset })

/-- One plus the ticks until a unit is due, given the ticks until the entry before the list. -/
def dueInAfter (u : UnitId) : Int32 → List Entry → Int32
  | _, [] => 0
  | passed, e :: rest =>
    let reached := Ticks.addSat passed e.offset
    if e.unit = u then Ticks.addSat reached 1 else dueInAfter u reached rest

/-- One plus the ticks until a unit is due, or 0 if it is idle. A head that is overdue counts as due
now. -/
def dueIn (u : UnitId) (a : Agenda) : Int32 :=
  match a.queue with
  | [] => 0
  | e :: rest =>
    let reached := max a.interval 0
    if e.unit = u then Ticks.addSat reached 1 else dueInAfter u reached rest

/-! ## The queue as links -/

/-- What follows a unit in a list of entries; `none` for a unit that is not in it. -/
def linkIn? (u : UnitId) : List Entry → Option Link
  | [] => none
  | e :: rest =>
    if e.unit = u then
      some (match rest with
        | [] => .last
        | f :: _ => .next f.unit)
    else linkIn? u rest

/-- What follows a pending unit; `none` for an idle one. -/
def link? (u : UnitId) (a : Agenda) : Option Link := linkIn? u a.queue

def head (a : Agenda) : Link :=
  match a.queue with
  | [] => .last
  | e :: _ => .next e.unit

/-- Ticks between a unit and the entry before it; 0 for an idle unit. -/
def offsetOf (u : UnitId) (a : Agenda) : Int32 :=
  match a.queue.find? fun e => e.unit == u with
  | some e => e.offset
  | none => 0

end Agenda

end Peripheral
