import Peripheral.Console

/-!
# Keys typed on either console

Keys that are sent over a channel wait in two places: in the channel, and in the buffer that they move to whenever
a key is asked for. A console without a screen has them in one queue. Both give the same keys at the same time.

* `KeyEvent` : keys are sent, the channel is closed, a key is asked for; `KeyEvent.sentIn` : all keys sent;
* `KeyEvent.answers` : what a console gives each time that it is asked;
* `KeyChannel.Twin` : a channel and a queue that hold the same keys (`Twin.send`, `Twin.getKey`);
* `KeyChannel.fill_eq` : the channel is drained one key at a time;
* `channel_gives_keys_as_queue` : **the answers of both consoles are the same**: each key once, in order, and none
  exactly when all that were sent have been given.
-/

namespace Peripheral

/-- What happens to the keys of a console. -/
inductive KeyEvent where
  | send (keys : List UInt8)
  | close
  | ask
deriving DecidableEq, Repr

namespace KeyEvent

def sentIn : List KeyEvent → List UInt8
  | [] => []
  | .send keys :: rest => keys ++ sentIn rest
  | .close :: rest | .ask :: rest => sentIn rest

/-- Nothing is sent any more once the channel is closed. -/
def Closes : List KeyEvent → Prop
  | [] => True
  | .close :: rest => sentIn rest = [] ∧ Closes rest
  | .send _ :: rest | .ask :: rest => Closes rest

/-- The answers of a console each time that a key is asked for, and the console afterwards; `send` and `close` are
what the other events do to it. -/
def answers {κ : Type} [Console κ] (send : List UInt8 → κ → κ) (close : κ → κ) :
    List KeyEvent → κ → List (Option UInt8) × κ
  | [], console => ([], console)
  | .send keys :: rest, console => answers send close rest (send keys console)
  | .close :: rest, console => answers send close rest (close console)
  | .ask :: rest, console =>
    let (key, console) := Console.getKey console
    let (keys, console) := answers send close rest console
    (key :: keys, console)

end KeyEvent

open KeyEvent

def keysIn (answers : List (Option UInt8)) : List UInt8 := answers.filterMap id

/-- What a channel answers: keys are sent over it, and it is closed. -/
def KeyChannel.answers (events : List KeyEvent) (c : KeyChannel) : List (Option UInt8) × KeyChannel :=
  KeyEvent.answers KeyChannel.send KeyChannel.close events c

def Headless.answers (events : List KeyEvent) (c : Headless) : List (Option UInt8) × Headless :=
  KeyEvent.answers Headless.queueInput id events c

namespace KeyChannel

/-- The keys that were sent and not given yet, the next one first. -/
def pending (c : KeyChannel) : List UInt8 := c.buffer ++ c.sent

/-- Receive the first key in the channel, also after it was closed. -/
def receive? (c : KeyChannel) : Option (UInt8 × KeyChannel) :=
  match c.sent with
  | [] => none
  | key :: rest => some (key, { c with sent := rest })

theorem fill_eq (c : KeyChannel) :
    c.fill = match c.receive? with
      | none => c
      | some (key, rest) => fill { rest with buffer := rest.buffer ++ [key] } := by
  obtain ⟨sent, closed, buffer, shown⟩ := c
  cases sent with
  | nil => simp only [fill, receive?, List.append_nil]
  | cons key rest => simp only [fill, receive?, List.append_assoc, List.singleton_append]

theorem getKey_pending (c : KeyChannel) :
    (Console.getKey c).1 = c.pending.head? ∧ (Console.getKey c).2.pending = c.pending.tail := by
  have given : ∀ keys : List UInt8, (takeKey keys).1 = keys.head? ∧ (takeKey keys).2 = keys.tail := by
    intro keys
    cases keys <;> exact ⟨rfl, rfl⟩
  obtain ⟨first, rest⟩ := given c.pending
  exact ⟨first, (List.append_nil _).trans rest⟩

/-- The channel and the queue hold the same keys. -/
def Twin (c : KeyChannel) (h : Headless) : Prop := h.input = c.pending

namespace Twin

variable {c : KeyChannel} {h : Headless}

/-- Over a channel that is open, or closed and given nothing to send, the same keys are sent as queued. -/
theorem send (twin : c.Twin h) {keys : List UInt8} (passes : c.closed = true → keys = []) :
    (c.send keys).Twin (h.queueInput keys) ∧ (c.send keys).pending = c.pending ++ keys ∧
      (c.send keys).closed = c.closed := by
  have queued : (h.queueInput keys).input = c.pending ++ keys := congrArg (· ++ keys) twin
  unfold KeyChannel.send
  split
  · rename_i closed
    have none := passes closed
    rw [Twin, queued, none, List.append_nil]
    exact ⟨rfl, rfl, rfl⟩
  · have grown : KeyChannel.pending { c with sent := c.sent ++ keys } = c.pending ++ keys :=
      (List.append_assoc _ _ _).symm
    exact ⟨queued.trans grown.symm, grown, rfl⟩

theorem getKey (twin : c.Twin h) :
    (Console.getKey h).1 = (Console.getKey c).1 ∧ (Console.getKey c).2.Twin (Console.getKey h).2 := by
  have same : takeKey h.input = takeKey c.pending := congrArg takeKey twin
  refine ⟨congrArg Prod.fst same, (congrArg Prod.snd same).trans ?_⟩
  exact (List.append_nil _).symm

end Twin

end KeyChannel

open KeyChannel

section
variable {c : KeyChannel} {h : Headless} {events : List KeyEvent}

/-- Twins give the same answers and stay twins. The keys given, and those still pending, are those pending before
and those sent. -/
theorem KeyChannel.Twin.answers (twin : c.Twin h) (proper : Closes events)
    (still : c.closed = true → sentIn events = []) :
    (c.answers events).1 = (h.answers events).1 ∧ (c.answers events).2.Twin (h.answers events).2 ∧
      keysIn (c.answers events).1 ++ (c.answers events).2.pending = c.pending ++ sentIn events := by
  induction events generalizing c h with
  | nil => exact ⟨rfl, twin, (List.append_nil _).symm⟩
  | cons event rest ih =>
    cases event with
    | send keys =>
      have passes := fun closed => List.append_eq_nil_iff.1 (still closed)
      obtain ⟨after, grown, closed⟩ := twin.send fun closed => (passes closed).1
      obtain ⟨same, last, conserved⟩ := ih after proper fun shut => (passes (closed ▸ shut)).2
      refine ⟨same, last, conserved.trans ?_⟩
      rw [grown, List.append_assoc, sentIn]
    | close =>
      obtain ⟨nothing, proper⟩ := proper
      exact ih (c := c.close) twin proper fun _ => nothing
    | ask =>
      obtain ⟨given, after⟩ := twin.getKey
      obtain ⟨same, last, conserved⟩ := ih after proper still
      obtain ⟨first, left⟩ := c.getKey_pending
      refine ⟨?_, last, ?_⟩
      · show (Console.getKey c).1 :: (KeyChannel.answers rest (Console.getKey c).2).1 =
          (Console.getKey h).1 :: (Headless.answers rest (Console.getKey h).2).1
        rw [given, same]
      show keysIn ((Console.getKey c).1 :: (KeyChannel.answers rest (Console.getKey c).2).1) ++
        (KeyChannel.answers rest (Console.getKey c).2).2.pending = _
      rw [first]
      rw [left] at conserved
      cases pending : c.pending with
      | nil =>
        rw [pending] at conserved
        exact conserved
      | cons key keys =>
        rw [pending] at conserved
        exact congrArg (key :: ·) conserved

end

/-- However keys are sent over a channel, which may be closed when all are sent, and asked for in between: a
console on the channel gives the same answers as one whose keys are queued as they are sent. The keys given so far
are the first of those sent, each once and in order, the next one asked for is the one behind them, and there is
none exactly when all keys sent so far have been given. -/
theorem channel_gives_keys_as_queue {events : List KeyEvent} (proper : Closes events) :
    let (given, channel) := KeyChannel.empty.answers events
    let (given', queue) := (Headless.withInput []).answers events
    given = given' ∧ keysIn given ++ channel.pending = sentIn events ∧
      (Console.getKey channel).1 = (sentIn events)[(keysIn given).length]? ∧
      (Console.getKey queue).1 = (Console.getKey channel).1 ∧
      ((Console.getKey channel).1 = none ↔ keysIn given = sentIn events) ∧
      ∀ c : KeyChannel, c.fill = match c.receive? with
        | none => c
        | some (key, rest) => fill { rest with buffer := rest.buffer ++ [key] } := by
  have start : KeyChannel.empty.Twin (Headless.withInput []) := rfl
  obtain ⟨same, twin, conserved⟩ := start.answers proper nofun
  dsimp only
  generalize KeyChannel.empty.answers events = channel at same twin conserved ⊢
  replace conserved : keysIn channel.1 ++ channel.2.pending = sentIn events := conserved
  obtain ⟨first, -⟩ := channel.2.getKey_pending
  refine ⟨same, conserved, ?_, twin.getKey.1, ?_, fill_eq⟩
  · rw [first, ← conserved, List.getElem?_append_right (Nat.le_refl _), Nat.sub_self, List.head?_eq_getElem?]
  · rw [first, List.head?_eq_none_iff, ← conserved]
    constructor
    · intro none
      rw [none, List.append_nil]
    · exact List.self_eq_append_right.1

/-- The channel is closed with one key in the buffer and one in the channel; both are given, then there is none. -/
theorem keys_outlive_their_channel :
    let events : List KeyEvent := [.send [104, 105], .ask, .send [33], .close, .ask, .ask]
    Closes events ∧ (KeyChannel.empty.answers events).1 = [some 104, some 105, some 33] ∧
      ((Headless.withInput []).answers events).1 = [some 104, some 105, some 33] ∧
      (Console.getKey (KeyChannel.empty.answers events).2).1 = none := by
  intro events
  have proper : Closes events := ⟨rfl, trivial⟩
  have given : (KeyChannel.empty.answers events).1 = [some 104, some 105, some 33] := by decide +kernel
  obtain ⟨same, -, -, -, all, -⟩ := channel_gives_keys_as_queue proper
  exact ⟨proper, given, same.symm.trans given, all.2 rfl⟩

end Peripheral
