import Peripheral.Proofs.Devices
import Peripheral.Proofs.Likeness

/-!
# What goes through a terminal

A transcript beside the board keeps what a terminal is given and what is read from it, and what is typed on
its console. Nothing else depends on it.

* `Transcript`, `Parlor` : a board with a headless console and a transcript;
* `Terminal.give`, `receive`, `typeKeys` : what is noted in the transcript; the programs are alike without
  (`give_like`, `receive_like`, `typeKeys_like`);
* `Terminal.license` : others give and read and type, but leave the units of the terminal alone;
* `Terminal.Balanced` : **board and transcript agree** (`Balanced.give`, `receive`, `typeKeys`, `display`,
  `takes`);
* `takeKeys_headless` : keys are taken up to the interrupt character.
-/

namespace Peripheral

variable {σ ε : Type}

/-! ## Transcripts -/

/-- What has gone through a terminal since its transcript was opened. -/
structure Transcript where
  /-- Characters given to the terminal to be displayed. -/
  given : List UInt8 := []
  /-- Characters read from the terminal. -/
  read : List UInt8 := []
  /-- Keys of the console: those that were waiting at first, and all typed since. -/
  typed : List UInt8
  /-- What the console had displayed at first. -/
  shown : List UInt8
deriving DecidableEq, Repr

def Transcript.opened (c : Headless) : Transcript := { typed := c.input, shown := c.output.toList }

/-- A board with a headless console and the transcript of a terminal. -/
abbrev Parlor (ε : Type) := Board Headless (Transcript × ε)

namespace Parlor

def script (b : Parlor ε) : Transcript := b.extra.1

def note (f : Transcript → Transcript) (b : Parlor ε) : Parlor ε := { b with extra := (f b.extra.1, b.extra.2) }

/-- Keys taken from the console so far: those typed but for those still waiting. -/
def taken (b : Parlor ε) : List UInt8 :=
  b.script.typed.take (b.script.typed.length - b.console.input.length)

/-- The first board is the second one without its transcript. -/
def Over (b : Board Headless ε) (b' : Parlor ε) : Prop := b = { b' with extra := b'.extra.2 }

theorem taken_of_typed {b : Parlor ε} {keys : List UInt8}
    (typed : b.script.typed = keys ++ b.console.input) : b.taken = keys := by
  rw [taken, typed, List.length_append, Nat.add_sub_cancel, List.take_left]

end Parlor

namespace Terminal
open Parlor

variable {t : Terminal}

def give (byte : UInt8) (t : Terminal) : Act (Parlor ε) Unit := do
  Act.change (Parlor.note fun script => { script with given := script.given ++ [byte] })
  t.putChar byte

def receive (t : Terminal) : Act (Parlor ε) (Option UInt8) := do
  let byte ← t.readChar
  Act.change (Parlor.note fun script => { script with read := script.read ++ byte.toList })
  return byte

def typeKeys (keys : List UInt8) : Act (Parlor ε) Unit := do
  Act.change (Parlor.note fun script => { script with typed := script.typed ++ keys })
  Act.change fun b => { b with console := b.console.queueInput keys }

theorem give_like (byte : UInt8) {next : Unit → Program (Board Headless ε)}
    {next' : Unit → Program (Parlor ε)} (rest : Program.Like Over (next ()) (next' ())) :
    Program.Like Over (t.putChar byte next) (t.give byte next') := by
  refine .note (fun b b' above => above) (.change ?_ (.call fun _ => rest))
  rintro _ b' rfl
  rfl

theorem receive_like {next : Option UInt8 → Program (Board Headless ε)}
    {next' : Option UInt8 → Program (Parlor ε)} (rest : ∀ byte, Program.Like Over (next byte) (next' byte)) :
    Program.Like Over (t.readChar next) (t.receive next') := by
  refine .look ?_
  rintro _ b' rfl
  exact .change (fun _ _ _ => rfl) (.note (fun b b' above => above) (rest _))

theorem typeKeys_like (keys : List UInt8) {next : Program (Board Headless ε)} {next' : Unit → Program (Parlor ε)}
    (rest : Program.Like Over next (next' ())) :
    Program.Like Over (.change (fun b => { b with console := b.console.queueInput keys }) next)
      (typeKeys keys next') := by
  refine .note (fun b b' above => above) (.change ?_ rest)
  rintro _ b' rfl
  rfl

section
variable [MediaStore σ] (dispatch : Motion σ (Parlor ε)) (s : Scheduler σ (Parlor ε))

def given (byte : UInt8) (t : Terminal) (b : Parlor ε) : Parlor ε :=
  t.modify (fun r => { r with output := r.output ++ [byte] })
    (b.note fun script => { script with given := script.given ++ [byte] })

def received (t : Terminal) (b : Parlor ε) : Parlor ε :=
  Parlor.note
    (fun script => { script with read := script.read ++ (takeKey (b.terminal t.record).input).1.toList })
    (t.modify (fun r => { r with input := (takeKey (b.terminal t.record).input).2 }) b)

def typed (keys : List UInt8) (b : Parlor ε) : Parlor ε :=
  { b.note fun script => { script with typed := script.typed ++ keys } with
    console := b.console.queueInput keys }

theorem exec_give (byte : UInt8) (next : Unit → Program (Parlor ε)) :
    (t.give byte next).exec dispatch s = (next ()).exec dispatch
      ({ s with world := t.given byte s.world }.activate t.printer t.outputTicks).2 := rfl

theorem exec_receive (next : Option UInt8 → Program (Parlor ε)) :
    (t.receive next).exec dispatch s =
      (next (takeKey (s.world.terminal t.record).input).1).exec dispatch
        { s with world := t.received s.world } := rfl

theorem exec_typeKeys (keys : List UInt8) (next : Unit → Program (Parlor ε)) :
    (typeKeys keys next).exec dispatch s =
      (next ()).exec dispatch { s with world := typed keys s.world } := rfl

end

/-! ## What others may do -/

/-- What is done with a terminal. -/
inductive Deed (t : Terminal) : {α : Type} → Act (Parlor ε) α → Prop
  | give (byte : UInt8) : Deed t (t.give byte)
  | receive : Deed t t.receive
  | typeKeys (keys : List UInt8) : Deed t (Terminal.typeKeys keys)

/-- The second board has the same record of the terminal, console and transcript. -/
structure Spared (t : Terminal) (b b' : Parlor ε) : Prop where
  record : b'.terminals[t.record]? = b.terminals[t.record]?
  console : b'.console = b.console
  script : b'.script = b.script

/-- Others do with a terminal what is meant to be done with it. They leave its units, its record, the
console and the transcript alone. -/
def license (t : Terminal) : License (Parlor ε) where
  staff u := if u = t.keyboard then some t.poll else if u = t.printer then some t.display else none
  calls _ := True
  changes f := ∀ b, t.Spared b (f b)
  deeds := t.Deed
  passive _ _ := trivial

theorem license_none {u : UnitId} :
    (t.license : License (Parlor ε)).staff u = none ↔ u ≠ t.keyboard ∧ u ≠ t.printer := staff_none

theorem license_keyboard : t.license.staff t.keyboard = some (t.poll : Program (Parlor ε)) :=
  staff_keyboard

theorem license_printer (apart : t.keyboard ≠ t.printer) :
    t.license.staff t.printer = some (t.display : Program (Parlor ε)) := staff_printer apart

theorem within_give (byte : UInt8) {next : Unit → Program (Parlor ε)}
    (rest : (next ()).Within t.license) : (t.give byte next).Within t.license :=
  .deed (Deed.give byte : t.license.deeds (t.give byte)) fun _ => rest

theorem within_receive {next : Option UInt8 → Program (Parlor ε)}
    (rest : ∀ byte, (next byte).Within t.license) : (t.receive next).Within t.license :=
  .deed (Deed.receive : t.license.deeds t.receive) rest

theorem within_typeKeys (keys : List UInt8) {next : Unit → Program (Parlor ε)}
    (rest : (next ()).Within t.license) : (typeKeys keys next).Within t.license :=
  .deed (Deed.typeKeys keys : t.license.deeds (typeKeys keys)) fun _ => rest

/-! ## Boards and transcripts -/

/-- Nothing is lost between a terminal and its console. -/
structure Balanced (t : Terminal) (b : Parlor ε) : Prop where
  present : t.record < b.terminals.size
  displayed : ∃ written, b.console.output.toList = b.script.shown ++ written ∧
    written ++ (b.terminal t.record).output = b.script.given
  typed : b.script.typed = b.taken ++ b.console.input
  read : b.script.read ++ (b.terminal t.record).input = b.taken.filter (· ≠ interruptChar)

section
variable {b b' : Parlor ε}

theorem Spared.refl (b : Parlor ε) : t.Spared b b := ⟨rfl, rfl, rfl⟩

theorem Spared.taken (spared : t.Spared b b') : b'.taken = b.taken := by
  unfold Parlor.taken
  rw [spared.console, spared.script]

theorem Spared.terminal (spared : t.Spared b b') : b'.terminal t.record = b.terminal t.record :=
  Board.terminal_congr spared.record

theorem Spared.present (spared : t.Spared b b') (present : t.record < b.terminals.size) :
    t.record < b'.terminals.size := Board.present_congr spared.record present

theorem Balanced.spared (balanced : t.Balanced b) (spared : t.Spared b b') : t.Balanced b' where
  present := spared.present balanced.present
  displayed := by
    rw [spared.console, spared.script, spared.terminal]
    exact balanced.displayed
  typed := by
    rw [spared.script, spared.taken, spared.console]
    exact balanced.typed
  read := by
    rw [spared.script, spared.taken, spared.terminal]
    exact balanced.read

theorem present_modify {κ ε : Type} {b : Board κ ε} (present : t.record < b.terminals.size)
    (f : TerminalRecord → TerminalRecord) : t.record < (t.modify f b).terminals.size := by
  unfold modify Board.modifyTerminal
  rwa [Array.size_modify]

theorem terminal_modify {κ ε : Type} {b : Board κ ε} (present : t.record < b.terminals.size)
    (f : TerminalRecord → TerminalRecord) :
    (t.modify f b).terminal t.record = f (b.terminal t.record) := by
  unfold modify Board.modifyTerminal Board.terminal
  simp only [Array.getD_eq_getD_getElem?, Array.getElem?_modify, if_pos, Array.getElem?_eq_getElem present,
    Option.map_some, Option.getD_some]

theorem Balanced.give (balanced : t.Balanced b) (byte : UInt8) :
    t.Balanced (t.given byte b) where
  present := present_modify (b := b.note _) balanced.present _
  displayed := by
    obtain ⟨written, shown, before⟩ := balanced.displayed
    refine ⟨written, shown, ?_⟩
    rw [Terminal.given, terminal_modify (b := b.note _) balanced.present]
    show written ++ ((b.terminal t.record).output ++ [byte]) = b.script.given ++ [byte]
    rw [← List.append_assoc, before]
  typed := balanced.typed
  read := by
    rw [Terminal.given, terminal_modify (b := b.note _) balanced.present]
    exact balanced.read

theorem Balanced.receive (balanced : t.Balanced b) : t.Balanced (t.received b) where
  present := present_modify balanced.present _
  displayed := by
    show ∃ written, _ ∧ _ ++ ((t.modify _ b).terminal t.record).output = _
    rw [terminal_modify balanced.present]
    exact balanced.displayed
  typed := balanced.typed
  read := by
    show _ ++ ((t.modify _ b).terminal t.record).input = _
    rw [terminal_modify balanced.present]
    refine Eq.trans ?_ balanced.read
    show b.script.read ++ (takeKey (b.terminal t.record).input).1.toList ++
      (takeKey (b.terminal t.record).input).2 = _
    cases (b.terminal t.record).input with
    | nil => exact List.append_nil _
    | cons key rest => exact List.append_assoc _ [key] rest

theorem Balanced.typeKeys (balanced : t.Balanced b) (keys : List UInt8) :
    t.Balanced (Terminal.typed keys b) ∧ (Terminal.typed keys b).taken = b.taken := by
  have typed : (Terminal.typed keys b).script.typed = b.taken ++ (Terminal.typed keys b).console.input := by
    show b.script.typed ++ keys = b.taken ++ (b.console.input ++ keys)
    rw [← List.append_assoc, ← balanced.typed]
  have same := Parlor.taken_of_typed typed
  refine ⟨⟨balanced.present, balanced.displayed, same.symm ▸ typed, ?_⟩, same⟩
  rw [same]
  exact balanced.read

theorem Balanced.display (balanced : t.Balanced b) {byte : UInt8} {rest : List UInt8}
    (pending : (b.terminal t.record).output = byte :: rest) :
    t.Balanced { t.modify (fun r => { r with output := rest }) b with
      console := Console.write byte b.console } where
  present := present_modify balanced.present _
  displayed := by
    obtain ⟨written, shown, given⟩ := balanced.displayed
    refine ⟨written ++ [byte], ?_, ?_⟩
    · show (b.console.output.push byte).toList = _
      rw [Array.toList_push, shown, List.append_assoc]
      rfl
    · show written ++ [byte] ++ ((t.modify _ b).terminal t.record).output = _
      rw [terminal_modify balanced.present]
      rw [pending] at given
      rw [List.append_assoc]
      exact given
  typed := balanced.typed
  read := by
    show _ ++ ((t.modify _ b).terminal t.record).input = _
    rw [terminal_modify balanced.present]
    exact balanced.read

/-- Keys are taken from a headless console up to the interrupt character, which is taken as well. -/
theorem takeKeys_headless (input : List UInt8) (output : Array UInt8) :
    let (keys, interrupted, left) := takeKeys input.length (⟨input, output⟩ : Headless)
    interruptChar ∉ keys ∧ left.output = output ∧
      input = keys ++ (if interrupted then [interruptChar] else []) ++ left.input := by
  induction input with
  | nil => exact ⟨List.not_mem_nil, rfl, rfl⟩
  | cons key input ih =>
    simp only [takeKeys, List.length_cons, Console.getKey, takeKey]
    split
    · rename_i interrupts
      exact ⟨List.not_mem_nil, rfl, by simp [interrupts]⟩
    · rename_i other
      obtain ⟨clean, same, rest⟩ := ih
      refine ⟨fun there => ?_, same, by simpa using rest⟩
      rcases List.mem_cons.1 there with interrupts | later
      · exact other interrupts.symm
      · exact clean later

/-- Take keys from the console, and whether the interrupt character was among them. -/
def takes (t : Terminal) (b : Parlor ε) : Bool × Parlor ε :=
  let (keys, interrupted, console) := takeKeys (Console.waiting b.console) b.console
  (interrupted, { t.modify (fun r => { r with input := r.input ++ keys }) b with console })

/-- Keys that are taken have been received but for the interrupt character, which comes last. -/
theorem Balanced.takes (balanced : t.Balanced b) :
    ∃ keys, interruptChar ∉ keys ∧ t.Balanced (t.takes b).2 ∧
      (t.takes b).2.taken = b.taken ++ (keys ++ if (t.takes b).1 then [interruptChar] else []) ∧
      ((t.takes b).2.terminal t.record).output = (b.terminal t.record).output := by
  have took := takeKeys_headless b.console.input b.console.output
  generalize answer : takeKeys b.console.input.length (⟨b.console.input, b.console.output⟩ : Headless) = a
    at took
  obtain ⟨keys, interrupted, left⟩ := a
  obtain ⟨clean, same, all⟩ := took
  let b' : Parlor ε := { t.modify (fun r => { r with input := r.input ++ keys }) b with console := left }
  have takes : t.takes b = (interrupted, b') := by
    have answer' : takeKeys (Console.waiting b.console) b.console = (keys, interrupted, left) := answer
    unfold Terminal.takes
    rw [answer']
  have typed : b'.script.typed = b.taken ++ (keys ++ if interrupted then [interruptChar] else []) ++
      b'.console.input := by
    show b.script.typed = _ ++ left.input
    rw [List.append_assoc, ← all, ← balanced.typed]
  have more := Parlor.taken_of_typed typed
  have received : (keys ++ if interrupted then [interruptChar] else []).filter (· ≠ interruptChar) =
      keys := by
    have clean' : keys.filter (· ≠ interruptChar) = keys :=
      List.filter_eq_self.2 fun key there => decide_eq_true fun same => clean (same ▸ there)
    rw [List.filter_append, clean']
    cases interrupted <;> exact List.append_nil _
  have record := terminal_modify balanced.present fun r => { r with input := r.input ++ keys }
  rw [takes]
  refine ⟨keys, clean, ⟨present_modify balanced.present _, ?_, more.symm ▸ typed, ?_⟩, more, ?_⟩
  · show ∃ written, left.output.toList = _ ∧ _ ++ ((t.modify _ b).terminal t.record).output = _
    rw [record, same]
    exact balanced.displayed
  · show _ ++ ((t.modify _ b).terminal t.record).input = _
    rw [record, more, List.filter_append, ← balanced.read, received, List.append_assoc]
    rfl
  · show ((t.modify _ b).terminal t.record).output = _
    rw [record]

end

end Terminal

end Peripheral
