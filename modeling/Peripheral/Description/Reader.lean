import Peripheral.Description.Basic
import Peripheral.Text.Json

/-!
# Reading machine descriptions

A description is an object whose fields all have a default; fields that are not known are passed
over, and a known one comes at most once. A list stands for an object with its fields in order.

* `Shape`, `readShape` : objects with known fields;
* `Description.shape` : the fields of a description;
* `Description.parse` : a description as written; `Description.ofText` : a valid one.
-/

namespace Peripheral

open Text (Fault Found) in
section

namespace Text.Json

/-! ## Values of a wanted type -/

/-- Fail because another type of value was wanted; `s` starts with the value. -/
def mismatch {α : Type} (expected : String) (s : List Char) : Except Failure α :=
  match s with
  | [] => failFacing .endInValue []
  | 'n' :: s => do
    let (_, s) ← readWord ['u', 'l', 'l'] s
    failBehind (.wrongType .null expected) s
  | 't' :: s => do
    let (_, s) ← readWord ['r', 'u', 'e'] s
    failBehind (.wrongType (.boolean true) expected) s
  | 'f' :: s => do
    let (_, s) ← readWord ['a', 'l', 's', 'e'] s
    failBehind (.wrongType (.boolean false) expected) s
  | '-' :: s => do
    let (number, s) ← readNumber true s
    failBehind (.wrongType number.found expected) s
  | '"' :: s => do
    let (text, s) ← readString s
    failBehind (.wrongType (.text text) expected) s
  | '[' :: s => failBehind (.wrongType .sequence expected) ('[' :: s)
  | '\x7b' :: s => failBehind (.wrongType .map expected) ('\x7b' :: s)
  | c :: s =>
    if c.isDigit then do
      let (number, s) ← readNumber false (c :: s)
      failBehind (.wrongType number.found expected) s
    else failFacing .expectedValue (c :: s)

def readBoolean : Reader Bool := fun s =>
  match skipBlanks s with
  | 't' :: s => (readWord ['r', 'u', 'e'] s).map fun (_, s) => (true, s)
  | 'f' :: s => (readWord ['a', 'l', 's', 'e'] s).map fun (_, s) => (false, s)
  | s => mismatch "a boolean" s

def readText : Reader String := fun s =>
  match skipBlanks s with
  | '"' :: s => readString s
  | s => mismatch "a string" s

def readAnyNumber (expected : String) : Reader Number := fun s =>
  match skipBlanks s with
  | '-' :: s => readNumber true s
  | c :: s => if c.isDigit then readNumber false (c :: s) else mismatch expected (c :: s)
  | [] => mismatch expected []

def readWhole (low high : Int) (expected : String) : Reader Int := fun s => do
  match ← readAnyNumber expected s with
  | (.whole i, s) =>
    if low ≤ i ∧ i ≤ high then return (i, s)
    else failBehind (.wrongValue (.integer i) expected) s
  | (.real x, s) => failBehind (.wrongType (.real x) expected) s

/-- A double; a whole number becomes the nearest one. -/
def readReal : Reader Float := fun s => do
  match ← readAnyNumber "f64" s with
  | (.whole i, s) => return (Float.ofInt i, s)
  | (.real x, s) => return (x, s)

def readOptional {α : Type} (read : Reader α) : Reader (Option α) := fun s =>
  match skipBlanks s with
  | 'n' :: s => (readWord ['u', 'l', 'l'] s).map fun (_, s) => (none, s)
  | s => (read s).map fun (a, s) => (some a, s)

/-! ## Objects with known fields -/

/-- A field of an object of type `α`: how its value goes into the object. -/
structure Field (α : Type) where
  name : String
  required : Bool := false
  read : α → Reader α

def Field.of {α β : Type} (name : String) (read : Reader β) (set : β → α → α) : Field α :=
  { name, read := fun a s => (read s).map fun (b, s) => (set b a, s) }

structure Shape (α : Type) where
  title : String
  /-- The object without any field read. -/
  blank : α
  fields : List (Field α)

/-- What a list that stands for the object has to be. -/
def Shape.listTitle {α : Type} (shape : Shape α) : String :=
  shape.title ++ " with " ++ toString shape.fields.length ++ " elements"

/-- The fields of an object up to its end; `seen` are those read. The text is no longer than
`fuel`. -/
def readFields {α : Type} (shape : Shape α) :
    Nat → Bool → List String → α → Reader α
  | 0, _, _, _, s => failFacing .endInObject s
  | fuel + 1, first, seen, a, s => do
    match ← nextKey first s with
    | none =>
      match shape.fields.find? fun f => f.required && !seen.contains f.name with
      | some f => failUnsettled (.missingField f.name) (skipBlanks s)
      | none => return (a, s)
    | some (key, s) =>
      match shape.fields.find? fun f => f.name == key with
      | none =>
        let s ← skipValue (← passColon s)
        readFields shape fuel false seen a s
      | some f =>
        if seen.contains key then failUnsettled (.duplicateField key) s
        else
          let (a, s) ← f.read a (← passColon s)
          readFields shape fuel false (key :: seen) a s

/-- The elements of a list that stands for an object, for the fields from a place on. -/
def readElements {α : Type} (shape : Shape α) : Nat → List (Field α) → α → Reader α
  | _, [], a, s => .ok (a, s)
  | i, f :: fields, a, s => do
    match ← nextElement (i = 0) s with
    | some s =>
      let (a, s) ← f.read a s
      readElements shape (i + 1) fields a s
    | none =>
      if f.required then failUnsettled (.wrongLength i shape.listTitle) (skipBlanks s)
      else readElements shape (i + 1) fields a s

def enclosed {α : Type} (close : List Char → Except Failure (List Char))
    (inside : Except Failure (α × List Char)) : Except Failure (α × List Char) :=
  match inside with
  | .error f => .error (f.settle close)
  | .ok (a, s) => (close s).map fun s => (a, s)

def readShape {α : Type} (shape : Shape α) : Reader α := fun s =>
  match skipBlanks s with
  | '[' :: s => enclosed closeList (readElements shape 0 shape.fields shape.blank s)
  | '\x7b' :: s =>
    enclosed closeObject (readFields shape (s.length + 1) true [] shape.blank s)
  | s => mismatch shape.title s

/-- The elements of a list up to its end. The text is no longer than `fuel`. -/
def readItems {α : Type} (read : Reader α) : Nat → Bool → List α → Reader (List α)
  | 0, _, _, s => failFacing .endInList s
  | fuel + 1, first, items, s => do
    match ← nextElement first s with
    | none => return (items.reverse, s)
    | some s =>
      let (item, s) ← read s
      readItems read fuel false (item :: items) s

def readList {α : Type} (read : Reader α) : Reader (List α) := fun s =>
  match skipBlanks s with
  | '[' :: s => enclosed closeList (readItems read (s.length + 1) true [] s)
  | s => mismatch "a sequence" s

end Text.Json

end

open Text.Json

/-! ## The fields of a description -/

def readInt32 : Reader Int32 := fun s =>
  (readWhole Int32.minValue.toInt Int32.maxValue.toInt "i32" s).map fun (i, s) => (Int32.ofInt i, s)

def readUInt32 : Reader UInt32 := fun s =>
  (readWhole 0 0xFFFFFFFF "u32" s).map fun (i, s) => (UInt32.ofNat i.toNat, s)

/-- An unsigned double word, called `expected` in messages. -/
def readUInt64 (expected : String) : Reader UInt64 := fun s =>
  (readWhole 0 0xFFFFFFFFFFFFFFFF expected s).map fun (i, s) => (UInt64.ofNat i.toNat, s)

def TimeSettings.shape : Shape TimeSettings where
  title := "struct SchedulerConfig"
  blank := {}
  fields :=
    [.of "noqueueWait" readInt32 fun v t => { t with idleWait := v },
      .of "instructionsPerSecond" readReal fun v t => { t with tickRate := v }]

def ClockSettings.shape : Shape ClockSettings where
  title := "struct ClockConfig"
  blank := {}
  fields :=
    [.of "enabled" readBoolean fun v c => { c with enabled := v },
      .of "hz" readUInt32 fun v c => { c with hz := v }]

def DiskSettings.shape : Shape DiskSettings where
  title := "struct DiskConfig"
  blank := {}
  fields :=
    [.of "drives" (readUInt64 "usize") fun v d => { d with drives := v },
      .of "sectorSize" (readUInt64 "usize") fun v d => { d with sectorSize := v },
      .of "sectors" (readUInt64 "u64") fun v d => { d with sectors := v },
      .of "buffered" readBoolean fun v d => { d with buffered := v },
      .of "readOnly" readBoolean fun v d => { d with readOnly := v },
      .of "latencyUsecs" readReal fun v d => { d with latency := v }]

def TerminalSettings.shape : Shape TerminalSettings where
  title := "struct TerminalConfig"
  blank := {}
  fields :=
    [.of "pollTicks" readInt32 fun v t => { t with pollTicks := v },
      .of "outputTicks" readInt32 fun v t => { t with outputTicks := v }]

/-- The fields of an entry; device and path have to be there. -/
def AttachEntry.shape : Shape AttachEntry where
  title := "struct AttachEntry"
  blank := { device := "", path := "" }
  fields :=
    [{ Field.of "device" readText (fun v (e : AttachEntry) => { e with device := v }) with
        required := true },
      .of "unit" (readUInt64 "usize") fun v e => { e with unit := v },
      { Field.of "path" readText (fun v (e : AttachEntry) => { e with path := v }) with
        required := true }]

namespace Description

def shape : Shape Description where
  title := "struct MachineConfig"
  blank := {}
  fields :=
    [.of "scheduler" (readShape TimeSettings.shape) fun v d => { d with time := v },
      .of "clock" (readShape ClockSettings.shape) fun v d => { d with clock := v },
      .of "disk" (readShape DiskSettings.shape) fun v d => { d with disk := v },
      .of "terminal" (readShape TerminalSettings.shape) fun v d => { d with terminal := v },
      .of "attach" (readList (readShape AttachEntry.shape)) fun v d => { d with attach := v },
      .of "runTicks" (readOptional (readUInt64 "u64")) fun v d => { d with runTicks := v },
      .of "boot" (readOptional readText) fun v d => { d with boot := v }]

def parseChars (text : List Char) : Except Failure Description := do
  let (d, s) ← readShape shape text
  match skipBlanks s with
  | [] => return d
  | s => failFacing .trailingCharacters s

def parse (text : String) : Except Status Description :=
  match parseChars text.toList with
  | .ok d => .ok d
  | .error f => .error (.description (f.locate text.toList))

def ofText (text : String) : Except Status Description := do
  let d ← parse text
  d.validate
  return d

end Description

end Peripheral
