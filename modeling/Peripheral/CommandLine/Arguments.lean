import Peripheral.CommandLine.AttachOption

/-!
# Command line arguments

One argument may name a machine description; options follow or precede it. An option with a value
takes it from behind an equals sign, from the rest of its word if it is a letter, or from the next
word, which then must not look like an option. All options but `attach` come at most once.

* `Arguments.read?` : the arguments of a command line, unless they are refused.
-/

namespace Peripheral.CommandLine

structure Arguments where
  description : Option String := none
  attach : List AttachEntry := []
  ticks : Option UInt64 := none
  boot : Option String := none
  trace : Bool := false
deriving DecidableEq, Repr, Inhabited

/-- An option that takes a value. -/
inductive Valued where
  | attach
  | ticks
  | boot
deriving DecidableEq, Repr

namespace Arguments

/-- An unsigned double word in decimal, with a plus sign or without. -/
def word? (s : String) : Option UInt64 :=
  let digits := match s.toList with
    | '+' :: rest => rest
    | cs => cs
  if digits.isEmpty || !digits.all Char.isDigit then none
  else if Nat.pow 2 64 ≤ decimalValue digits then none
  else some (UInt64.ofNat (decimalValue digits))

def give (o : Valued) (value : String) (a : Arguments) : Option Arguments :=
  match o with
  | .attach =>
    match AttachEntry.ofOption value with
    | .ok entry => some { a with attach := a.attach ++ [entry] }
    | .error _ => none
  | .ticks =>
    match a.ticks, word? value with
    | none, some n => some { a with ticks := some n }
    | _, _ => none
  | .boot => if a.boot.isSome then none else some { a with boot := some value }

def setTrace (a : Arguments) : Option Arguments :=
  if a.trace then none else some { a with trace := true }

def setDescription (path : String) (a : Arguments) : Option Arguments :=
  if a.description.isSome || path = "" then none else some { a with description := some path }

def looksLikeOption (s : String) : Bool := s.startsWith "-" && s ≠ "-"

/-- The option of a long name, if it takes a value. -/
def longOption? (name : List Char) : Option Valued :=
  match String.ofList name with
  | "attach" => some .attach
  | "ticks" => some .ticks
  | "boot" => some .boot
  | _ => none

/-- What a word of letters comes to: the arguments, and whether a value for `attach` has to
follow. -/
def letters : List Char → Arguments → Option (Arguments × Bool)
  | [], a => some (a, false)
  | 't' :: rest, a => do letters rest (← a.setTrace)
  | 'a' :: [], a => some (a, true)
  | 'a' :: '=' :: value, a => (a.give .attach (String.ofList value)).map fun a => (a, false)
  | 'a' :: value, a => (a.give .attach (String.ofList value)).map fun a => (a, false)
  | _, _ => none

/-- Take words one after the other; `wanted` is the option whose value has to come next, and after
`plain` no word is an option. -/
def take : Option Valued → Bool → List String → Arguments → Option Arguments
  | none, _, [], a => some a
  | some _, _, [], _ => none
  | some o, plain, word :: rest, a =>
    if looksLikeOption word then none else do take none plain rest (← a.give o word)
  | none, true, word :: rest, a => do take none true rest (← a.setDescription word)
  | none, false, word :: rest, a =>
    match word.toList with
    | ['-', '-'] => take none true rest a
    | '-' :: '-' :: long =>
      let name := long.takeWhile (· ≠ '=')
      match long.dropWhile (· ≠ '='), longOption? name with
      | _ :: value, some o => do take none false rest (← a.give o (String.ofList value))
      | [], some o => take (some o) false rest a
      | [], none => if String.ofList name = "trace" then do take none false rest (← a.setTrace)
        else none
      | _ :: _, none => none
    | '-' :: c :: short => do
      let (a, follows) ← letters (c :: short) a
      take (if follows then some .attach else none) false rest a
    | _ => do take none false rest (← a.setDescription word)

def read? (words : List String) : Option Arguments := take none false words {}

end Arguments

end Peripheral.CommandLine
