import Peripheral.Description.Basic

/-!
# The attach option

`DEV=path` attaches a medium to unit 0 of a device, `DEVn=path` to unit `n`.

* `AttachEntry.ofOption` : the entry that an option stands for;
* `AttachOptionFault.message` : what is wrong with one that stands for none.
-/

namespace Peripheral

inductive AttachOptionFault where
  | noSeparator
  | noPath
  | noDevice
  | unitTooLarge
deriving DecidableEq, Repr, Inhabited

def AttachOptionFault.message (arg : String) : AttachOptionFault → String
  | .noSeparator => "expected DEV=path, got '" ++ arg ++ "'"
  | .noPath => "missing path in '" ++ arg ++ "'"
  | .noDevice => "missing device name in '" ++ arg ++ "'"
  | .unitTooLarge =>
    "bad unit number in '" ++ arg ++ "': number too large to fit in target type"

/-- The number that decimal digits stand for; no digits stand for 0. -/
def decimalValue (digits : List Char) : Nat :=
  digits.foldl (fun n c => n * 10 + (c.toNat - '0'.toNat)) 0

/-- Characters before the digits at the end, and those digits. -/
def splitDigits (name : List Char) : List Char × List Char :=
  ((name.reverse.dropWhile Char.isDigit).reverse, (name.reverse.takeWhile Char.isDigit).reverse)

def AttachEntry.ofParts (name path : List Char) : Except AttachOptionFault AttachEntry :=
  if path.isEmpty then .error .noPath
  else
    let (device, digits) := splitDigits name
    if device.isEmpty then .error .noDevice
    else if Nat.pow 2 64 ≤ decimalValue digits then .error .unitTooLarge
    else .ok
      { device := String.ofList (device.map Char.toUpper)
        unit := UInt64.ofNat (decimalValue digits)
        path := String.ofList path }

/-- The entry that an option stands for. It is split at the first equals sign. -/
def AttachEntry.ofOption (arg : String) : Except AttachOptionFault AttachEntry :=
  match arg.toList.dropWhile (· ≠ '=') with
  | [] => .error .noSeparator
  | _ :: path => ofParts (arg.toList.takeWhile (· ≠ '=')) path

end Peripheral
