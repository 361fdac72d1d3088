import Peripheral.Text.Decimal
import Peripheral.Text.Quoted

/-!
# Faults of a described value

What can be wrong with a text that is to describe a value: it is not well formed, it ends too early,
or it describes something else than what is wanted.

* `Fault` : the faults, `Fault.kind`, `Fault.message`;
* `LocatedFault` : a fault with its line and column.
-/

namespace Peripheral.Text

/-- A value met in a text. -/
inductive Found where
  | null
  | boolean (b : Bool)
  | integer (i : Int)
  | real (x : Float)
  | text (s : String)
  | sequence
  | map
deriving DecidableEq, Repr, Inhabited

def Found.message : Found → String
  | .null => "null"
  | .boolean true => "boolean `true`"
  | .boolean false => "boolean `false`"
  | .integer i => "integer `" ++ toString i ++ "`"
  | .real x => "floating point `" ++ Decimal.literal x ++ "`"
  | .text s => "string " ++ quoted s
  | .sequence => "sequence"
  | .map => "map"

inductive Fault where
  -- the text ends too early
  | endInList
  | endInObject
  | endInString
  | endInValue
  -- the text is not well formed
  | expectedColon
  | expectedListCommaOrEnd
  | expectedObjectCommaOrEnd
  | expectedIdentifier
  | expectedValue
  | invalidEscape
  | invalidNumber
  | numberOutOfRange
  | controlCharacter
  | keyMustBeString
  | loneSurrogate
  | trailingComma
  | trailingCharacters
  | unfinishedSurrogate
  -- the text describes something else
  | wrongType (found : Found) (expected : String)
  | wrongValue (found : Found) (expected : String)
  | wrongLength (length : Nat) (expected : String)
  | missingField (name : String)
  | duplicateField (name : String)
deriving DecidableEq, Repr, Inhabited

inductive FaultKind where
  | malformed
  | truncated
  | misfit
deriving DecidableEq, Repr, Inhabited

namespace Fault

def kind : Fault → FaultKind
  | .endInList | .endInObject | .endInString | .endInValue => .truncated
  | .wrongType _ _ | .wrongValue _ _ | .wrongLength _ _ | .missingField _ | .duplicateField _ =>
    .misfit
  | _ => .malformed

def message : Fault → String
  | .endInList => "EOF while parsing a list"
  | .endInObject => "EOF while parsing an object"
  | .endInString => "EOF while parsing a string"
  | .endInValue => "EOF while parsing a value"
  | .expectedColon => "expected `:`"
  | .expectedListCommaOrEnd => "expected `,` or `]`"
  | .expectedObjectCommaOrEnd => "expected `,` or `\x7d`"
  | .expectedIdentifier => "expected ident"
  | .expectedValue => "expected value"
  | .invalidEscape => "invalid escape"
  | .invalidNumber => "invalid number"
  | .numberOutOfRange => "number out of range"
  | .controlCharacter =>
    "control character (\\u0000-\\u001F) found while parsing a string"
  | .keyMustBeString => "key must be a string"
  | .loneSurrogate => "lone leading surrogate in hex escape"
  | .trailingComma => "trailing comma"
  | .trailingCharacters => "trailing characters"
  | .unfinishedSurrogate => "unexpected end of hex escape"
  | .wrongType found expected =>
    "invalid type: " ++ found.message ++ ", expected " ++ expected
  | .wrongValue found expected =>
    "invalid value: " ++ found.message ++ ", expected " ++ expected
  | .wrongLength length expected =>
    "invalid length " ++ toString length ++ ", expected " ++ expected
  | .missingField name => "missing field `" ++ name ++ "`"
  | .duplicateField name => "duplicate field `" ++ name ++ "`"

end Fault

/-- A fault and where it was met: lines from 1 on, columns in bytes. -/
structure LocatedFault where
  fault : Fault
  line : Nat
  column : Nat
deriving DecidableEq, Repr, Inhabited

def LocatedFault.message (f : LocatedFault) : String :=
  f.fault.message ++ " at line " ++ toString f.line ++ " column " ++ toString f.column

end Peripheral.Text
