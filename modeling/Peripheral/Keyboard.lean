/-!
# Keys

`Key.code?` gives the byte that a key press sends to the machine, if it sends one: a control letter
its place in the alphabet, an ASCII character itself, and four other keys their control characters.
-/

namespace Peripheral

inductive Key where
  | char (c : Char)
  | enter
  | backspace
  | tab
  | escape
  /-- A key that sends nothing. -/
  | silent
deriving DecidableEq, Repr, Inhabited

namespace Key

/-- The letter of a control key, in upper case. -/
def letter? : Key → Option Char
  | .char c => if c.isAlpha then some c.toUpper else none
  | _ => none

def plain? : Key → Option UInt8
  | .char c => if c.toNat < 128 then some (UInt8.ofNat c.toNat) else none
  | .enter => some 13
  | .backspace => some 0x7F
  | .tab => some 9
  | .escape => some 27
  | .silent => none

def code? (key : Key) (control : Bool) : Option UInt8 :=
  match control, key.letter? with
  | true, some letter => some (UInt8.ofNat (letter.toNat - 64))
  | _, _ => key.plain?

end Key

end Peripheral
