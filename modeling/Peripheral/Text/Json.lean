import Peripheral.Text.Fault

/-!
# Reading JSON in one pass

Readers take the characters still unread and give a value with the rest. A failure keeps where it
was met, as the characters unread there.

* `skipBlanks`, `readWord`, `readString`, `readNumber` : the smallest parts;
* `skipValue` : pass over a value of any shape and depth;
* `nextElement`, `nextKey`, `closeList`, `closeObject` : move through lists and objects;
* `Failure.locate` : the line and column of a failure.
-/

namespace Peripheral.Text.Json

inductive Place where
  /-- After all that was read. -/
  | behind (unread : List Char)
  /-- That many bytes further on, at most at the end of the text. -/
  | ahead (bytes : Nat) (unread : List Char)
  /-- Not settled yet: at the end of the value around. -/
  | unsettled (unread : List Char)
deriving Repr, Inhabited

/-- A fault and where it was met. -/
structure Failure where
  fault : Fault
  place : Place
deriving Repr, Inhabited

/-- A value read and the characters after it. -/
abbrev Reader (α : Type) := List Char → Except Failure (α × List Char)

/-- Fail after all that was read. -/
def failBehind {α : Type} (fault : Fault) (unread : List Char) : Except Failure α :=
  .error ⟨fault, .behind unread⟩

/-- Fail on the first byte of the next character. -/
def failFacing {α : Type} (fault : Fault) (unread : List Char) : Except Failure α :=
  .error ⟨fault, .ahead 1 unread⟩

/-- Fail at the end of the value around. -/
def failUnsettled {α : Type} (fault : Fault) (unread : List Char) : Except Failure α :=
  .error ⟨fault, .unsettled unread⟩

def byteCount (s : List Char) : Nat := s.foldl (fun n c => n + c.utf8Size) 0

/-- Line and column after a number of bytes, from the ones before. -/
def positionAfter : Nat → Nat → Nat → List Char → Nat × Nat
  | line, column, _, [] => (line, column)
  | line, column, bytes, c :: rest =>
    if bytes = 0 then (line, column)
    else if c = '\n' then positionAfter (line + 1) 0 (bytes - 1) rest
    else
      let size := min c.utf8Size bytes
      positionAfter line (column + size) (bytes - size) rest

/-- The line and column of a failure in a text. -/
def Failure.locate (text : List Char) (f : Failure) : LocatedFault :=
  let total := byteCount text
  let bytes := match f.place with
    | .behind unread | .unsettled unread => total - byteCount unread
    | .ahead count unread => min total (total - byteCount unread + count)
  let (line, column) := positionAfter 1 0 bytes text
  ⟨f.fault, line, column⟩

/-! ## Blanks and words -/

/-- The four blanks between values. -/
def isBlank (c : Char) : Bool := c = ' ' || c = '\n' || c = '\t' || c = '\r'

def skipBlanks (s : List Char) : List Char := s.dropWhile isBlank

def readWord : List Char → Reader Unit
  | [], s => .ok ((), s)
  | _ :: _, [] => failBehind .endInValue []
  | w :: word, c :: s =>
    if c = w then readWord word s else failFacing .expectedIdentifier (c :: s)

/-! ## Strings -/

def hexDigit? (c : Char) : Option Nat :=
  if '0' ≤ c ∧ c ≤ '9' then some (c.toNat - '0'.toNat)
  else if 'a' ≤ c ∧ c ≤ 'f' then some (c.toNat - 'a'.toNat + 10)
  else if 'A' ≤ c ∧ c ≤ 'F' then some (c.toNat - 'A'.toNat + 10)
  else none

/-- Four hexadecimal digits. If there are none, four bytes are passed over all the same. -/
def readHex (s : List Char) : Except Failure (Nat × List Char) :=
  if byteCount (s.take 4) < 4 then failBehind .endInString []
  else
    match (s.take 4).mapM hexDigit? with
    | some digits => .ok (digits.foldl (fun n d => n * 16 + d) 0, s.drop 4)
    | none => .error ⟨.invalidEscape, .ahead 4 s⟩

def isLeading (n : Nat) : Bool := 0xD800 ≤ n && n ≤ 0xDBFF

def isTrailing (n : Nat) : Bool := 0xDC00 ≤ n && n ≤ 0xDFFF

/-- The character of an escape by code units, after its `u`. The units of a pair come together. -/
def readUnicode (s : List Char) : Except Failure (Char × List Char) := do
  let (first, s) ← readHex s
  if isTrailing first then failBehind .loneSurrogate s
  else if !isLeading first then return (Char.ofNat first, s)
  else
    match s with
    | '\\' :: 'u' :: s =>
      let (second, s) ← readHex s
      if isTrailing second then
        return (Char.ofNat (0x10000 + (first - 0xD800) * 0x400 + (second - 0xDC00)), s)
      else failBehind .loneSurrogate s
    | [] | ['\\'] => failBehind .endInString []
    | '\\' :: s => failFacing .unfinishedSurrogate s
    | s => failFacing .unfinishedSurrogate s

def shortEscape? (c : Char) : Option Char :=
  match c with
  | '"' => some '"'
  | '\\' => some '\\'
  | '/' => some '/'
  | 'b' => some (Char.ofNat 8)
  | 'f' => some (Char.ofNat 12)
  | 'n' => some '\n'
  | 'r' => some '\r'
  | 't' => some '\t'
  | _ => none

/-- The rest of a string after its opening quote; `read` holds its characters so far, the last one
first. The text is no longer than `fuel`. -/
def readStringFrom : Nat → List Char → Reader String
  | 0, _, s => failBehind .endInString s
  | _ + 1, _, [] => failBehind .endInString []
  | fuel + 1, read, c :: s =>
    if c = '"' then .ok (String.ofList read.reverse, s)
    else if c = '\\' then
      match s with
      | [] => failBehind .endInString []
      | 'u' :: s => do
        let (c, s) ← readUnicode s
        readStringFrom fuel (c :: read) s
      | e :: s =>
        match shortEscape? e with
        | some c => readStringFrom fuel (c :: read) s
        | none => failFacing .invalidEscape (e :: s)
    else if c.toNat < 0x20 then failBehind .controlCharacter s
    else readStringFrom fuel (c :: read) s

def readString : Reader String := fun s => readStringFrom (s.length + 1) [] s

/-- Pass over the rest of a string; escapes by code units need not make up characters. -/
def skipStringFrom : Nat → List Char → Except Failure (List Char)
  | 0, s => failBehind .endInString s
  | _ + 1, [] => failBehind .endInString []
  | fuel + 1, c :: s =>
    if c = '"' then .ok s
    else if c = '\\' then
      match s with
      | [] => failBehind .endInString []
      | 'u' :: s => do
        let (_, s) ← readHex s
        skipStringFrom fuel s
      | e :: s => if (shortEscape? e).isSome then skipStringFrom fuel s
        else failFacing .invalidEscape (e :: s)
    else if c.toNat < 0x20 then failBehind .controlCharacter (c :: s)
    else skipStringFrom fuel s

def skipString (s : List Char) : Except Failure (List Char) := skipStringFrom (s.length + 1) s

/-! ## Numbers -/

/-- A number: whole if it is written so and small enough, else a double. -/
inductive Number where
  | whole (i : Int)
  | real (x : Float)
deriving DecidableEq, Repr, Inhabited

def Number.found : Number → Found
  | .whole i => .integer i
  | .real x => .real x

def significandLimit : Nat := Nat.pow 2 64 - 1

/-- Digits joined to a significand as long as it stays below its limit: the significand, how many
digits were joined, and the rest. -/
def joinDigits : Nat → Nat → List Char → Nat × Nat × List Char
  | significand, count, [] => (significand, count, [])
  | significand, count, c :: s =>
    if c.isDigit then
      let joined := significand * 10 + (c.toNat - '0'.toNat)
      if significandLimit < joined then (significand, count, c :: s)
      else joinDigits joined (count + 1) s
    else (significand, count, c :: s)

def digitNext : List Char → Bool
  | [] => false
  | c :: _ => c.isDigit

def exponentNext : List Char → Bool
  | [] => false
  | c :: _ => c = 'e' || c = 'E'

def powerOfTen (n : Nat) : Float := Float.ofScientific 1 false n

/-- A double scaled by a power of ten in steps of at most `10 ^ 308`; `none` if it grows beyond all
doubles. -/
def scale : Nat → Float → Int → Option Float
  | 0, x, _ => some x
  | fuel + 1, x, exponent =>
    if exponent.natAbs ≤ 308 then
      if 0 ≤ exponent then
        let x := x * powerOfTen exponent.natAbs
        if x.isInf then none else some x
      else some (x / powerOfTen exponent.natAbs)
    else if x == 0 then some x
    else if 0 ≤ exponent then none
    else scale fuel (x / powerOfTen 308) (exponent + 308)

def signed (negative : Bool) (x : Float) : Float := if negative then -x else x

/-- The double of a significand and a decimal exponent. -/
def readParts (negative : Bool) (significand : Nat) (exponent : Int) : Reader Number := fun s =>
  match scale 8 (UInt64.ofNat significand).toFloat exponent with
  | some x => .ok (.real (signed negative x), s)
  | none => failBehind .numberOutOfRange s

def exponentLimit : Nat := Nat.pow 2 31 - 1

/-- The digits of an exponent joined to those before: the exponent, or the rest after the first
digit that takes it beyond its limit. -/
def joinExponent : Nat → List Char → Except (List Char) (Nat × List Char)
  | exponent, [] => .ok (exponent, [])
  | exponent, c :: s =>
    if c.isDigit then
      let joined := exponent * 10 + (c.toNat - '0'.toNat)
      if exponentLimit < joined then .error s else joinExponent joined s
    else .ok (exponent, c :: s)

/-- An exponent after its mark, added to the exponent so far. -/
def readExponent (negative : Bool) (significand : Nat) (before : Int) : Reader Number := fun s =>
  let (down, s) := match s with
    | '+' :: s => (false, s)
    | '-' :: s => (true, s)
    | s => (false, s)
  match s with
  | [] => failBehind .endInValue []
  | c :: s =>
    if !c.isDigit then failFacing .invalidNumber (c :: s)
    else
      match joinExponent (c.toNat - '0'.toNat) s with
      | .ok (exponent, s) =>
        readParts negative significand (if down then before - exponent else before + exponent) s
      | .error s =>
        if significand ≠ 0 ∧ !down then failBehind .numberOutOfRange s
        else .ok (.real (signed negative 0), s.dropWhile Char.isDigit)

/-- The fraction after a point, with the exponent so far. Digits that no longer fit are dropped. -/
def readFraction (negative : Bool) (significand : Nat) (before : Int) : Reader Number := fun s =>
  let (significand, count, s) := joinDigits significand 0 s
  if !digitNext s && count = 0 then
    match s with
    | [] => failFacing .endInValue []
    | s => failFacing .invalidNumber s
  else
    let s := s.dropWhile Char.isDigit
    if exponentNext s then readExponent negative significand (before - count) (s.drop 1)
    else readParts negative significand (before - count) s

/-- What follows the significand of a number. -/
def readTail (negative : Bool) (significand : Nat) : Reader Number
  | '.' :: s => readFraction negative significand 0 s
  | s =>
    if exponentNext s then readExponent negative significand 0 (s.drop 1)
    else if !negative then .ok (.whole significand, s)
    else if significand = 0 ∨ Nat.pow 2 63 < significand then
      .ok (.real (-(UInt64.ofNat significand).toFloat), s)
    else .ok (.whole (-(significand : Int)), s)

/-- What follows a significand that took all digits that fit: the digits left over only count. -/
def readLongTail (negative : Bool) (significand : Nat) : Reader Number := fun s =>
  let left := s.takeWhile Char.isDigit
  match s.dropWhile Char.isDigit with
  | '.' :: s => readFraction negative significand left.length s
  | s =>
    if exponentNext s then readExponent negative significand left.length (s.drop 1)
    else readParts negative significand left.length s

/-- A number after its sign. A zero in front stands alone. -/
def readNumber (negative : Bool) : Reader Number
  | [] => failBehind .endInValue []
  | '0' :: s =>
    if digitNext s then failFacing .invalidNumber s else readTail negative 0 s
  | c :: s =>
    if !c.isDigit then failFacing .invalidNumber (c :: s)
    else
      let (significand, _, s) := joinDigits (c.toNat - '0'.toNat) 0 s
      if digitNext s then readLongTail negative significand s
      else readTail negative significand s

def skipExponent (s : List Char) : Except Failure (List Char) :=
  let s := match s with
    | '+' :: s => s
    | '-' :: s => s
    | s => s
  match s with
  | [] => failBehind .invalidNumber []
  | c :: s =>
    if c.isDigit then .ok (s.dropWhile Char.isDigit) else failFacing .invalidNumber (c :: s)

/-- Pass over what follows the whole part of a number. -/
def skipTail : List Char → Except Failure (List Char)
  | '.' :: s =>
    if !digitNext s then failFacing .invalidNumber s
    else
      let s := s.dropWhile Char.isDigit
      if exponentNext s then skipExponent (s.drop 1) else .ok s
  | s => if exponentNext s then skipExponent (s.drop 1) else .ok s

def skipNumber : List Char → Except Failure (List Char)
  | [] => failBehind .invalidNumber []
  | '0' :: s => if digitNext s then failFacing .invalidNumber s else skipTail s
  | c :: s =>
    if c.isDigit then skipTail (s.dropWhile Char.isDigit) else failFacing .invalidNumber (c :: s)

/-! ## Values of any shape -/

/-- What is open around a value. -/
inductive Bracket where
  | list
  | object
deriving DecidableEq, Repr

/-- What a reader passes over next. -/
inductive Want where
  | value
  | key
  | separator

/-- Pass over a value with all that is in it; `around` are the brackets open around it, the
innermost first. Every step but the last passes over a character, so any `fuel` above the length of
the text suffices. -/
def skipFrom : Nat → Want → List Bracket → List Char → Except Failure (List Char)
  | 0, _, _, s => failFacing .endInValue s
  | fuel + 1, .value, around, s =>
    match skipBlanks s with
    | [] => failFacing .endInValue []
    | 'n' :: s => do
      let (_, s) ← readWord ['u', 'l', 'l'] s
      skipFrom fuel .separator around s
    | 't' :: s => do
      let (_, s) ← readWord ['r', 'u', 'e'] s
      skipFrom fuel .separator around s
    | 'f' :: s => do
      let (_, s) ← readWord ['a', 'l', 's', 'e'] s
      skipFrom fuel .separator around s
    | '-' :: s => do skipFrom fuel .separator around (← skipNumber s)
    | '"' :: s => do skipFrom fuel .separator around (← skipString s)
    | '[' :: s =>
      match skipBlanks s with
      | [] => failFacing .endInList []
      | ']' :: s => skipFrom fuel .separator around s
      | s => skipFrom fuel .value (.list :: around) s
    | '\x7b' :: s =>
      match skipBlanks s with
      | [] => failFacing .endInObject []
      | '\x7d' :: s => skipFrom fuel .separator around s
      | s => skipFrom fuel .key (.object :: around) s
    | c :: s =>
      if c.isDigit then do skipFrom fuel .separator around (← skipNumber (c :: s))
      else failFacing .expectedValue (c :: s)
  | fuel + 1, .key, around, s =>
    match skipBlanks s with
    | [] => failFacing .endInObject []
    | '"' :: s => do
      match skipBlanks (← skipString s) with
      | [] => failFacing .endInObject []
      | ':' :: s => skipFrom fuel .value around s
      | s => failFacing .expectedColon s
    | s => failFacing .keyMustBeString s
  | _ + 1, .separator, [], s => .ok s
  | fuel + 1, .separator, .list :: around, s =>
    match skipBlanks s with
    | [] => failFacing .endInList []
    | ',' :: s => skipFrom fuel .value (.list :: around) s
    | ']' :: s => skipFrom fuel .separator around s
    | s => failFacing .expectedListCommaOrEnd s
  | fuel + 1, .separator, .object :: around, s =>
    match skipBlanks s with
    | [] => failFacing .endInObject []
    | ',' :: s => skipFrom fuel .key (.object :: around) s
    | '\x7d' :: s => skipFrom fuel .separator around s
    | s => failFacing .expectedObjectCommaOrEnd s

def skipValue (s : List Char) : Except Failure (List Char) :=
  skipFrom (s.length + 1) .value [] s

/-! ## Lists and objects -/

/-- Move to the next element of a list: the characters from it on, or none at the end. The end is
not passed over. -/
def nextElement (first : Bool) (s : List Char) : Except Failure (Option (List Char)) :=
  match skipBlanks s with
  | [] => failFacing .endInList []
  | ']' :: _ => .ok none
  | c :: s =>
    if first then .ok (some (c :: s))
    else if c = ',' then
      match skipBlanks s with
      | [] => failFacing .endInValue []
      | ']' :: s => failFacing .trailingComma (']' :: s)
      | s => .ok (some s)
    else failFacing .expectedListCommaOrEnd (c :: s)

def closeList (s : List Char) : Except Failure (List Char) :=
  match skipBlanks s with
  | [] => failFacing .endInList []
  | ']' :: s => .ok s
  | ',' :: s =>
    match skipBlanks s with
    | ']' :: s => failFacing .trailingComma (']' :: s)
    | s => failFacing .trailingCharacters s
  | s => failFacing .trailingCharacters s

/-- Read the next key of an object, or none at the end. The end is not passed over. -/
def nextKey (first : Bool) (s : List Char) : Except Failure (Option (String × List Char)) :=
  match skipBlanks s with
  | [] => failFacing .endInObject []
  | '\x7d' :: _ => .ok none
  | c :: s =>
    if first then
      if c = '"' then (readString s).map some else failFacing .keyMustBeString (c :: s)
    else if c = ',' then
      match skipBlanks s with
      | [] => failFacing .endInValue []
      | '"' :: s => (readString s).map some
      | '\x7d' :: s => failFacing .trailingComma ('\x7d' :: s)
      | s => failFacing .keyMustBeString s
    else failFacing .expectedObjectCommaOrEnd (c :: s)

def passColon (s : List Char) : Except Failure (List Char) :=
  match skipBlanks s with
  | [] => failFacing .endInObject []
  | ':' :: s => .ok s
  | s => failFacing .expectedColon s

def closeObject (s : List Char) : Except Failure (List Char) :=
  match skipBlanks s with
  | [] => failFacing .endInObject []
  | '\x7d' :: s => .ok s
  | ',' :: s => failFacing .trailingComma (',' :: s)
  | s => failFacing .trailingCharacters s

/-- What a failure comes to at the end of the list or object around it: one that is not settled yet
is settled where `close` leaves off. -/
def Failure.settle (close : List Char → Except Failure (List Char)) (f : Failure) : Failure :=
  match f.place with
  | .unsettled unread =>
    match close unread with
    | .ok unread => { f with place := .behind unread }
    | .error g =>
      match g.place with
      | .behind unread | .ahead _ unread | .unsettled unread => { f with place := .behind unread }
  | _ => f

end Peripheral.Text.Json
