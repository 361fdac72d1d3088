/-!
# Reading bytes as UTF-8

* `Utf8.step` : the first character of a byte string, or the length of the longest ill-formed start;
* `Utf8.decode?` : the text, if all of it is well formed;
* `Utf8.decodeLossy` : the text with `U+FFFD` for each ill-formed part.
-/

namespace Peripheral.Utf8

def isContinuation (b : UInt8) : Bool := 0x80 ≤ b && b ≤ 0xBF

/-- Bytes a lead byte announces, with the bounds of the second one; `none` for a byte that leads
nothing. -/
def lead? (b : UInt8) : Option (Nat × UInt8 × UInt8) :=
  if 0xC2 ≤ b && b ≤ 0xDF then some (2, 0x80, 0xBF)
  else if b = 0xE0 then some (3, 0xA0, 0xBF)
  else if b = 0xED then some (3, 0x80, 0x9F)
  else if 0xE1 ≤ b && b ≤ 0xEF then some (3, 0x80, 0xBF)
  else if b = 0xF0 then some (4, 0x90, 0xBF)
  else if 0xF1 ≤ b && b ≤ 0xF3 then some (4, 0x80, 0xBF)
  else if b = 0xF4 then some (4, 0x80, 0x8F)
  else none

def payload (b : UInt8) : Nat := b.toNat % 64

/-- The character at the front (`none` if it is ill formed) and the bytes it takes, at least one. -/
def step (b : UInt8) (rest : List UInt8) : Option Char × Nat :=
  if b < 0x80 then (some (Char.ofNat b.toNat), 1)
  else
    match lead? b, rest with
    | some (size, low, high), c :: rest =>
      if !(low ≤ c && c ≤ high) then (none, 1)
      else if size = 2 then (some (Char.ofNat (b.toNat % 32 * 64 + payload c)), 2)
      else
        match rest with
        | [] => (none, 2)
        | d :: rest =>
          if !isContinuation d then (none, 2)
          else if size = 3 then
            (some (Char.ofNat ((b.toNat % 16 * 64 + payload c) * 64 + payload d)), 3)
          else
            match rest with
            | [] => (none, 3)
            | e :: _ =>
              if !isContinuation e then (none, 3)
              else (some (Char.ofNat
                (((b.toNat % 8 * 64 + payload c) * 64 + payload d) * 64 + payload e)), 4)
    | _, _ => (none, 1)

/-- The characters of a byte string, `none` standing for each ill-formed part. -/
def scan : List UInt8 → List (Option Char)
  | [] => []
  | b :: rest =>
    let found := step b rest
    found.1 :: scan (rest.drop (found.2 - 1))
termination_by bytes => bytes.length
decreasing_by simp only [List.length_drop, List.length_cons]; omega

def decode? (bytes : List UInt8) : Option String :=
  ((scan bytes).mapM id).map String.ofList

/-- The text of any bytes, each ill-formed part read as `U+FFFD`. -/
def decodeLossy (bytes : List UInt8) : String :=
  String.ofList ((scan bytes).map fun c => c.getD (Char.ofNat 0xFFFD))

end Peripheral.Utf8
