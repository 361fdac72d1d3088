import Peripheral.Text.Utf8

/-!
# Consoles

A console takes the bytes a terminal displays and gives the keys typed on it, one at a time and
without waiting.

* `Console` : what a console offers;
* `Headless` : keys queued beforehand, output kept;
* `KeyChannel` : keys sent from elsewhere, output shown as a video terminal shows it.
-/

namespace Peripheral

/-- Byte-wise input and output of type `κ`. -/
class Console (κ : Type) where
  /-- Display a byte. -/
  write (byte : UInt8) (console : κ) : κ
  /-- The next key, if one was typed. -/
  getKey (console : κ) : Option UInt8 × κ
  /-- Keys that can be taken before there is none. -/
  waiting (console : κ) : Nat

def takeKey : List UInt8 → Option UInt8 × List UInt8
  | [] => (none, [])
  | key :: rest => (some key, rest)

/-- A console without a screen: it keeps what is displayed and has its keys queued. -/
structure Headless where
  input : List UInt8
  output : Array UInt8
deriving DecidableEq, Repr, Inhabited

namespace Headless

def withInput (keys : List UInt8) : Headless := ⟨keys, #[]⟩

def queueInput (keys : List UInt8) (c : Headless) : Headless := { c with input := c.input ++ keys }

def outputText (c : Headless) : String := Utf8.decodeLossy c.output.toList

instance : Console Headless where
  write byte c := { c with output := c.output.push byte }
  getKey c :=
    let (key, input) := takeKey c.input
    (key, { c with input })
  waiting c := c.input.length

end Headless

/-- A console whose keys come over a channel. Keys move from the channel to a buffer whenever one is
asked for. -/
structure KeyChannel where
  /-- Keys sent and not received yet. -/
  sent : List UInt8
  /-- Nothing more is going to be sent. -/
  closed : Bool
  buffer : List UInt8
  /-- Bytes shown so far. -/
  shown : Array UInt8
deriving DecidableEq, Repr, Inhabited

namespace KeyChannel

def empty : KeyChannel := ⟨[], false, [], #[]⟩

def send (keys : List UInt8) (c : KeyChannel) : KeyChannel :=
  if c.closed then c else { c with sent := c.sent ++ keys }

/-- Close the channel. What was sent before can still be received. -/
def close (c : KeyChannel) : KeyChannel := { c with closed := true }

def fill (c : KeyChannel) : KeyChannel := { c with sent := [], buffer := c.buffer ++ c.sent }

/-- The bytes that show a byte: a rubout or backspace blanks the character before it. -/
def display (byte : UInt8) : List UInt8 :=
  if byte = 0x08 ∨ byte = 0x7F then [0x08, 0x20, 0x08] else [byte]

instance : Console KeyChannel where
  write byte c := { c with shown := c.shown ++ display byte }
  getKey c :=
    let c := c.fill
    let (key, buffer) := takeKey c.buffer
    (key, { c with buffer })
  waiting c := c.buffer.length + c.sent.length

end KeyChannel

end Peripheral
