import Peripheral.Text.Fault

/-!
# Statuses

Every operation ends in the OK status or in a `Status`, which names what went wrong or why
processing stops.

* `Status.code` : the numeric code; device stop codes lie below `Status.base`;
* `Status.message` : the text shown to a user;
* `Status.cause?` : the text of the failure underneath, if there is one;
* `Status.isExpectedStop` : statuses that end a run without being an anomaly.
-/

namespace Peripheral

/-- A call of an opened medium that can fail. -/
inductive MediaCall where
  | length
  | read
  | write
  | flush
deriving DecidableEq, Repr, Inhabited

def MediaCall.word : MediaCall → String
  | .length => "len"
  | .read => "read"
  | .write => "write"
  | .flush => "flush"

/-- Why reading, writing or opening a resource failed. -/
inductive IoFault where
  | entityNotFound
  | noSuchFile
  | badDescriptor
  | notDirectory
  | isDirectory
  | invalidOffset
  | nameTooLong
  | embeddedNul
  | invalidUtf8
  | injected (call : MediaCall)
  | described (text : String)
deriving DecidableEq, Repr, Inhabited

def IoFault.message : IoFault → String
  | .entityNotFound => "entity not found"
  | .noSuchFile => "No such file or directory (os error 2)"
  | .badDescriptor => "Bad file descriptor (os error 9)"
  | .notDirectory => "Not a directory (os error 20)"
  | .isDirectory => "Is a directory (os error 21)"
  | .invalidOffset => "Invalid argument (os error 22)"
  | .nameTooLong => "File name too long (os error 36)"
  | .embeddedNul => "file name contained an unexpected NUL byte"
  | .invalidUtf8 => "stream did not contain valid UTF-8"
  | .injected call => "injected " ++ call.word ++ " fault"
  | .described text => text

/-- What is wrong with an argument. -/
inductive ArgumentFault where
  | zeroSectorSize
  | partialSector (bytes sectorSize : UInt64)
  | noUnit (device : String) (unit : UInt64)
  | noDrive (drive : UInt64)
  | foreignUnit (unit : Nat)
  | idleWait (ticks : Int32)
  | tickRate (rate : Float)
  | zeroConfiguredSectorSize
  | oversizedDisk (sectors sectorSize : UInt64)
  | terminalTicks
  | described (text : String)
deriving DecidableEq, Repr, Inhabited

def ArgumentFault.message : ArgumentFault → String
  | .zeroSectorSize => "sector size is zero"
  | .partialSector bytes size =>
    s!"write of {bytes} bytes is not a whole number of {size}-byte sectors"
  | .noUnit device unit => s!"{device} has no unit {unit}"
  | .noDrive drive => s!"no drive DK{drive}"
  | .foreignUnit unit => s!"unit {unit} is not a DK drive"
  | .idleWait ticks => s!"noqueueWait must be positive, got {ticks}"
  | .tickRate rate => "instructionsPerSecond must be positive, got " ++ Decimal.plain rate
  | .zeroConfiguredSectorSize => "sectorSize must be non-zero"
  | .oversizedDisk sectors size => s!"disk of {sectors} sectors of {size} bytes is too large"
  | .terminalTicks => "terminal tick counts must be positive"
  | .described text => text

/-- What went wrong inside the scheduling core. -/
inductive InternalFault where
  | transferInFlight (unit : String)
  | described (text : String)
deriving DecidableEq, Repr, Inhabited

def InternalFault.message : InternalFault → String
  | .transferInFlight unit => s!"{unit}: transfer already in flight"
  | .described text => text

/-- The ways an operation can end other than well. -/
inductive Status where
  | notAttachable
  | notAttached
  | alreadyAttached
  | openFailed (name : String) (cause : IoFault)
  | io (cause : IoFault)
  | noMemory
  | nonExistentAddress (address : UInt64)
  | readOnly
  | stopped
  | step
  | expect
  | remote
  | exit
  | runTimeLimit
  | deviceStop (code : UInt32)
  | noFunction
  | unknownDevice (name : String)
  | invalidArgument (cause : ArgumentFault)
  | internal (cause : InternalFault)
  | description (cause : Text.LocatedFault)
deriving DecidableEq, Repr, Inhabited

/-- An operation that only ends well or not. -/
abbrev Result := Except Status Unit

instance : Inhabited Result := ⟨.ok ()⟩

namespace Status

def base : UInt32 := 64

def code : Status → UInt32
  | .deviceStop code => code
  | .nonExistentAddress _ => base + 1
  | .notAttached => base + 2
  | .io _ => base + 3
  | .stopped => base + 5
  | .notAttachable => base + 7
  | .openFailed _ _ => base + 8
  | .noMemory => base + 9
  | .invalidArgument _ => base + 10
  | .step => base + 11
  | .unknownDevice _ => base + 15
  | .readOnly => base + 16
  | .noFunction => base + 18
  | .internal _ => base + 19
  | .alreadyAttached => base + 20
  | .exit => base + 33
  | .remote => base + 36
  | .expect => base + 39
  | .runTimeLimit => base + 41
  | .description _ => base + 42

def hexadecimal (address : UInt64) : String :=
  "0x" ++ String.ofList (Nat.toDigits 16 address.toNat)

def message : Status → String
  | .notAttachable => "Unit not attachable"
  | .notAttached => "Unit not attached"
  | .alreadyAttached => "Unit already attached"
  | .openFailed name cause => "Cannot open " ++ name ++ ": " ++ cause.message
  | .io cause => "I/O error: " ++ cause.message
  | .noMemory => "Memory exhausted"
  | .nonExistentAddress address => "Address " ++ hexadecimal address ++ " beyond end of unit"
  | .readOnly => "Unit is read only"
  | .stopped => "Simulation stopped"
  | .step => "Step expired"
  | .expect => "Expect matched"
  | .remote => "Remote console command"
  | .exit => "Exit requested"
  | .runTimeLimit => "Run time limit exhausted"
  | .deviceStop code => s!"Device stop code {code}"
  | .noFunction => "No function"
  | .unknownDevice name => "Unknown device: " ++ name
  | .invalidArgument cause => "Invalid argument: " ++ cause.message
  | .internal cause => "Internal error: " ++ cause.message
  | .description cause => "Configuration error: " ++ cause.message

/-- The text of the input or output failure underneath a status. -/
def cause? : Status → Option String
  | .openFailed _ cause => some cause.message
  | .io cause => some cause.message
  | _ => none

/-- Statuses that end event processing without being an anomaly. -/
def isExpectedStop : Status → Bool
  | .stopped | .step | .expect | .remote | .exit | .runTimeLimit | .deviceStop _ => true
  | _ => false

end Status

end Peripheral
