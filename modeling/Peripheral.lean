import Peripheral.Main
import Peripheral.Session.Run
import Peripheral.Storage.Faults
import Peripheral.Storage.MemoryImages
import Peripheral.Keyboard
import Peripheral.Agenda.Lemmas
import Peripheral.Simulation.Pops
import Peripheral.Proofs.TickRange
import Peripheral.Proofs.Changes
import Peripheral.Proofs.Chronicle
import Peripheral.Proofs.Deadlines
import Peripheral.Proofs.Chain
import Peripheral.Proofs.Course
import Peripheral.Proofs.Wholeness
import Peripheral.Proofs.Bookings
import Peripheral.Proofs.DueTimes
import Peripheral.Proofs.Attaching
import Peripheral.Proofs.Ledger
import Peripheral.Proofs.Passive
import Peripheral.Proofs.Firing
import Peripheral.Proofs.Ticking
import Peripheral.Proofs.Driving
import Peripheral.Proofs.Conservation
import Peripheral.Proofs.Latency
import Peripheral.Proofs.Ticketing
import Peripheral.Proofs.Agreement
import Peripheral.Proofs.Buffering
import Peripheral.Proofs.Staff
import Peripheral.Proofs.Timekeeping
import Peripheral.Proofs.Devices
import Peripheral.Proofs.Transcript
import Peripheral.Proofs.TerminalUnits
import Peripheral.Proofs.Conversation
import Peripheral.Proofs.Echoing
import Peripheral.Proofs.Asking
import Peripheral.Proofs.Attendance
import Peripheral.Proofs.Extents
import Peripheral.Proofs.DriveSize
import Peripheral.Proofs.Periods
import Peripheral.Proofs.Reachable
import Peripheral.Proofs.Clearing
import Peripheral.Proofs.Resetting
import Peripheral.Proofs.Confinement
import Peripheral.Proofs.ReadEnds
import Peripheral.Proofs.Ranges
import Peripheral.Proofs.Rounds
import Peripheral.Proofs.Waits
import Peripheral.Proofs.Stopping
import Peripheral.Proofs.Budgets
import Peripheral.Proofs.WrappingDeadlines
import Peripheral.Proofs.Turns
import Peripheral.Proofs.Headroom
import Peripheral.Proofs.Forgotten
import Peripheral.Proofs.Enduring
import Peripheral.Proofs.Teardown
import Peripheral.Proofs.Undisturbed
import Peripheral.Proofs.Printing
import Peripheral.Proofs.Typing
import Peripheral.Proofs.AttachGrammar
import Peripheral.Proofs.StandIn
import Peripheral.Proofs.ReadOnly
import Peripheral.Proofs.Registering
import Peripheral.Proofs.Installing
import Peripheral.Proofs.Copies
