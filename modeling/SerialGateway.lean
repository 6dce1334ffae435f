import SerialGateway.Bench.Control
import SerialGateway.Bench.Devices
import SerialGateway.Bench.Transmitter
import SerialGateway.Board.Core
import SerialGateway.Board.Gateway
import SerialGateway.Board.Memory
import SerialGateway.Board.Setup
import SerialGateway.Board.SilenceTimer
import SerialGateway.Board.Uart
import SerialGateway.Bus.Detector
import SerialGateway.Bus.Status
import SerialGateway.Bus.Timing
import SerialGateway.Console.Reboot
import SerialGateway.Console.Writer
import SerialGateway.Counter
import SerialGateway.Decimal
import SerialGateway.Device.Line
import SerialGateway.Device.Peripherals
import SerialGateway.Event
import SerialGateway.Interrupt.Control
import SerialGateway.Interrupt.Section
import SerialGateway.Node.Basic
import SerialGateway.Node.Calls
import SerialGateway.Node.WithBorrows
import SerialGateway.Part
import SerialGateway.Reentrant.CallTree
import SerialGateway.Reentrant.Component
import SerialGateway.Reentrant.Script
import SerialGateway.Reentrant.Stack
import SerialGateway.Ring.Basic
import SerialGateway.Ring.Lemmas
import SerialGateway.Ring.Queue
import SerialGateway.Schedule.Scheduler
import SerialGateway.Schedule.Tier
import SerialGateway.Settings
import SerialGateway.Proofs.Ring.Refinement
import SerialGateway.Proofs.Reentrant.Runs
import SerialGateway.Proofs.Schedule.Reentry
import SerialGateway.Proofs.Node.Linearization
import SerialGateway.Proofs.Reentrant.Hooks
import SerialGateway.Proofs.Bus.Traffic
import SerialGateway.Proofs.Node.BusChannel
import SerialGateway.Proofs.Schedule.Period
import SerialGateway.Proofs.Reentrant.Restricted
import SerialGateway.Proofs.Reentrant.Restoring
import SerialGateway.Proofs.Board.InterruptMask
import SerialGateway.Proofs.Bus.Frames
import SerialGateway.Proofs.Node.Framing
import SerialGateway.Proofs.Console.Ledger
import SerialGateway.Proofs.Node.ConsoleBooks
import SerialGateway.Proofs.Node.ConsoleStream
import SerialGateway.Proofs.Bus.Rates
import SerialGateway.Proofs.Events.Uses
import SerialGateway.Proofs.Node.Notifications
import SerialGateway.Proofs.Reentrant.Remembered
import SerialGateway.Proofs.Reentrant.Order
import SerialGateway.Proofs.Node.RebootRequest
import SerialGateway.Proofs.Board.Reset
import SerialGateway.Proofs.Reentrant.Separate
import SerialGateway.Proofs.Device.Wiring
import SerialGateway.Proofs.Node.Subsystems
import SerialGateway.Proofs.Bus.Threshold
import SerialGateway.Proofs.Bus.Silence
import SerialGateway.Proofs.Node.LongSilence
import SerialGateway.Proofs.Node.TaskMask
import SerialGateway.Proofs.Node.FlushedReboot
import SerialGateway.Proofs.Interrupt.NestedSections
import SerialGateway.Proofs.Reentrant.Completion
import SerialGateway.Proofs.Node.ReentryEnds
import SerialGateway.Proofs.Board.Registers
import SerialGateway.Proofs.Board.TimerSimulation
import SerialGateway.Proofs.Board.BusReception
import SerialGateway.Proofs.Board.Fields
import SerialGateway.Proofs.Board.BringUp
import SerialGateway.Proofs.Console.Output
import SerialGateway.Proofs.Ring.WordArithmetic
import SerialGateway.Proofs.Reentrant.Fallible
import SerialGateway.Proofs.Node.Borrows
