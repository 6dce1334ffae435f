import SerialGateway.Board.Memory
import SerialGateway.Device.Line
import SerialGateway.Settings

/-!
# Serial units of the board

What this module delivers: a serial unit behind four registers, as a receiver
and as the transmit side, and its configuration at a bit rate. The board has two
of them: one for the console and one for the bus.
-/

set_option autoImplicit false

namespace SerialGateway

/-- A serial unit, by the address of its registers. -/
structure Uart where
  /-- The address of the first register. -/
  base : Address
  deriving DecidableEq, Repr

namespace Uart

/-- The unit of the console line, USART2. -/
def console : Uart := ⟨0x40004400⟩

/-- The unit of the bus, USART1. -/
def bus : Uart := ⟨0x40011000⟩

/-- The status register. -/
def statusReg (u : Uart) : Address := u.base

/-- The data register. -/
def dataReg (u : Uart) : Address := u.base + 0x04

/-- The bit rate register. -/
def rateReg (u : Uart) : Address := u.base + 0x08

/-- The first control register. -/
def controlReg (u : Uart) : Address := u.base + 0x0C

/-- Status: the parity bit of the waiting byte does not match. -/
def parityError : Word := Word.bit 0

/-- Status: the stop bit of the waiting byte is missing. -/
def framingError : Word := Word.bit 1

/-- Status: a byte was lost before the waiting one. -/
def overrunError : Word := Word.bit 3

/-- Status: a received byte waits in the data register. -/
def receiveReady : Word := Word.bit 5

/-- Status: the data register takes a byte to transmit. -/
def transmitReady : Word := Word.bit 7

/-- Control: the receiver is on. -/
def receiverOn : Word := Word.bit 2

/-- Control: the transmitter is on. -/
def transmitterOn : Word := Word.bit 3

/-- Control: the unit is on. -/
def unitOn : Word := Word.bit 13

/-- A received byte waits. -/
def isPending (u : Uart) (m : Memory) : Bool := m.anyBit u.statusReg receiveReady

/-- The errors latched with the waiting byte. -/
def errors (u : Uart) (m : Memory) : LineErrors where
  framing := m.anyBit u.statusReg framingError
  parity := m.anyBit u.statusReg parityError
  overrun := m.anyBit u.statusReg overrunError

/-- The low byte of the data register. -/
def readByte (u : Uart) (m : Memory) : UInt8 := (m.read u.dataReg).toUInt8

/-- The unit as a receiver. The data register holds one byte. That the hardware
releases it when it is read is not part of the plain memory, where the bit that
tells of a waiting byte keeps its value: a loop that takes what is pending would
go on for ever there, and is cut off after the byte. -/
def receiver (u : Uart) : Receiver Memory where
  pending := u.isPending
  errors := u.errors
  take m := (u.readByte m, m)
  backlog _ := 1

/-- The plain memory is the same when a receiver has been drained. -/
theorem drain_receiver (u : Uart) (m : Memory) : u.receiver.drain m = m := by
  show u.receiver.drop 1 m = m
  rw [Receiver.drop]
  split <;> rfl

/-- The transmit side takes a byte. -/
def canSend (u : Uart) (m : Memory) : Bool := m.anyBit u.statusReg transmitReady

/-- Hand a byte to the transmit side. -/
def send (u : Uart) (byte : UInt8) (m : Memory) : Memory := m.write u.dataReg byte.toUInt32

/-- The divisor of the system clock that comes nearest to a bit rate. -/
def divisor (bitrate : UInt32) : Word := (Settings.systemClock + bitrate / 2) / bitrate

/-- Set the bit rate of the unit, and turn it on with the given sides. -/
def enable (u : Uart) (bitrate : UInt32) (sides : Word) (m : Memory) : Memory :=
  (m.write u.rateReg (divisor bitrate)).write u.controlReg (unitOn ||| sides)

end Uart

end SerialGateway
