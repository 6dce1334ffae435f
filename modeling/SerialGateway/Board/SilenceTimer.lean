import SerialGateway.Board.Memory
import SerialGateway.Device.Peripherals

/-!
# The silence timer of the board

What this module delivers: the 32-bit hardware timer TIM2 as the gap timer of
the bus. Its count reads as 65535 when it has gone past 16 bits. Compare channel
1 raises the timeout; its flag is cleared with every restart.
-/

set_option autoImplicit false

namespace SerialGateway.SilenceTimer

/-- The address of the first register of TIM2. -/
def base : Address := 0x40000000

/-- The control register. -/
def controlReg : Address := base

/-- The status register. -/
def statusReg : Address := base + 0x10

/-- The event register. -/
def eventReg : Address := base + 0x14

/-- The count. -/
def countReg : Address := base + 0x24

/-- The prescaler. -/
def prescalerReg : Address := base + 0x28

/-- The value at which the count starts over. -/
def reloadReg : Address := base + 0x2C

/-- The compare value of channel 1. -/
def compareReg : Address := base + 0x34

/-- Control: the timer counts. -/
def countingBit : Word := Word.bit 0

/-- Status: the count has reached the compare value. -/
def compareFlag : Word := Word.bit 1

/-- Event: take over the prescaler. -/
def updateEvent : Word := Word.bit 0

/-- The timer counts. -/
def isRunning (m : Memory) : Bool := m.anyBit controlReg countingBit

/-- A word as 16 bits; one that does not fit reads as 65535. -/
def clampCount (v : Word) : UInt16 := if v ≤ 65535 then v.toUInt16 else 65535

/-- The count, as far as 16 bits can tell. -/
def count (m : Memory) : UInt16 := clampCount (m.read countReg)

/-- The count has reached the compare value since the flag was last cleared. -/
def comparePending (m : Memory) : Bool := m.anyBit statusReg compareFlag

/-- Clear the compare flag: a zero clears a flag of the status register, and a
one leaves it. -/
def clearCompare (m : Memory) : Memory := m.write statusReg (~~~compareFlag)

/-- Zero the count, clear the compare flag, and count. -/
def restart (m : Memory) : Memory :=
  (clearCompare (m.write countReg 0)).setBits controlReg countingBit

/-- Stop counting. -/
def stop (m : Memory) : Memory := m.clearBits controlReg countingBit

/-- Set the compare value. -/
def setCompare (ticks : UInt16) (m : Memory) : Memory := m.write compareReg ticks.toUInt32

/-- TIM2 as a gap timer. -/
def gapTimer : GapTimer Memory where
  running := isRunning
  count := count
  restart := restart
  stop := stop
  setCompare := setCompare

end SerialGateway.SilenceTimer
