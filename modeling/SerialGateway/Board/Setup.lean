import SerialGateway.Board.SilenceTimer
import SerialGateway.Board.Uart

/-!
# Bringing up the board

What this module delivers: what is written when the board is taken (`bringUp`):
the clocks of the pins and of the devices, the pins of the two serial lines, the
two serial units, and the silence timer, stopped. Registers that other devices
share are changed only in the fields that belong to the gateway. With the board
up, the memory holds the devices of a node.
-/

set_option autoImplicit false

namespace SerialGateway.Board

/-- Clock enable of the pins. -/
def pinClockReg : Address := 0x40023830

/-- Clock enable of the slow devices. -/
def slowClockReg : Address := 0x40023840

/-- Clock enable of the fast devices. -/
def fastClockReg : Address := 0x40023844

/-- The mode of the pins of bank A, two bits a pin. -/
def pinModeReg : Address := 0x40020000

/-- The alternate functions of pins 0 to 7, four bits a pin. -/
def lowFunctionReg : Address := 0x40020020

/-- The alternate functions of pins 8 to 15, four bits a pin. -/
def highFunctionReg : Address := 0x40020024

/-- Replace field `place` of a word, `width` bits wide, and keep the others. -/
def setField (width place value : UInt32) (v : Word) : Word :=
  (v &&& ~~~((Word.bit width - 1) <<< (width * place))) ||| (value <<< (width * place))

/-- The mode of a pin that is driven by a device. -/
def deviceMode : UInt32 := 2

/-- The alternate function that connects a pin to a serial unit. -/
def serialFunction : UInt32 := 7

/-- The clocks of pin bank A, of USART2, of TIM2 and of USART1. -/
def enableClocks (m : Memory) : Memory :=
  ((m.setBits pinClockReg (Word.bit 0)).setBits
    slowClockReg (Word.bit 17 ||| Word.bit 0)).setBits fastClockReg (Word.bit 4)

/-- Pins 2 and 3 to the console unit, pin 10 to the bus unit. -/
def connectPins (m : Memory) : Memory :=
  ((m.modify pinModeReg fun v =>
      setField 2 10 deviceMode (setField 2 3 deviceMode (setField 2 2 deviceMode v))).modify
    lowFunctionReg fun v => setField 4 3 serialFunction (setField 4 2 serialFunction v)).modify
      highFunctionReg (setField 4 2 serialFunction)

/-- The timer stopped, over its full 32 bits, with its prescaler in force. -/
def prepareTimer (m : Memory) : Memory :=
  ((((m.write SilenceTimer.controlReg 0).write
    SilenceTimer.prescalerReg (Settings.systemClock / Settings.gapTimerRate - 1)).write
      SilenceTimer.reloadReg 0xFFFFFFFF).write
        SilenceTimer.eventReg SilenceTimer.updateEvent).write SilenceTimer.statusReg 0

/-- Clocks, pins, both serial units and the silence timer. -/
def bringUp (m : Memory) : Memory :=
  prepareTimer
    (Uart.bus.enable Settings.busBitrate Uart.receiverOn
      (Uart.console.enable Settings.consoleBitrate (Uart.transmitterOn ||| Uart.receiverOn)
        (connectPins (enableClocks m))))

instance : Peripherals Memory where
  console := Uart.console.receiver
  bus := Uart.bus.receiver
  gap := SilenceTimer.gapTimer

end SerialGateway.Board
