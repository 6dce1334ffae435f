import SerialGateway.Board.Memory
import SerialGateway.Interrupt.Control
import SerialGateway.Settings

/-!
# The processor core

What this module delivers: interrupt control by the processor's mask bit
(`Primask`), the system tick that drives the scheduler, and what is known of the
reset of the system (`SystemReset`). The tick has the lowest priority: tasks run
inside its handler, and reception has to preempt them.

The reset itself belongs to the support code of the processor. The gateway is
given over any implementation of it that requests the reset as the register
demands; `SystemReset.byRegister` is one.
-/

set_option autoImplicit false

namespace SerialGateway

/-- The interrupt mask of the core. -/
structure Primask where
  /-- Interrupts are held back. -/
  masked : Bool := false
  deriving DecidableEq, Repr

instance : InterruptControl Primask where
  isEnabled p := !p.masked
  query p := p
  mask _ := ⟨true⟩
  unmask _ := ⟨false⟩
  isEnabled_query _ := rfl
  isEnabled_mask _ := rfl
  isEnabled_unmask _ := rfl

namespace Core

/-- The control register of the system tick. -/
def tickControlReg : Address := 0xE000E010

/-- The reload value of the system tick. -/
def tickReloadReg : Address := 0xE000E014

/-- The current value of the system tick. -/
def tickCurrentReg : Address := 0xE000E018

/-- The priorities of the system handlers 12 to 15. -/
def handlerPriorityReg : Address := 0xE000ED20

/-- The reset control register. -/
def resetControlReg : Address := 0xE000ED0C

/-- Tick control: count cycles of the processor clock. -/
def tickClockSource : Word := Word.bit 2

/-- Tick control: count. -/
def tickEnable : Word := Word.bit 0

/-- Tick control: raise an interrupt. -/
def tickInterrupt : Word := Word.bit 1

/-- The lowest interrupt priority. -/
def lowestPriority : UInt8 := 0xF0

/-- Give the system tick, handler 15, the lowest priority. -/
def setTickPriority (m : Memory) : Memory := m.writeByte handlerPriorityReg 3 lowestPriority

/-- Let the system tick run at the base tick rate. -/
def configureTick (m : Memory) : Memory :=
  ((((m.write tickReloadReg (Settings.systemClock / Settings.tickRate - 1)).write
    tickCurrentReg 0).setBits tickControlReg tickClockSource).setBits
      tickControlReg tickEnable).setBits tickControlReg tickInterrupt

/-- Start the base tick. -/
def startTick (m : Memory) : Memory := configureTick (setTickPriority m)

/-- The key without which a write to the reset control register has no effect. -/
def resetKey : Word := 0x05FA0000

/-- The priority grouping, which a reset request keeps. -/
def priorityGrouping : Word := 0x700

/-- The reset request. -/
def resetBit : Word := Word.bit 2

/-- What is written to the reset control register to request a reset, when it holds `v`. -/
def resetRequest (v : Word) : Word := resetKey ||| (v &&& priorityGrouping) ||| resetBit

end Core

/-- The reset of the system, from which no caller comes back. -/
class SystemReset where
  /-- The memory when the reset has been requested. -/
  request : Memory → Memory
  /-- The register takes the request. -/
  read_control : ∀ m, (request m).read Core.resetControlReg =
    Core.resetRequest (m.read Core.resetControlReg)
  /-- Nothing else is written. -/
  read_of_ne : ∀ m a, a ≠ Core.resetControlReg → (request m).read a = m.read a

/-- A request by one write. -/
instance SystemReset.byRegister : SystemReset where
  request m := m.modify Core.resetControlReg Core.resetRequest
  read_control m := m.read_write_self Core.resetControlReg _
  read_of_ne m _ h := m.read_write_of_ne h _

end SerialGateway
