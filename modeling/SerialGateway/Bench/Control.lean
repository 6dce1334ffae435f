import SerialGateway.Interrupt.Control

/-!
# An interrupt controller that keeps a record

What this module delivers: the interrupt controller of the test bench. It holds
one flag and remembers what was asked of it, so that a test can tell apart two
programs that leave the same flag behind.
-/

set_option autoImplicit false

namespace SerialGateway.Bench

/-- What can be asked of an interrupt controller. -/
inductive ControlStep where
  | query | mask | unmask
  deriving DecidableEq, Repr

/-- The interrupt controller of the bench. -/
structure Control where
  /-- Interrupts are delivered. -/
  enabled : Bool
  /-- What was asked of the controller, latest first. -/
  history : List ControlStep := []
  deriving DecidableEq, Repr

namespace Control

instance : InterruptControl Control where
  isEnabled c := c.enabled
  query c := { c with history := .query :: c.history }
  mask c := ⟨false, .mask :: c.history⟩
  unmask c := ⟨true, .unmask :: c.history⟩
  isEnabled_query _ := rfl
  isEnabled_mask _ := rfl
  isEnabled_unmask _ := rfl

/-- How often interrupts were unmasked, as far as the record goes. -/
def unmaskings (c : Control) : Nat := c.history.count .unmask

/-- Start a new record. -/
def forget (c : Control) : Control := { c with history := [] }

/-- Set the flag by hand, off the record. -/
def setEnabled (enabled : Bool) (c : Control) : Control := { c with enabled }

end Control

end SerialGateway.Bench
