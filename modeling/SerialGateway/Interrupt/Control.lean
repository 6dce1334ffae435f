/-!
# Interrupt control

What this module delivers: the one thing the node asks of a processor, namely
to tell whether interrupts are delivered, to mask them and to unmask them.
Asking is an event of its own, so that a controller may record it.
-/

set_option autoImplicit false

namespace SerialGateway

/-- A controller that delivers interrupts or holds them back. -/
class InterruptControl (M : Type) where
  /-- Interrupts are delivered. -/
  isEnabled : M → Bool
  /-- The controller after software has asked whether interrupts are delivered. -/
  query : M → M
  /-- Hold interrupts back. -/
  mask : M → M
  /-- Deliver interrupts. -/
  unmask : M → M
  isEnabled_query : ∀ m, isEnabled (query m) = isEnabled m
  isEnabled_mask : ∀ m, isEnabled (mask m) = false
  isEnabled_unmask : ∀ m, isEnabled (unmask m) = true

attribute [simp] InterruptControl.isEnabled_query InterruptControl.isEnabled_mask
  InterruptControl.isEnabled_unmask

end SerialGateway
