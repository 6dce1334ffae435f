/-!
# Event flags

What this module delivers: a register of eight conditions. Interrupt handlers
and hooks set them, the foreground polls and clears them. There is no queue:
setting a condition that is already pending changes nothing, and whoever set it
is told so.
-/

set_option autoImplicit false

namespace SerialGateway

/-- One or more conditions of the register. -/
structure Event where
  /-- The bits of the conditions. -/
  mask : UInt8
  deriving DecidableEq, Repr

/-- Why something is no event. -/
inductive EventError where
  /-- The register has no such bit. -/
  | bitOutOfRegister
  deriving DecidableEq, Repr

/-- The text of an event error. -/
def EventError.message : EventError → String
  | .bitOutOfRegister => "event register is 8 bits wide"

namespace Event

/-- The event of one condition, by its bit number. -/
def ofBit (bit : Nat) : Except EventError Event :=
  if bit < 8 then .ok ⟨1 <<< UInt8.ofNat bit⟩ else .error .bitOutOfRegister

/-- The conditions of both events. -/
def join (a b : Event) : Event := ⟨a.mask ||| b.mask⟩

/-- The event of one condition and of further ones. The first bit that is out
of the register decides. -/
def ofBits (bit : Nat) (bits : List Nat) : Except EventError Event := do
  bits.foldlM (fun e b => return e.join (← ofBit b)) (← ofBit bit)

end Event

/-- The register of pending conditions. -/
structure EventRegister where
  /-- A set bit is a pending condition. -/
  bits : UInt8 := 0
  deriving DecidableEq, Repr

namespace EventRegister

/-- At least one condition of the event is pending. -/
def isPending (r : EventRegister) (e : Event) : Bool := r.bits &&& e.mask != 0

/-- Mark the event pending; the answer tells whether any of it already was. -/
def set (r : EventRegister) (e : Event) : Bool × EventRegister :=
  (r.isPending e, ⟨r.bits ||| e.mask⟩)

/-- Clear the event; the answer tells whether any of it was pending. -/
def clear (r : EventRegister) (e : Event) : Bool × EventRegister :=
  (r.isPending e, ⟨r.bits &&& ~~~e.mask⟩)

end EventRegister

end SerialGateway
