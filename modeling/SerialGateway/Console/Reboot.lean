/-!
# The reboot request

What this module delivers: the detector that watches the bytes of the console
for `@R`, which asks the node to reset itself. It remembers the last byte only.
-/

set_option autoImplicit false

namespace SerialGateway

/-- The detector of the reboot request. -/
structure RebootSequence where
  /-- The last byte that was fed; zero before the first. -/
  last : UInt8 := 0
  deriving DecidableEq, Repr

namespace RebootSequence

/-- The first byte of the request, `@`. -/
def leader : UInt8 := 64

/-- The byte that completes the request, `R`. -/
def trigger : UInt8 := 82

/-- Feed a byte; the answer tells whether it completes the request. -/
def feed (s : RebootSequence) (byte : UInt8) : Bool × RebootSequence :=
  (s.last == leader && byte == trigger, ⟨byte⟩)

end RebootSequence

end SerialGateway
