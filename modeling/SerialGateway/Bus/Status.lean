import SerialGateway.Device.Line

/-!
# The status of a bus byte

What this module delivers: what the application learns with every byte of the
bus, packed into eight bits: whether the byte opens a frame, whether it is
damaged, and how. Reading the line errors back out of a status gives the errors
that went in (`lineErrors_encode`).
-/

set_option autoImplicit false

namespace SerialGateway

/-- The status bits of a received byte. -/
structure RxStatus where
  /-- The bits; those that have no name are zero. -/
  bits : UInt8 := 0
  deriving DecidableEq, Repr

namespace RxStatus

/-- The byte is the first of a frame. -/
def newFrameBit : UInt8 := 1

/-- The byte is damaged. -/
def errorBit : UInt8 := 2

/-- The parity bit does not match. -/
def parityBit : UInt8 := 32

/-- A byte was lost before this one. -/
def overrunBit : UInt8 := 64

/-- The stop bit is missing. -/
def framingBit : UInt8 := 128

/-- The given bit is set. -/
def has (s : RxStatus) (bit : UInt8) : Bool := s.bits &&& bit != 0

/-- The byte is the first of a frame. -/
def isNewFrame (s : RxStatus) : Bool := s.has newFrameBit

/-- The byte is damaged. -/
def hasError (s : RxStatus) : Bool := s.has errorBit

/-- The errors latched with the byte. -/
def lineErrors (s : RxStatus) : LineErrors where
  framing := s.has framingBit
  parity := s.has parityBit
  overrun := s.has overrunBit

/-- `bit` if the condition holds, and no bit otherwise. -/
def bitIf (bit : UInt8) (condition : Bool) : UInt8 := if condition then bit else 0

/-- The status of a byte that opens a frame or not, received with the given
errors. -/
def encode (newFrame : Bool) (errors : LineErrors) : RxStatus :=
  ⟨bitIf newFrameBit newFrame ||| bitIf errorBit errors.any |||
    bitIf framingBit errors.framing ||| bitIf parityBit errors.parity |||
    bitIf overrunBit errors.overrun⟩

theorem lineErrors_encode (newFrame : Bool) (errors : LineErrors) :
    (encode newFrame errors).lineErrors = errors := by
  rcases errors with ⟨f, p, o⟩
  cases newFrame <;> cases f <;> cases p <;> cases o <;> decide

theorem isNewFrame_encode (newFrame : Bool) (errors : LineErrors) :
    (encode newFrame errors).isNewFrame = newFrame := by
  rcases errors with ⟨f, p, o⟩
  cases newFrame <;> cases f <;> cases p <;> cases o <;> decide

theorem hasError_encode (newFrame : Bool) (errors : LineErrors) :
    (encode newFrame errors).hasError = errors.any := by
  rcases errors with ⟨f, p, o⟩
  cases newFrame <;> cases f <;> cases p <;> cases o <;> decide

end RxStatus

end SerialGateway
