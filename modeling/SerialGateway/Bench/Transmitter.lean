import SerialGateway.Device.Line

/-!
# A transmitter with a schedule

What this module delivers: the transmitter of the test bench. Before its `k`-th
byte it answers "not ready" to `busy k` polls. It records every poll and every
byte it is handed, with what its state of readiness was; the bytes, the number
of polls and the number of bytes that came too early are read off that record.
-/

set_option autoImplicit false

namespace SerialGateway.Bench

/-- What can happen to a transmitter. -/
inductive TransmitStep where
  /-- A poll, with its answer. -/
  | poll (ready : Bool)
  /-- A byte, and whether the transmitter was ready for it. -/
  | byte (value : UInt8) (ready : Bool)
  deriving DecidableEq, Repr

namespace TransmitStep

/-- The byte that was handed over, if one was. -/
def value? : TransmitStep → Option UInt8
  | .poll _ => none
  | .byte value _ => some value

/-- The step is a poll. -/
def isPoll : TransmitStep → Bool
  | .poll _ => true
  | .byte _ _ => false

/-- The step is a byte for which the transmitter was not ready. -/
def isEarly : TransmitStep → Bool
  | .poll _ => false
  | .byte _ ready => !ready

end TransmitStep

/-- A transmitter that is busy by a schedule. -/
structure Scheduled where
  /-- The polls it refuses before each byte, by the number of bytes before. -/
  busy : Nat → Nat
  /-- How many bytes it was handed. -/
  taken : Nat
  /-- How many more polls it refuses. -/
  refusals : Nat
  /-- What happened to it, latest first. -/
  history : List TransmitStep

namespace Scheduled

/-- A transmitter to which nothing has happened yet. -/
def ofSchedule (busy : Nat → Nat) : Scheduled where
  busy := busy
  taken := 0
  refusals := busy 0
  history := []

/-- The transmitter is ready when it has no refusal left. -/
def isReady (t : Scheduled) : Bool := t.refusals == 0

/-- The transmitter after a poll. -/
def poll (t : Scheduled) : Scheduled :=
  { t with refusals := t.refusals - 1, history := .poll t.isReady :: t.history }

/-- The transmitter after it was handed a byte. -/
def send (value : UInt8) (t : Scheduled) : Scheduled :=
  { t with
    taken := t.taken + 1
    refusals := t.busy (t.taken + 1)
    history := .byte value t.isReady :: t.history }

instance : Transmitter Scheduled where
  ready := isReady
  poll := poll
  send := send
  patience := refusals
  patience_poll t h := by
    have hne : t.refusals ≠ 0 := by simpa [isReady] using h
    show t.refusals - 1 < t.refusals
    omega

/-- The bytes the transmitter was handed, in order. -/
def written (t : Scheduled) : List UInt8 := t.history.reverse.filterMap TransmitStep.value?

/-- How often the transmitter was polled. -/
def polls (t : Scheduled) : Nat := t.history.countP TransmitStep.isPoll

/-- How many bytes came while the transmitter was not ready. -/
def early (t : Scheduled) : Nat := t.history.countP TransmitStep.isEarly

end Scheduled

end SerialGateway.Bench
