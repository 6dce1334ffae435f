import SerialGateway.Bus.Status
import SerialGateway.Bus.Timing
import SerialGateway.Counter
import SerialGateway.Device.Peripherals

/-!
# Frame detection on the bus

What this module delivers: the detector that splits the byte stream of the bus
into frames. A byte opens a frame if the gap timer was stopped by a timeout or
has counted more than the inter-frame silence since the previous byte. Every
byte restarts the timer and is counted, as received or as damaged.
-/

set_option autoImplicit false

namespace SerialGateway

/-- The traffic counts of a channel; both stay at 65535. -/
structure ChannelStats where
  /-- Undamaged bytes. -/
  received : UInt16 := 0
  /-- Damaged bytes. -/
  errors : UInt16 := 0
  deriving DecidableEq, Repr

/-- One more byte, received with the given errors. -/
def ChannelStats.count (s : ChannelStats) (errors : LineErrors) : ChannelStats :=
  if errors.any then { s with errors := Counter.bump16 s.errors }
  else { s with received := Counter.bump16 s.received }

/-- The frame detector of a channel. -/
structure GapDetector where
  /-- The silences that structure the channel. -/
  timing : ChannelTiming
  /-- The traffic so far. -/
  stats : ChannelStats := {}
  deriving DecidableEq, Repr

namespace GapDetector

variable {D : Type}

/-- The frame decision for a byte that comes `elapsed` ticks after the previous
one. A timer that does not run was stopped by the timeout of the last frame. -/
def startsFrame (g : GapDetector) (running : Bool) (elapsed : UInt16) : Bool :=
  !running || decide (g.timing.interFrame < elapsed)

/-- Set the timeout of the gap timer. -/
def arm (g : GapDetector) (timer : GapTimer D) (d : D) : D :=
  timer.setCompare g.timing.interFrame d

/-- Classify a byte and count it. The timer is read before it is restarted. -/
def onByte (g : GapDetector) (timer : GapTimer D) (errors : LineErrors) (d : D) :
    RxStatus × GapDetector × D :=
  let newFrame := g.startsFrame (timer.running d) (timer.count d)
  (RxStatus.encode newFrame errors, { g with stats := g.stats.count errors }, timer.restart d)

/-- The silence after a frame is over: the timer waits for the next byte. -/
def onTimeout (_ : GapDetector) (timer : GapTimer D) (d : D) : D := timer.stop d

end GapDetector

end SerialGateway
