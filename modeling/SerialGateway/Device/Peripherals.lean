import SerialGateway.Device.Line

/-!
# The gap timer and the devices of a node

What this module delivers: what the bus channel needs of the timer that
measures silence between two bytes (`GapTimer`), and the devices that a gateway
node is attached to (`Peripherals`). The count of the timer reads as 16 bits;
reaching the compare value raises the timeout of an open frame.
-/

set_option autoImplicit false

namespace SerialGateway

/-- A silence timer among the devices `D`. -/
structure GapTimer (D : Type) where
  /-- The timer is counting; a served timeout stops it. -/
  running : D → Bool
  /-- Ticks since the last restart, as far as 16 bits can tell. -/
  count : D → UInt16
  /-- Zero the count and start counting. -/
  restart : D → D
  /-- Stop counting. -/
  stop : D → D
  /-- Set the count at which the timeout is raised. -/
  setCompare : UInt16 → D → D

/-- A silence timer of one part of the devices. -/
def GapTimer.within {W D : Type} (part : Part W D) (timer : GapTimer D) : GapTimer W where
  running w := timer.running (part.get w)
  count w := timer.count (part.get w)
  restart := part.modify timer.restart
  stop := part.modify timer.stop
  setCompare ticks := part.modify (timer.setCompare ticks)

/-- The devices a gateway node is attached to: the receivers of the console and
of the bus, and the timer that measures gaps on the bus. -/
class Peripherals (D : Type) where
  /-- The receive side of the console line. -/
  console : Receiver D
  /-- The receive side of the bus line. -/
  bus : Receiver D
  /-- The timer that measures silence on the bus. -/
  gap : GapTimer D

end SerialGateway
