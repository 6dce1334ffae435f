import SerialGateway.Bus.Detector
import SerialGateway.Device.Peripherals
import SerialGateway.Ring.Basic

/-!
# Devices in two parts

The console line and the bus line of a node are apart if they are different parts of its devices
(`Wiring`): the receiver of the console is one part, the receiver of the bus with its gap timer is
the other, and what is done to one of them does not show in the other.
-/

set_option autoImplicit false

namespace SerialGateway

/-- How the devices of a node split into those of the console and those of the bus. -/
structure Wiring (D Con Bus : Type) [Peripherals D] where
  /-- What belongs to the console. -/
  console : Part D Con
  /-- What belongs to the bus. -/
  bus : Part D Bus
  /-- The receiver of the console. -/
  consoleReceiver : Receiver Con
  /-- The receiver of the bus. -/
  busReceiver : Receiver Bus
  /-- The gap timer. -/
  timer : GapTimer Bus
  console_eq : Peripherals.console = consoleReceiver.within console
  bus_eq : Peripherals.bus = busReceiver.within bus
  gap_eq : Peripherals.gap = timer.within bus
  console_put_bus : ∀ b d, console.get (bus.put b d) = console.get d
  bus_put_console : ∀ c d, bus.get (console.put c d) = bus.get d

namespace Ring

variable {cap : Nat} {W D : Type}

/-- Bytes are discarded from the part of the receiver. -/
theorem discard_within (part : Part W D) (rx : Receiver D) (n : Nat) (r : Ring cap) (w : W) :
    discard (rx.within part) n r w =
      ((discard rx n r (part.get w)).1, part.put (discard rx n r (part.get w)).2 w) := by
  induction n generalizing r w with
  | zero =>
      show (r, w) = (r, part.put (part.get w) w)
      rw [part.put_get]
  | succ n ih =>
      simp only [discard]
      by_cases hpending : rx.pending (part.get w) = true
      · have hwithin : (rx.within part).pending w = true := hpending
        have htake : (rx.within part).take w =
          ((rx.take (part.get w)).1, part.put (rx.take (part.get w)).2 w) := rfl
        -- the next byte is taken from the part that the last one has left
        rw [if_pos hpending, if_pos hwithin, ih, htake]
        simp only [part.get_put, part.put_put]
      · have hwithin : ¬ (rx.within part).pending w = true := hpending
        rw [if_neg hpending, if_neg hwithin, part.put_get]

theorem flush_within (part : Part W D) (rx : Receiver D) (r : Ring cap) (w : W) :
    r.flush (rx.within part) w =
      ((r.flush rx (part.get w)).1, part.put (r.flush rx (part.get w)).2 w) := by
  simp only [flush, discard_within]
  rfl

end Ring

/-! ## What the devices of a node do, line by line -/

namespace Wiring

variable {D Con Bus : Type} {cap : Nat} [Peripherals D] (wiring : Wiring D Con Bus) (d : D)

theorem take_console :
    Peripherals.console.take d = ((wiring.consoleReceiver.take (wiring.console.get d)).1,
      wiring.console.put (wiring.consoleReceiver.take (wiring.console.get d)).2 d) := by
  rw [wiring.console_eq]
  rfl

theorem flush_console (r : Ring cap) :
    r.flush Peripherals.console d = ((r.flush wiring.consoleReceiver (wiring.console.get d)).1,
      wiring.console.put (r.flush wiring.consoleReceiver (wiring.console.get d)).2 d) := by
  rw [wiring.console_eq, Ring.flush_within]

theorem errors_bus :
    Peripherals.bus.errors d = wiring.busReceiver.errors (wiring.bus.get d) := by
  rw [wiring.bus_eq]
  rfl

theorem take_bus :
    Peripherals.bus.take d = ((wiring.busReceiver.take (wiring.bus.get d)).1,
      wiring.bus.put (wiring.busReceiver.take (wiring.bus.get d)).2 d) := by
  rw [wiring.bus_eq]
  rfl

/-- The timer is read and restarted after the byte has been taken. -/
theorem onByte_take_bus (g : GapDetector) (errors : LineErrors) :
    g.onByte Peripherals.gap errors (Peripherals.bus.take d).2 =
      let taken := (wiring.busReceiver.take (wiring.bus.get d)).2
      ((g.onByte wiring.timer errors taken).1, (g.onByte wiring.timer errors taken).2.1,
        wiring.bus.put (g.onByte wiring.timer errors taken).2.2 d) := by
  rw [wiring.take_bus, wiring.gap_eq]
  show (RxStatus.encode (g.startsFrame (wiring.timer.running (wiring.bus.get _))
    (wiring.timer.count (wiring.bus.get _))) errors, _, wiring.bus.put _ (wiring.bus.put _ d)) = _
  rw [wiring.bus.get_put, wiring.bus.put_put]
  rfl

theorem onTimeout_bus (g : GapDetector) :
    g.onTimeout Peripherals.gap d =
      wiring.bus.put (g.onTimeout wiring.timer (wiring.bus.get d)) d := by
  rw [wiring.gap_eq]
  rfl

theorem arm_bus (g : GapDetector) :
    g.arm Peripherals.gap d = wiring.bus.put (g.arm wiring.timer (wiring.bus.get d)) d := by
  rw [wiring.gap_eq]
  rfl

end Wiring

end SerialGateway
