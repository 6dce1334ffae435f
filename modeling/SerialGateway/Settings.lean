import SerialGateway.Bus.Timing

/-!
# Settings of the gateway

What this module delivers: the rates and sizes that the gateway is built with.
Nothing is allocated or negotiated later. The thresholds of the bus are the ones
its rates give (`ofBitrate_eq_busTiming`).
-/

set_option autoImplicit false

namespace SerialGateway.Settings

/-- Base ticks a second. -/
def tickRate : UInt32 := 10000

/-- Base ticks in one cadence step. -/
def subTicksPerCadence : UInt8 := 5

/-- Bytes in the receive ring of the console. -/
def consoleCapacity : Nat := 32

/-- Bits a second on the console line. -/
def consoleBitrate : UInt32 := 115200

/-- Bits a second on the bus. -/
def busBitrate : UInt32 := 19200

/-- Ticks a second of the gap timer. -/
def gapTimerRate : UInt32 := 1000000

/-- Cycles a second of the processor clock. -/
def systemClock : UInt32 := 16000000

/-- The silence thresholds of the bus. -/
def busTiming : ChannelTiming := ⟨781, 1822, by decide⟩

theorem ofBitrate_eq_busTiming :
    ChannelTiming.ofBitrate busBitrate gapTimerRate = .ok busTiming := rfl

end SerialGateway.Settings
