import SerialGateway.Decimal

/-!
# Silence thresholds of the bus

What this module delivers: the two silences that structure the bus, measured in
ticks of the gap timer. A silence longer than the inter-frame threshold ends a
frame; the inter-character threshold lies strictly below it. Thresholds are
given outright (`ofThresholds`) or derived from a bit rate and a timer rate
(`ofBitrate`), in 64-bit arithmetic that truncates.
-/

set_option autoImplicit false

namespace SerialGateway

/-- Why a pair of rates or thresholds cannot time a channel. -/
inductive TimingError where
  /-- The bit rate is zero. -/
  | zeroBitrate
  /-- The inter-character silence is under one tick. -/
  | timerTooSlow
  /-- The inter-frame silence does not fit the 16-bit timer. -/
  | gapOverflow (ticks : UInt32)
  /-- The inter-character threshold is not strictly below the inter-frame one. -/
  | unordered (interChar interFrame : UInt16)
  deriving DecidableEq, Repr

/-- The text of a timing error. -/
def TimingError.message : TimingError → String
  | .zeroBitrate => "bit rate must be non-zero"
  | .timerTooSlow => "gap timer too slow to resolve an inter-character gap"
  | .gapOverflow ticks =>
      "inter-frame gap of " ++ decimal ticks.toNat ++ " ticks exceeds the 16-bit timer"
  | .unordered interChar interFrame =>
      "inter-char threshold " ++ decimal interChar.toNat ++
        " must be below inter-frame threshold " ++ decimal interFrame.toNat

/-- The silence thresholds of a channel, in ticks of the gap timer. -/
structure ChannelTiming where
  /-- Silence between two characters of one frame. -/
  interChar : UInt16
  /-- Silence between two frames. -/
  interFrame : UInt16
  ordered : interChar < interFrame
  deriving DecidableEq, Repr

namespace ChannelTiming

/-- Thresholds given outright. -/
def ofThresholds (interChar interFrame : UInt16) : Except TimingError ChannelTiming :=
  if h : interChar < interFrame then .ok ⟨interChar, interFrame, h⟩
  else .error (.unordered interChar interFrame)

/-- 1.5 characters of 10 bits. -/
def interCharBitTimes : UInt32 := 15

/-- 3.5 characters of 10 bits. -/
def interFrameBitTimes : UInt32 := 35

/-- The whole ticks of a timer in `bitTimes` bits of a line. -/
def ticksIn (bitTimes bitrate timerRate : UInt32) : UInt64 :=
  bitTimes.toUInt64 * timerRate.toUInt64 / bitrate.toUInt64

/-- A tick count as 32 bits; one that does not fit reads as the largest. -/
def clampTicks (ticks : UInt64) : UInt32 :=
  if ticks ≤ UInt32.toUInt64 4294967295 then ticks.toUInt32 else 4294967295

/-- The thresholds of a line of `bitrate` bits a second, under a timer of
`timerRate` ticks a second. -/
def ofBitrate (bitrate timerRate : UInt32) : Except TimingError ChannelTiming :=
  if bitrate = 0 then .error .zeroBitrate
  else
    let interChar := ticksIn interCharBitTimes bitrate timerRate
    let interFrame := ticksIn interFrameBitTimes bitrate timerRate
    if interChar = 0 then .error .timerTooSlow
    else if interFrame > UInt16.toUInt64 65535 then .error (.gapOverflow (clampTicks interFrame))
    else ofThresholds interChar.toUInt16 interFrame.toUInt16

end ChannelTiming

end SerialGateway
