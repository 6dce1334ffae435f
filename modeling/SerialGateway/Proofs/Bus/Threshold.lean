import Mathlib.Algebra.Order.Field.Rat
import Mathlib.Tactic.NormNum
import Mathlib.Tactic.Ring
import SerialGateway.Bus.Detector
import SerialGateway.Proofs.Bus.Rates

/-!
# What the threshold decides

The frame detector compares a count of whole ticks with a threshold that was rounded down to whole
ticks. Nothing is lost by the rounding, since the comparison is strict: on a timer that runs, a byte
opens a frame exactly when the silence before it was longer than 3.5 characters of ten bits, with
both times in exact arithmetic (`threshold_exact`). The decision can therefore only turn one way as
the silence gets longer, the line faster or the timer slower (`ExceedsGap.mono`).
-/

set_option autoImplicit false

namespace SerialGateway

/-! ## Exact times -/

/-- The time of a character of ten bits on a line of `b` bits a second, in seconds. -/
def characterTime (b : Nat) : ℚ := 10 / b

/-- The time of `e` ticks of a timer that makes `t` of them a second, in seconds. -/
def tickTime (t e : Nat) : ℚ := e / t

/-- A silence of `e` ticks is longer than the 35 bits of an inter-frame gap, in whole numbers. -/
def ExceedsGap (b t e : Nat) : Prop := 35 * t < e * b

section Exact

variable {b b' t t' e e' : Nat}

/-- To compare the whole numbers is to compare the times. -/
theorem exceedsGap_iff_time (hb : 0 < b) (ht : 0 < t) :
    ExceedsGap b t e ↔ 7 / 2 * characterTime b < tickTime t e := by
  have hb' : (0 : ℚ) < b := Nat.cast_pos.2 hb
  have ht' : (0 : ℚ) < t := Nat.cast_pos.2 ht
  have hbits : 7 / 2 * characterTime b = 35 / b := by
    rw [characterTime]
    ring
  rw [hbits, tickTime, div_lt_div_iff₀ hb' ht', ExceedsGap]
  exact_mod_cast Iff.rfl

/-- A longer silence, a faster line and a slower timer exceed the gap as well. -/
theorem ExceedsGap.mono (h : ExceedsGap b t e) (hb : b ≤ b') (ht : t' ≤ t) (he : e ≤ e') :
    ExceedsGap b' t' e' := by
  rw [ExceedsGap] at h ⊢
  calc 35 * t' ≤ 35 * t := Nat.mul_le_mul_left 35 ht
    _ < e * b := h
    _ ≤ e' * b' := Nat.mul_le_mul he hb

/-- Rounding the threshold down moves no whole number of ticks across it. -/
theorem exceedsGap_iff_floor (hb : 0 < b) : ExceedsGap b t e ↔ 35 * t / b < e :=
  (Nat.div_lt_iff_lt_mul hb).symm

end Exact

/-! ## The decision -/

namespace GapDetector

/-- On a timer that runs, the decision is a comparison of numbers. -/
theorem startsFrame_running_iff (g : GapDetector) (elapsed : UInt16) :
    g.startsFrame true elapsed = true ↔ g.timing.interFrame.toNat < elapsed.toNat := by
  simp [startsFrame, UInt16.lt_iff_toNat_lt]

/-- Under thresholds that come from rates, the decision is about exact times. -/
theorem startsFrame_running_iff_exceedsGap {bitrate timerRate : UInt32} {g : GapDetector}
    (h : ChannelTiming.ofBitrate bitrate timerRate = .ok g.timing) (elapsed : UInt16) :
    g.startsFrame true elapsed = true ↔
      ExceedsGap bitrate.toNat timerRate.toNat elapsed.toNat := by
  obtain ⟨⟨hb, -, -⟩, -, interFrame_eq⟩ :=
    (ChannelTiming.derived_ofBitrate bitrate timerRate).thresholds_eq h
  rw [startsFrame_running_iff, interFrame_eq, exceedsGap_iff_floor hb]

/-- The decision under thresholds that come from rates, for every count of a timer that runs. A byte
opens a frame exactly when the silence before it was longer than 3.5 characters of ten bits; and
when it does, so does a byte after a silence that is not shorter, on a line that is not slower,
under a timer that is not faster. -/
theorem threshold_exact (bitrate timerRate : UInt32) (timing : ChannelTiming)
    (h : ChannelTiming.ofBitrate bitrate timerRate = .ok timing) (elapsed : UInt16) :
    let g : GapDetector := { timing }
    (g.startsFrame true elapsed = true ↔ 35 * timerRate.toNat < elapsed.toNat * bitrate.toNat) ∧
      (g.startsFrame true elapsed = true ↔
        7 / 2 * characterTime bitrate.toNat < tickTime timerRate.toNat elapsed.toNat) ∧
      (g.startsFrame true elapsed = true →
        ∀ (bitrate' timerRate' : UInt32) (timing' : ChannelTiming) (elapsed' : UInt16),
          ChannelTiming.ofBitrate bitrate' timerRate' = .ok timing' →
          bitrate ≤ bitrate' → timerRate' ≤ timerRate → elapsed ≤ elapsed' →
          ({ timing := timing' } : GapDetector).startsFrame true elapsed' = true) := by
  intro g
  have hexact := startsFrame_running_iff_exceedsGap (g := g) h elapsed
  obtain ⟨⟨hb, hresolved, -⟩, -, -⟩ :=
    (ChannelTiming.derived_ofBitrate bitrate timerRate).thresholds_eq h
  -- a timer that resolves a character gap ticks at all
  have ht : 0 < timerRate.toNat := by omega
  refine ⟨hexact, hexact.trans (exceedsGap_iff_time hb ht), ?_⟩
  intro hstarts bitrate' timerRate' timing' elapsed' h' hbitrate htimer helapsed
  rw [startsFrame_running_iff_exceedsGap h']
  apply (hexact.1 hstarts).mono
  · exact UInt32.le_iff_toNat_le.1 hbitrate
  · exact UInt32.le_iff_toNat_le.1 htimer
  · exact UInt16.le_iff_toNat_le.1 helapsed

/-- A silence of 1000 ticks is 3.5 characters to the tick, and opens no frame; one more tick does,
and still does on a line that is one bit a second faster. -/
theorem threshold_exact_to_the_tick :
    ∃ timing timing' : ChannelTiming,
      ChannelTiming.ofBitrate 35 1000 = .ok timing ∧
      ChannelTiming.ofBitrate 36 1000 = .ok timing' ∧
      ({ timing } : GapDetector).startsFrame true 1000 = false ∧
      ({ timing } : GapDetector).startsFrame true 1001 = true ∧
      ({ timing := timing' } : GapDetector).startsFrame true 1001 = true := by
  obtain ⟨hlast, -, -⟩ := threshold_exact 35 1000 ⟨428, 1000, by decide⟩ rfl 1000
  obtain ⟨hfirst, -, hmono⟩ := threshold_exact 35 1000 ⟨428, 1000, by decide⟩ rfl 1001
  have hopens := hfirst.2 (by decide)
  refine ⟨_, ⟨416, 972, by decide⟩, rfl, rfl, ?_, hopens, ?_⟩
  · exact Bool.eq_false_iff.2 fun h => absurd (hlast.1 h) (by decide)
  · exact hmono hopens 36 1000 _ 1001 rfl (by decide) (by decide) (by decide)

end GapDetector

end SerialGateway
