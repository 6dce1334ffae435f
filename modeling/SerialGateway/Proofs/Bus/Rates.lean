import SerialGateway.Bus.Timing

/-!
# Thresholds from rates

What the bit rate of a line and the rate of the gap timer make of the silence thresholds, in exact
arithmetic. With `b` bits and `t` ticks a second, 1.5 characters of ten bits last `15 * t / b` ticks
and 3.5 characters `35 * t / b`. `Derived` lists the four ways in which a derivation can end, and
`derived_ofBitrate` says that the computation, which works with words of 64, 32 and 16 bits, ends in
one of them. Nothing is lost on the way: the products fit 64 bits (`toNat_product`), a quotient that
is narrowed fits 16 (`toUInt64_toUInt16`), and rounding both quotients down keeps them apart
(`thresholds_lt`), so that thresholds in the wrong order never come out.
-/

set_option autoImplicit false

namespace SerialGateway.ChannelTiming

/-! ## Words -/

/-- The product of two 32-bit words fits 64 bits. -/
theorem toNat_product (a b : UInt32) :
    (a.toUInt64 * b.toUInt64).toNat = a.toNat * b.toNat := by
  rw [UInt64.toNat_mul, UInt32.toNat_toUInt64, UInt32.toNat_toUInt64]
  apply Nat.mod_eq_of_lt
  calc a.toNat * b.toNat < 2 ^ 32 * 2 ^ 32 := Nat.mul_lt_mul'' a.toNat_lt b.toNat_lt
    _ = 2 ^ 64 := rfl

theorem toNat_ticksIn (bitTimes bitrate timerRate : UInt32) :
    (ticksIn bitTimes bitrate timerRate).toNat =
      bitTimes.toNat * timerRate.toNat / bitrate.toNat := by
  rw [ticksIn, UInt64.toNat_div, toNat_product, UInt32.toNat_toUInt64]

/-- Ticks that do not fit 32 bits are held at the largest word. -/
theorem toNat_clampTicks (ticks : UInt64) :
    (clampTicks ticks).toNat = min ticks.toNat 4294967295 := by
  rw [clampTicks]
  split
  · next h =>
    have hle : ticks.toNat ≤ 4294967295 := UInt64.le_iff_toNat_le.1 h
    rw [UInt64.toNat_toUInt32]
    omega
  · next h =>
    have hlt : ¬ ticks.toNat ≤ 4294967295 := fun hle => h (UInt64.le_iff_toNat_le.2 hle)
    show 4294967295 = _
    omega

theorem toNat_toUInt16_of_le {ticks : UInt64} (h : ticks.toNat ≤ 65535) :
    ticks.toUInt16.toNat = ticks.toNat := by
  rw [UInt64.toNat_toUInt16]
  omega

/-- A tick count that fits 16 bits survives the narrowing. -/
theorem toUInt64_toUInt16 {ticks : UInt64} (h : ticks.toNat ≤ 65535) :
    ticks.toUInt16.toUInt64 = ticks := by
  apply UInt64.toNat_inj.1
  rw [UInt16.toNat_toUInt64, toNat_toUInt16_of_le h]

/-! ## Exact arithmetic -/

section Exact

variable {b t : Nat}

/-- The inter-character silence is under one tick exactly when its 15 bits are shorter than a
tick. -/
theorem interChar_eq_zero_iff (hb : 0 < b) : 15 * t / b = 0 ↔ 15 * t < b :=
  Nat.div_eq_zero_iff_lt hb

/-- The inter-frame silence does not fit 16 bits. -/
theorem interFrame_gt_iff (hb : 0 < b) : 65535 < 35 * t / b ↔ 65536 * b ≤ 35 * t :=
  Nat.le_div_iff_mul_le hb

/-- A timer that resolves the inter-character silence tells the two silences apart: they are more
than one tick apart, and rounding both down leaves at least one. -/
theorem thresholds_lt (hb : 0 < b) (h : b ≤ 15 * t) : 15 * t / b < 35 * t / b := by
  calc 15 * t / b < 15 * t / b + 1 := Nat.lt_succ_self _
    _ = (15 * t + b) / b := (Nat.add_div_right _ hb).symm
    _ ≤ 35 * t / b := by
      apply Nat.div_le_div_right
      omega

/-- How the derivation of thresholds from `b` bits and `t` ticks a second can end. -/
inductive Derived (b t : Nat) : Except TimingError ChannelTiming → Prop
  | zeroBitrate (h : b = 0) : Derived b t (.error .zeroBitrate)
  | timerTooSlow (hb : 0 < b) (h : 15 * t < b) : Derived b t (.error .timerTooSlow)
  | gapOverflow (ticks : UInt32) (hb : 0 < b) (h : 65536 * b ≤ 35 * t)
      (hticks : ticks.toNat = min (35 * t / b) 4294967295) :
      Derived b t (.error (.gapOverflow ticks))
  | thresholds (timing : ChannelTiming) (hb : 0 < b) (hchar : b ≤ 15 * t)
      (hframe : 35 * t < 65536 * b) (interChar_eq : timing.interChar.toNat = 15 * t / b)
      (interFrame_eq : timing.interFrame.toNat = 35 * t / b) : Derived b t (.ok timing)

end Exact

/-- The computation on words is the derivation of exact arithmetic. -/
theorem derived_ofBitrate (bitrate timerRate : UInt32) :
    Derived bitrate.toNat timerRate.toNat (ofBitrate bitrate timerRate) := by
  have hchar : (ticksIn interCharBitTimes bitrate timerRate).toNat =
      15 * timerRate.toNat / bitrate.toNat := toNat_ticksIn ..
  have hframe : (ticksIn interFrameBitTimes bitrate timerRate).toNat =
      35 * timerRate.toNat / bitrate.toNat := toNat_ticksIn ..
  rw [ofBitrate]
  -- the checks, in the order in which they are made
  by_cases hzero : bitrate = 0
  · rw [if_pos hzero]
    exact .zeroBitrate (congrArg UInt32.toNat hzero)
  · have hb : 0 < bitrate.toNat := by
      apply Nat.pos_of_ne_zero
      exact fun h => hzero (UInt32.toNat_inj.1 h)
    rw [if_neg hzero]
    by_cases hslow : ticksIn interCharBitTimes bitrate timerRate = 0
    · rw [if_pos hslow]
      apply Derived.timerTooSlow hb
      rw [← interChar_eq_zero_iff hb, ← hchar, hslow]
      rfl
    · have hresolved : bitrate.toNat ≤ 15 * timerRate.toNat := by
        rw [← Nat.not_lt, ← interChar_eq_zero_iff hb, ← hchar]
        exact fun h => hslow (UInt64.toNat_inj.1 h)
      rw [if_neg hslow]
      by_cases hwide : ticksIn interFrameBitTimes bitrate timerRate > UInt16.toUInt64 65535
      · rw [if_pos hwide]
        have hlt := UInt64.lt_iff_toNat_lt.1 hwide
        rw [hframe] at hlt
        apply Derived.gapOverflow _ hb ((interFrame_gt_iff hb).1 hlt)
        rw [toNat_clampTicks, hframe]
      · rw [if_neg hwide]
        have hle : (ticksIn interFrameBitTimes bitrate timerRate).toNat ≤ 65535 :=
          Nat.le_of_not_lt fun h => hwide (UInt64.lt_iff_toNat_lt.2 h)
        have hfits : 35 * timerRate.toNat < 65536 * bitrate.toNat := by
          rw [hframe] at hle
          rw [← Nat.not_le, ← interFrame_gt_iff hb]
          exact Nat.not_lt.2 hle
        have hapart := thresholds_lt hb hresolved
        -- the smaller quotient is narrowed without a check of its own
        have hleChar : (ticksIn interCharBitTimes bitrate timerRate).toNat ≤ 65535 := by
          omega
        have hordered : (ticksIn interCharBitTimes bitrate timerRate).toUInt16 <
            (ticksIn interFrameBitTimes bitrate timerRate).toUInt16 := by
          rw [UInt16.lt_iff_toNat_lt, toNat_toUInt16_of_le hle, toNat_toUInt16_of_le hleChar,
            hchar, hframe]
          exact hapart
        simp only [ofThresholds, dif_pos hordered]
        apply Derived.thresholds _ hb hresolved hfits
        · exact (toNat_toUInt16_of_le hleChar).trans hchar
        · exact (toNat_toUInt16_of_le hle).trans hframe

/-! ## The derivation -/

/-- The rates from which thresholds come: the timer resolves the inter-character silence, and the
inter-frame silence fits 16 bits. -/
def RatesFit (b t : Nat) : Prop := 0 < b ∧ b ≤ 15 * t ∧ 35 * t < 65536 * b

namespace Derived

variable {b t : Nat} {r : Except TimingError ChannelTiming} (h : Derived b t r)

include h

theorem eq_zeroBitrate_iff : r = .error .zeroBitrate ↔ b = 0 := by
  -- here and below: in each of the four ways, the conditions of the three others fail
  cases h with
  | zeroBitrate h => simp [h]
  | timerTooSlow | gapOverflow | thresholds =>
      simp
      omega

theorem eq_timerTooSlow_iff : r = .error .timerTooSlow ↔ 0 < b ∧ 15 * t < b := by
  cases h with
  | timerTooSlow hb h => simp [hb, h]
  | zeroBitrate | gapOverflow | thresholds =>
      simp
      omega

theorem eq_gapOverflow_iff (ticks : UInt32) :
    r = .error (.gapOverflow ticks) ↔
      0 < b ∧ 65536 * b ≤ 35 * t ∧ ticks.toNat = min (35 * t / b) 4294967295 := by
  cases h with
  | zeroBitrate | timerTooSlow | thresholds =>
      simp
      omega
  | gapOverflow ticks' hb hwide hticks =>
      simp only [Except.error.injEq, TimingError.gapOverflow.injEq]
      constructor
      · rintro rfl
        exact ⟨hb, hwide, hticks⟩
      · rintro ⟨-, -, hsame⟩
        exact UInt32.toNat_inj.1 (hticks.trans hsame.symm)

theorem exists_eq_ok_iff : (∃ timing, r = .ok timing) ↔ RatesFit b t := by
  rw [RatesFit]
  cases h with
  | zeroBitrate | timerTooSlow | gapOverflow =>
      simp
      omega
  | thresholds timing hb hchar hframe => simp [hb, hchar, hframe]

theorem ne_unordered (charTicks frameTicks : UInt16) :
    r ≠ .error (.unordered charTicks frameTicks) := by
  cases h <;> simp

theorem thresholds_eq {timing : ChannelTiming} (hr : r = .ok timing) :
    RatesFit b t ∧ timing.interChar.toNat = 15 * t / b ∧
      timing.interFrame.toNat = 35 * t / b := by
  cases h with
  | zeroBitrate | timerTooSlow | gapOverflow => cases hr
  | thresholds timing hb hchar hframe interChar_eq interFrame_eq =>
      cases hr
      exact ⟨⟨hb, hchar, hframe⟩, interChar_eq, interFrame_eq⟩

end Derived

/-- The derivation of thresholds for every pair of rates: which pairs each error is for, so that the
order of the checks does not matter; the thresholds of all other pairs, which are those of exact
arithmetic and in their order; and that no word on the way is too small. -/
theorem ofBitrate_exact (bitrate timerRate : UInt32) :
    let derived : Except TimingError ChannelTiming := ofBitrate bitrate timerRate
    let b := bitrate.toNat
    let t := timerRate.toNat
    let interChar := ticksIn interCharBitTimes bitrate timerRate
    let interFrame := ticksIn interFrameBitTimes bitrate timerRate
    (derived = .error .zeroBitrate ↔ b = 0) ∧
      (derived = .error .timerTooSlow ↔ 0 < b ∧ 15 * t < b) ∧
      (∀ ticks, derived = .error (.gapOverflow ticks) ↔
        0 < b ∧ 65536 * b ≤ 35 * t ∧ ticks.toNat = min (35 * t / b) 4294967295) ∧
      ¬ (0 < b ∧ 15 * t < b ∧ 65536 * b ≤ 35 * t) ∧
      (∀ charTicks frameTicks, derived ≠ .error (.unordered charTicks frameTicks)) ∧
      ((∃ timing, derived = .ok timing) ↔ RatesFit b t) ∧
      (∀ timing, derived = .ok timing →
        (timing.interChar.toNat = 15 * t / b ∧ 1 ≤ 15 * t / b) ∧
          (timing.interFrame.toNat = 35 * t / b ∧ 35 * t / b ≤ 65535) ∧
          15 * t / b < 35 * t / b ∧
          interChar.toUInt16.toUInt64 = interChar ∧ interFrame.toUInt16.toUInt64 = interFrame) ∧
      (interCharBitTimes.toUInt64 * timerRate.toUInt64).toNat = 15 * t ∧
      (interFrameBitTimes.toUInt64 * timerRate.toUInt64).toNat = 35 * t := by
  intro derived b t interChar interFrame
  have hchar : interChar.toNat = 15 * t / b := toNat_ticksIn ..
  have hframe : interFrame.toNat = 35 * t / b := toNat_ticksIn ..
  have hderived : Derived b t derived := derived_ofBitrate bitrate timerRate
  refine ⟨hderived.eq_zeroBitrate_iff, hderived.eq_timerTooSlow_iff, hderived.eq_gapOverflow_iff,
    ?_, hderived.ne_unordered, hderived.exists_eq_ok_iff, ?_, toNat_product .., toNat_product ..⟩
  · omega
  · intro timing htiming
    obtain ⟨⟨hb, hresolved, hfits⟩, interChar_eq, interFrame_eq⟩ := hderived.thresholds_eq htiming
    have hle : 35 * t / b ≤ 65535 := by
      rw [← Nat.not_lt, interFrame_gt_iff hb]
      exact Nat.not_le.2 hfits
    have hapart := thresholds_lt hb hresolved
    refine ⟨⟨interChar_eq, (Nat.one_le_div_iff hb).2 hresolved⟩, ⟨interFrame_eq, hle⟩, hapart,
      ?_, ?_⟩
    · apply toUInt64_toUInt16
      omega
    · apply toUInt64_toUInt16
      omega

/-- A line at 19200 bits a second under a timer of 1.5 MHz. -/
example : ∃ timing, ofBitrate 19200 1500000 = .ok timing ∧ timing.interChar = 1171 ∧
    timing.interFrame = 2734 :=
  ⟨_, rfl, rfl, rfl⟩

end SerialGateway.ChannelTiming
