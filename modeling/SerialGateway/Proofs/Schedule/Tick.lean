import SerialGateway.Schedule.Scheduler

/-!
# One tick

What a tick does, case by case (`ticked`), and the clock that it advances: the state of a scheduler
that has counted `n` ticks (`AtTick`) fixes whether the next one is a cadence step, and the tier of
that step.
-/

set_option autoImplicit false

namespace SerialGateway.Scheduler

/-! ## The four ways of a tick -/

section Ticked

variable {M : Type} [InterruptControl M]

/-- The step of a tick in the state `s` of the scheduler and `m` of the interrupt controller. -/
inductive Ticked (s : Scheduler) (m : M) : Step Tier (Scheduler × M) Dispatch → Prop
  | pending (more : s.subTicks + 1 < Settings.subTicksPerCadence) :
      Ticked s m (.finished .pending ({ s with subTicks := s.subTicks + 1 }, m))
  | overrun (full : ¬ s.subTicks + 1 < Settings.subTicksPerCadence) (busy : s.busy = true) :
      Ticked s m
        (.finished .overrun ({ s.stepCadence with overruns := Counter.bump8 s.overruns }, m))
  | idle (full : ¬ s.subTicks + 1 < Settings.subTicksPerCadence) (free : s.busy = false)
      (tier_eq : Tier.ofCadence? s.stepCadence.cadence = none) :
      Ticked s m (.finished (.ran none) ({ s.stepCadence with busy := false },
        let opened := InterruptControl.unmask (InterruptControl.query m)
        if InterruptControl.isEnabled m then opened else InterruptControl.mask opened))
  | task {tier : Tier} (full : ¬ s.subTicks + 1 < Settings.subTicksPerCadence)
      (free : s.busy = false) (tier_eq : Tier.ofCadence? s.stepCadence.cadence = some tier) :
      Ticked s m (.entering tier
        ({ s.stepCadence with busy := true }, InterruptControl.unmask (InterruptControl.query m))
        (endDispatch (some tier) (InterruptControl.isEnabled m)))

theorem ticked (s : Scheduler) (m : M) : Ticked s m (tick (s, m)) := by
  by_cases hlt : s.subTicks + 1 < Settings.subTicksPerCadence
  · simp only [tick, if_pos hlt]
    exact .pending hlt
  · by_cases hbusy : s.stepCadence.busy = true
    · simp only [tick, if_neg hlt, if_pos hbusy]
      exact .overrun hlt hbusy
    · simp only [tick, if_neg hlt, if_neg hbusy, dispatch]
      have hfree : s.busy = false := Bool.eq_false_iff.2 hbusy
      cases htier : Tier.ofCadence? s.stepCadence.cadence with
      | none => exact .idle hlt hfree htier
      | some tier => exact .task hlt hfree htier

end Ticked

/-! ## The clock -/

/-- The clock of a scheduler after `n` ticks. -/
structure AtTick (n : Nat) (s : Scheduler) : Prop where
  subTicks : s.subTicks.toNat = n % 5
  cadence : s.cadence.toNat = n / 5 % 256

/-- The tier of tick `k`, if it is a cadence step. -/
def tierAt (k : Nat) : Option Tier := Tier.ofCadence? (UInt8.ofNat (k / 5 % 256))

namespace AtTick

variable {n : Nat} {s : Scheduler}

theorem tierAt_eq (h : AtTick n s) : tierAt n = Tier.ofCadence? s.cadence := by
  rw [tierAt, ← h.cadence, UInt8.ofNat_toNat]

theorem toNat_subTicks_succ (h : AtTick n s) : (s.subTicks + 1).toNat = n % 5 + 1 := by
  rw [UInt8.toNat_add, UInt8.toNat_one, h.subTicks]
  omega

/-- The next tick is a cadence step exactly when five divides its number. -/
theorem five_dvd_iff (h : AtTick n s) :
    5 ∣ n + 1 ↔ ¬ s.subTicks + 1 < Settings.subTicksPerCadence := by
  rw [UInt8.lt_iff_toNat_lt, h.toNat_subTicks_succ]
  show 5 ∣ n + 1 ↔ ¬ n % 5 + 1 < 5
  omega

/-- The clock after a tick that is no cadence step. -/
theorem succ (h : AtTick n s) (hn : ¬ 5 ∣ n + 1) {s' : Scheduler}
    (hsub : s'.subTicks = s.subTicks + 1) (hcad : s'.cadence = s.cadence) : AtTick (n + 1) s' where
  subTicks := by
    rw [hsub, h.toNat_subTicks_succ]
    omega
  cadence := by
    rw [hcad, h.cadence]
    omega

/-- The clock after a cadence step. -/
theorem step (h : AtTick n s) (hn : 5 ∣ n + 1) {s' : Scheduler}
    (hsub : s'.subTicks = 0) (hcad : s'.cadence = s.cadence + 1) : AtTick (n + 1) s' where
  subTicks := by
    rw [hsub]
    show 0 = (n + 1) % 5
    omega
  cadence := by
    rw [hcad, UInt8.toNat_add, UInt8.toNat_one, h.cadence]
    omega

end AtTick

end SerialGateway.Scheduler
