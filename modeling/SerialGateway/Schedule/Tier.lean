/-!
# Task tiers

What this module delivers: the eight task tiers, from the one that runs every
millisecond to the one that runs every 128, and the tier of a cadence step: the
place of the lowest set bit of the cadence (`ofCadence?_eq_some_iff`). At most one
bit is the lowest, so no two tiers share a step, and only the step where the
cadence wraps to zero has none (`ofCadence?_eq_none_iff`).
-/

set_option autoImplicit false

namespace SerialGateway

/-- A task tier, named by its period in milliseconds. -/
inductive Tier where
  | ms1 | ms2 | ms4 | ms8 | ms16 | ms32 | ms64 | ms128
  deriving DecidableEq, Repr

namespace Tier

/-- Every tier, fastest first. -/
def all : List Tier := [ms1, ms2, ms4, ms8, ms16, ms32, ms64, ms128]

/-- The place of a tier, from zero for the fastest. -/
def index : Tier → Nat
  | ms1 => 0
  | ms2 => 1
  | ms4 => 2
  | ms8 => 3
  | ms16 => 4
  | ms32 => 5
  | ms64 => 6
  | ms128 => 7

/-- The period of a tier in milliseconds. -/
def period (t : Tier) : Nat := 1 <<< t.index

/-- The tier that runs at a cadence step: the first one whose bit is set. -/
def ofCadence? (cadence : UInt8) : Option Tier :=
  all.find? fun t => cadence.toNat.testBit t.index

theorem mem_all (t : Tier) : t ∈ all := by cases t <;> decide

/-- A tier runs at a cadence exactly when its own bit is set and every lower one is
clear. -/
theorem ofCadence?_eq_some_iff (cadence : UInt8) (t : Tier) :
    ofCadence? cadence = some t ↔ cadence.toNat % (2 * t.period) = t.period := by
  suffices h : ∀ n : Fin 256, ∀ t ∈ all,
      ofCadence? (UInt8.ofNat n) = some t ↔ n.val % (2 * t.period) = t.period by
    have := h ⟨cadence.toNat, cadence.toNat_lt⟩ t (mem_all t)
    rwa [UInt8.ofNat_toNat] at this
  decide +kernel

/-- No tier runs at cadence zero, and one does at any other. -/
theorem ofCadence?_eq_none_iff (cadence : UInt8) : ofCadence? cadence = none ↔ cadence = 0 := by
  suffices h : ∀ n : Fin 256,
      ofCadence? (UInt8.ofNat n) = none ↔ UInt8.ofNat n = 0 by
    have := h ⟨cadence.toNat, cadence.toNat_lt⟩
    rwa [UInt8.ofNat_toNat] at this
  decide +kernel

end Tier

end SerialGateway
