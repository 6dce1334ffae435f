/-!
# Saturating counters

What this module delivers: one step of the byte-wide and of the 16-bit event
count (`bump8`, `bump16`) and the closed form of any number of steps
(`toNat_count8`, `toNat_count16`). A count that has reached the top of its
width stays there, so a reader never mistakes a flood of events for a few.
-/

set_option autoImplicit false

namespace SerialGateway.Counter

/-- One more event on a byte-wide count; 255 stays. -/
def bump8 (n : UInt8) : UInt8 := if n = 255 then n else n + 1

/-- One more event on a 16-bit count; 65535 stays. -/
def bump16 (n : UInt16) : UInt16 := if n = 65535 then n else n + 1

/-- The byte-wide count after `k` more events. -/
def count8 : Nat → UInt8 → UInt8
  | 0, n => n
  | k + 1, n => count8 k (bump8 n)

/-- The 16-bit count after `k` more events. -/
def count16 : Nat → UInt16 → UInt16
  | 0, n => n
  | k + 1, n => count16 k (bump16 n)

theorem toNat_bump8 (n : UInt8) : (bump8 n).toNat = min 255 (n.toNat + 1) := by
  have h := n.toNat_lt
  rw [bump8]
  split
  · next e => subst e; rfl
  · next e =>
    have : n.toNat ≠ 255 := fun h => e (UInt8.toNat_inj.1 h)
    rw [UInt8.toNat_add, UInt8.toNat_one]
    omega

theorem toNat_bump16 (n : UInt16) : (bump16 n).toNat = min 65535 (n.toNat + 1) := by
  have h := n.toNat_lt
  rw [bump16]
  split
  · next e => subst e; rfl
  · next e =>
    have : n.toNat ≠ 65535 := fun h => e (UInt16.toNat_inj.1 h)
    rw [UInt16.toNat_add, UInt16.toNat_one]
    omega

theorem toNat_count8 (k : Nat) (n : UInt8) : (count8 k n).toNat = min 255 (n.toNat + k) := by
  induction k generalizing n with
  | zero => have h := n.toNat_lt; show n.toNat = _; omega
  | succ k ih => rw [count8, ih, toNat_bump8]; omega

theorem toNat_count16 (k : Nat) (n : UInt16) :
    (count16 k n).toNat = min 65535 (n.toNat + k) := by
  induction k generalizing n with
  | zero => have h := n.toNat_lt; show n.toNat = _; omega
  | succ k ih => rw [count16, ih, toNat_bump16]; omega

end SerialGateway.Counter
