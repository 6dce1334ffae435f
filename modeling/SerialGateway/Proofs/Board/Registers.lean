import Mathlib.Data.Nat.Bitwise
import SerialGateway.Board.SilenceTimer

/-!
# Registers

Registers are words whose bits have meanings of their own. Asking for, setting and clearing one bit
of a word is described bit by bit here (`anyBit_bit`, `testBit_or_bit`, `testBit_and_not_bit`), so
that what is said about a register need not open the arithmetic of its word. For the silence timer
it is said what becomes of each of its registers, and of all other words.
-/

set_option autoImplicit false

namespace SerialGateway

/-! ## Bits -/

/-- The bits of a mask are taken out of a word. -/
theorem Word.testBit_and_not (v mask : Word) (j : Nat) :
    (v &&& ~~~mask).toNat.testBit j = (v.toNat.testBit j && !mask.toNat.testBit j) := by
  have hmask : (~~~mask).toNat.testBit j = (decide (j < 32) && !mask.toNat.testBit j) := by
    rw [UInt32.toNat_not, Nat.sub_sub, Nat.add_comm]
    exact Nat.testBit_two_pow_sub_succ mask.toNat_lt j
  rw [UInt32.toNat_and, Nat.testBit_and, hmask]
  by_cases hj : j < 32
  · simp [hj]
  · -- a word has no such bit
    have hnone : v.toNat.testBit j = false := by
      apply Nat.testBit_lt_two_pow
      exact Nat.lt_of_lt_of_le v.toNat_lt (Nat.pow_le_pow_right (by decide) (by omega))
    simp [hnone]

section

variable {i : UInt32} (hi : i.toNat < 32)

include hi

theorem Word.toNat_bit : (Word.bit i).toNat = 2 ^ i.toNat := by
  have hfits : 2 ^ i.toNat < 2 ^ 32 := Nat.pow_lt_pow_right (by decide) hi
  rw [Word.bit, UInt32.toNat_shiftLeft, Nat.mod_eq_of_lt hi, UInt32.toNat_one, Nat.one_shiftLeft,
    Nat.mod_eq_of_lt hfits]

theorem Word.testBit_or_bit (v : Word) (j : Nat) :
    (v ||| Word.bit i).toNat.testBit j = (v.toNat.testBit j || decide (i.toNat = j)) := by
  rw [UInt32.toNat_or, Word.toNat_bit hi, Nat.testBit_or, Nat.testBit_two_pow]

theorem Word.testBit_and_not_bit (v : Word) (j : Nat) :
    (v &&& ~~~Word.bit i).toNat.testBit j = (v.toNat.testBit j && !decide (i.toNat = j)) := by
  rw [Word.testBit_and_not, Word.toNat_bit hi, Nat.testBit_two_pow]

end

/-- Bit `i` of a word of the memory. -/
def Memory.bit (m : Memory) (a : Address) (i : Nat) : Bool := (m.read a).toNat.testBit i

/-- A mask of one bit asks for that bit. -/
theorem Memory.anyBit_bit (m : Memory) (a : Address) {i : UInt32} (hi : i.toNat < 32) :
    m.anyBit a (Word.bit i) = m.bit a i.toNat := by
  have hmasked : (m.read a &&& Word.bit i).toNat = (m.bit a i.toNat).toNat * 2 ^ i.toNat := by
    rw [UInt32.toNat_and, Word.toNat_bit hi, Nat.and_two_pow]
    rfl
  rw [Bool.eq_iff_iff, anyBit, bne_iff_ne, ne_eq, ← UInt32.toNat_inj, hmasked]
  cases m.bit a i.toNat with
  | false => simp
  | true => simp

/-! ## The silence timer -/

namespace SilenceTimer

variable (m : Memory)

theorem isRunning_eq : isRunning m = m.bit controlReg 0 :=
  m.anyBit_bit controlReg (by decide)

theorem restart_count : (restart m).read countReg = 0 := by
  rw [restart, Memory.setBits, Memory.modify, Memory.read_write_of_ne _ (by decide), clearCompare,
    Memory.read_write_of_ne _ (by decide), Memory.read_write_self]

theorem restart_status : (restart m).read statusReg = ~~~compareFlag := by
  rw [restart, Memory.setBits, Memory.modify, Memory.read_write_of_ne _ (by decide), clearCompare,
    Memory.read_write_self]

theorem restart_control : (restart m).read controlReg = m.read controlReg ||| countingBit := by
  rw [restart, Memory.setBits, Memory.modify, Memory.read_write_self, clearCompare,
    Memory.read_write_of_ne _ (by decide), Memory.read_write_of_ne _ (by decide)]

theorem restart_bit (i : Nat) :
    (restart m).bit controlReg i = (m.bit controlReg i || decide (0 = i)) := by
  rw [Memory.bit, restart_control]
  exact Word.testBit_or_bit (by decide) (m.read controlReg) i

theorem restart_words {a : Address} (ha : a ∉ [countReg, statusReg, controlReg]) :
    (restart m).read a = m.read a := by
  simp only [List.mem_cons, List.not_mem_nil, or_false, not_or] at ha
  obtain ⟨hcount, hstatus, hcontrol⟩ := ha
  rw [restart, Memory.setBits, Memory.modify, Memory.read_write_of_ne _ hcontrol, clearCompare,
    Memory.read_write_of_ne _ hstatus, Memory.read_write_of_ne _ hcount]

theorem stop_bit (i : Nat) :
    (stop m).bit controlReg i = (m.bit controlReg i && !decide (0 = i)) := by
  rw [Memory.bit, stop, Memory.clearBits, Memory.modify, Memory.read_write_self]
  exact Word.testBit_and_not_bit (by decide) (m.read controlReg) i

theorem stop_words {a : Address} (ha : a ≠ controlReg) : (stop m).read a = m.read a :=
  m.read_write_of_ne ha _

theorem setCompare_words (ticks : UInt16) {a : Address} (ha : a ≠ compareReg) :
    (setCompare ticks m).read a = m.read a :=
  m.read_write_of_ne ha _

end SilenceTimer

end SerialGateway
