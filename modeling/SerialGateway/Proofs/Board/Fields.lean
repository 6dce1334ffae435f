import SerialGateway.Board.Setup
import SerialGateway.Proofs.Board.Registers

/-!
# Fields of registers

Some registers are rows of fields of one width, one field for each pin. Replacing a field is
described bit by bit (`testBit_setField`), and from there for whole fields: the field that was
replaced holds the new value, and every other one holds what it held (`field_setField`). A mask
that is too wide, or shifted too far, would show in a neighbour.

What an operation leaves alone is said of the words of a memory: `Memory.ChangesOnly` lists the
addresses outside of which nothing has changed, and such lists add up along a sequence of writes.
-/

set_option autoImplicit false

namespace SerialGateway

/-! ## Fields -/

/-- Field `place` of a word that is a row of fields of `width` bits, counted from the low end. -/
def Word.field (width place : Nat) (v : Word) : Nat := v.toNat >>> (width * place) % 2 ^ width

theorem Word.testBit_field (width place : Nat) (v : Word) (i : Nat) :
    (v.field width place).testBit i =
      (decide (i < width) && v.toNat.testBit (width * place + i)) := by
  rw [Word.field, Nat.testBit_mod_two_pow, Nat.testBit_shiftRight]

namespace Board

section

variable {width place : UInt32} (hwidth : width.toNat < 32)
  (hplace : width.toNat * place.toNat + width.toNat ≤ 32)

include hwidth hplace

/-- A value of the width of a field, moved to the place of the field, loses no bit. -/
theorem toNat_shift_place {x : Word} (hx : x.toNat < 2 ^ width.toNat) :
    (x <<< (width * place)).toNat = x.toNat <<< (width.toNat * place.toNat) := by
  have hshift : (width * place).toNat = width.toNat * place.toNat := by
    rw [UInt32.toNat_mul]
    exact Nat.mod_eq_of_lt (by omega)
  have hlt : width.toNat * place.toNat < 32 := by
    rcases Nat.eq_zero_or_pos width.toNat with hzero | hpos
    · rw [hzero, Nat.zero_mul]
      decide
    · omega
  have hfits : x.toNat * 2 ^ (width.toNat * place.toNat) < 2 ^ 32 :=
    calc x.toNat * 2 ^ (width.toNat * place.toNat)
        < 2 ^ width.toNat * 2 ^ (width.toNat * place.toNat) :=
          Nat.mul_lt_mul_of_pos_right hx (Nat.two_pow_pos _)
      _ = 2 ^ (width.toNat * place.toNat + width.toNat) := by rw [← Nat.pow_add, Nat.add_comm]
      _ ≤ 2 ^ 32 := Nat.pow_le_pow_right (by decide) hplace
  rw [UInt32.toNat_shiftLeft, hshift, Nat.mod_eq_of_lt hlt, Nat.shiftLeft_eq,
    Nat.mod_eq_of_lt hfits]

/-- The mask of a field covers the bits of the field. -/
theorem testBit_fieldMask (i : Nat) :
    ((Word.bit width - 1) <<< (width * place)).toNat.testBit i =
      decide (width.toNat * place.toNat ≤ i ∧ i < width.toNat * place.toNat + width.toNat) := by
  have hone : (1 : Word) ≤ Word.bit width := by
    rw [UInt32.le_iff_toNat_le, Word.toNat_bit hwidth]
    exact Nat.two_pow_pos _
  have hmask : (Word.bit width - 1).toNat = 2 ^ width.toNat - 1 := by
    rw [UInt32.toNat_sub_of_le _ _ hone, Word.toNat_bit hwidth]
    rfl
  have hlt : (Word.bit width - 1).toNat < 2 ^ width.toNat := by
    have := Nat.two_pow_pos width.toNat
    omega
  rw [toNat_shift_place hwidth hplace hlt, hmask, Nat.testBit_shiftLeft,
    Nat.testBit_two_pow_sub_one, ← Bool.decide_and, decide_eq_decide]
  omega

/-- Replacing a field, bit by bit. -/
theorem testBit_setField {value : UInt32} (hvalue : value.toNat < 2 ^ width.toNat) (v : Word)
    (i : Nat) :
    (setField width place value v).toNat.testBit i =
      if width.toNat * place.toNat ≤ i ∧ i < width.toNat * place.toNat + width.toNat then
        value.toNat.testBit (i - width.toNat * place.toNat)
      else v.toNat.testBit i := by
  have hmask := testBit_fieldMask hwidth hplace i
  have hvalueBit : (value <<< (width * place)).toNat.testBit i =
      (decide (width.toNat * place.toNat ≤ i) &&
        value.toNat.testBit (i - width.toNat * place.toNat)) := by
    rw [toNat_shift_place hwidth hplace hvalue, Nat.testBit_shiftLeft]
  rw [setField, UInt32.toNat_or, Nat.testBit_or, hvalueBit, Word.testBit_and_not, hmask]
  by_cases hin : width.toNat * place.toNat ≤ i ∧ i < width.toNat * place.toNat + width.toNat
  · simp [hin]
  · rw [if_neg hin, decide_eq_false hin, Bool.not_false, Bool.and_true]
    by_cases hle : width.toNat * place.toNat ≤ i
    · -- above the field, the value has no bit left
      have hnone : value.toNat.testBit (i - width.toNat * place.toNat) = false := by
        apply Nat.testBit_lt_two_pow
        exact Nat.lt_of_lt_of_le hvalue (Nat.pow_le_pow_right (by decide) (by omega))
      rw [hnone, Bool.and_false, Bool.or_false]
    · rw [decide_eq_false hle, Bool.false_and, Bool.or_false]

/-- A field that is replaced holds the new value, and every other field what it held. -/
theorem field_setField {value : UInt32} (hvalue : value.toNat < 2 ^ width.toNat) (v : Word)
    (other : Nat) :
    (setField width place value v).field width.toNat other =
      if other = place.toNat then value.toNat else v.field width.toNat other := by
  apply Nat.eq_of_testBit_eq
  intro i
  rw [Word.testBit_field, testBit_setField hwidth hplace hvalue]
  by_cases hi : i < width.toNat
  · rcases Nat.lt_trichotomy other place.toNat with hlt | rfl | hgt
    · -- a field below ends where the replaced one begins, at the latest
      have hbelow : width.toNat * (other + 1) ≤ width.toNat * place.toNat :=
        Nat.mul_le_mul_left _ hlt
      rw [Nat.mul_succ] at hbelow
      rw [if_neg (by omega), if_neg (by omega), Word.testBit_field]
    · rw [if_pos (by omega), if_pos rfl, Nat.add_sub_cancel_left, decide_eq_true hi,
        Bool.true_and]
    · have habove : width.toNat * (place.toNat + 1) ≤ width.toNat * other :=
        Nat.mul_le_mul_left _ hgt
      rw [Nat.mul_succ] at habove
      rw [if_neg (by omega), if_neg (by omega), Word.testBit_field]
  · -- neither side has a bit beyond the width of a field
    rw [decide_eq_false hi, Bool.false_and]
    split
    · symm
      apply Nat.testBit_lt_two_pow
      exact Nat.lt_of_lt_of_le hvalue (Nat.pow_le_pow_right (by decide) (Nat.le_of_not_lt hi))
    · rw [Word.testBit_field, decide_eq_false hi, Bool.false_and]

end

end Board

/-! ## Words -/

namespace Memory

/-- From `old` to `m`, no word has changed but those at the given addresses. -/
def ChangesOnly (addresses : List Address) (old m : Memory) : Prop :=
  ∀ a, a ∉ addresses → m.read a = old.read a

theorem changesOnly_write (m : Memory) (a : Address) (v : Word) :
    ChangesOnly [a] m (m.write a v) := by
  intro b hb
  rw [List.mem_singleton] at hb
  exact m.read_write_of_ne hb v

theorem ChangesOnly.trans {addresses more : List Address} {old m m' : Memory}
    (h : ChangesOnly addresses old m) (h' : ChangesOnly more m m') :
    ChangesOnly (addresses ++ more) old m' := by
  intro a ha
  rw [List.mem_append, not_or] at ha
  rw [h' a ha.2, h a ha.1]

/-- One more write. -/
theorem ChangesOnly.write {addresses : List Address} {old m : Memory}
    (h : ChangesOnly addresses old m) (a : Address) (v : Word) :
    ChangesOnly (addresses ++ [a]) old (m.write a v) :=
  h.trans (m.changesOnly_write a v)

end Memory

end SerialGateway
