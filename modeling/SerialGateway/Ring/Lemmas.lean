import SerialGateway.Ring.Basic

/-!
# Laws of receive rings

What this module delivers: one equation per operation of a ring, through the
list of its unread bytes. A push appends (`toList_push`), a pop takes the head
(`toList_pop`), and a clear empties (`toList_clear`). Positions stay in their
range all along (`inRange_push`, `inRange_pop`).

The arithmetic is that of two laps: two different positions less than a capacity
apart never index the same byte (`mod_ne_mod`).
-/

set_option autoImplicit false

namespace SerialGateway.Ring

variable {cap : Nat}

/-! ## Positions -/

/-- The remainder of a number below three capacities. -/
theorem mod_cases {x : Nat} (h : x < 3 * cap) :
    (x < cap ∧ x % cap = x) ∨ (cap ≤ x ∧ x < 2 * cap ∧ x % cap = x - cap) ∨
      (2 * cap ≤ x ∧ x % cap = x - 2 * cap) := by
  rcases Nat.lt_or_ge x cap with h1 | h1
  · exact .inl ⟨h1, Nat.mod_eq_of_lt h1⟩
  · rcases Nat.lt_or_ge x (2 * cap) with h2 | h2
    · refine .inr (.inl ⟨h1, h2, ?_⟩)
      rw [Nat.mod_eq_sub_mod h1, Nat.mod_eq_of_lt (by omega)]
    · refine .inr (.inr ⟨h2, ?_⟩)
      rw [Nat.mod_eq_sub_mod h1, Nat.mod_eq_sub_mod (by omega), Nat.mod_eq_of_lt (by omega)]
      omega

/-- Two positions less than a capacity apart index different bytes. -/
theorem mod_ne_mod {x y : Nat} (hx : x < y) (hy : y < x + cap) (h : y < 3 * cap) :
    x % cap ≠ y % cap := by
  rcases mod_cases (show x < 3 * cap by omega) with hx' | hx' | hx' <;>
    rcases mod_cases h with hy' | hy' | hy' <;> omega

/-- The position after one in range. -/
theorem advance_eq {pos : Nat} (h : pos < laps cap) :
    advance cap pos = if pos + 1 = laps cap then 0 else pos + 1 := by
  rw [advance]
  split
  · next e => rw [e, Nat.mod_self]
  · exact Nat.mod_eq_of_lt (by omega)

/-- The unread bytes, counted without a remainder. -/
theorem available_eq {r : Ring cap} (hw : r.writePos < laps cap) (hr : r.readPos < laps cap) :
    r.available =
      if r.readPos ≤ r.writePos then r.writePos - r.readPos
      else r.writePos + laps cap - r.readPos := by
  rw [available, lead]
  split
  · rw [show r.writePos + laps cap - r.readPos = laps cap + (r.writePos - r.readPos) by omega,
      Nat.add_mod_left, Nat.mod_eq_of_lt (by omega)]
  · exact Nat.mod_eq_of_lt (by omega)

/-- The write position indexes the byte behind the unread ones. -/
theorem mod_writePos {r : Ring cap} (hw : r.writePos < laps cap) (hr : r.readPos < laps cap) :
    r.writePos % cap = (r.readPos + r.available) % cap := by
  rw [available_eq hw hr]
  split
  · rw [Nat.add_sub_cancel' (by assumption)]
  · rw [show r.readPos + (r.writePos + laps cap - r.readPos) = r.writePos + cap * 2 by
      unfold laps at *; omega, Nat.add_mul_mod_self_left]

/-! ## Storing a byte -/

theorem available_store {r : Ring cap} (h : r.InRange) (hlt : r.available < cap)
    (byte : UInt8) : (r.store byte).available = r.available + 1 := by
  have hw := h.write_lt
  have hr := h.read_lt
  have ha := available_eq hw hr
  rw [available_eq (r := r.store byte) (advance_lt r.cap_pos _) hr, ha]
  simp only [store, advance_eq hw]
  unfold laps at *
  split at ha <;> repeat' split
  all_goals omega

theorem inRange_store {r : Ring cap} (h : r.InRange) (hlt : r.available < cap) (byte : UInt8) :
    (r.store byte).InRange where
  write_lt := advance_lt r.cap_pos _
  read_lt := h.read_lt
  available_le := by rw [available_store h hlt]; omega

theorem byteAt_store (r : Ring cap) (byte : UInt8) (pos : Nat) :
    (r.store byte).byteAt pos = if r.writePos % cap = pos % cap then byte else r.byteAt pos := by
  simp only [byteAt, store, Vector.getElem_set]

/-- Storing a byte in a ring that is not full appends it. -/
theorem toList_store {r : Ring cap} (h : r.InRange) (hlt : r.available < cap) (byte : UInt8) :
    (r.store byte).toList = r.toList ++ [byte] := by
  have hread : (r.store byte).readPos = r.readPos := rfl
  have hmod := mod_writePos h.write_lt h.read_lt
  have hr := h.read_lt
  unfold laps at hr
  simp only [toList, available_store h hlt, List.range_succ, List.map_append, List.map_cons,
    List.map_nil, hread, byteAt_store, hmod, if_true]
  congr 1
  refine List.map_congr_left fun i hi => if_neg ?_
  rw [List.mem_range] at hi
  exact (mod_ne_mod (by omega) (by omega) (by omega)).symm

/-! ## Giving up the oldest byte -/

/-- The ring whose read position has moved past the oldest unread byte. -/
theorem available_of_readPos_advance {r s : Ring cap} (h : r.InRange) (hpos : 0 < r.available)
    (hw : s.writePos = r.writePos) (hr : s.readPos = advance cap r.readPos) :
    s.available = r.available - 1 := by
  have hwlt := h.write_lt
  have hrlt := h.read_lt
  have ha := available_eq hwlt hrlt
  rw [available_eq (r := s) (by omega) (by rw [hr]; exact advance_lt r.cap_pos _), ha, hw, hr,
    advance_eq hrlt]
  unfold laps at *
  split at ha <;> repeat' split
  all_goals omega

/-- Moving the read position past the oldest unread byte drops it from the list. -/
theorem toList_of_readPos_advance {r s : Ring cap} (h : r.InRange) (hpos : 0 < r.available)
    (hw : s.writePos = r.writePos) (hr : s.readPos = advance cap r.readPos)
    (hs : s.storage = r.storage) : s.toList = r.toList.tail := by
  have hbyte : ∀ pos, s.byteAt (s.readPos + pos) = r.byteAt (r.readPos + (pos + 1)) := by
    intro pos
    have : (s.readPos + pos) % cap = (r.readPos + (pos + 1)) % cap := by
      rw [hr, advance_eq h.read_lt]
      split
      · next e =>
        rw [show r.readPos + (pos + 1) = 0 + pos + cap * 2 by unfold laps at e; omega,
          Nat.add_mul_mod_self_left]
      · rw [Nat.add_assoc, Nat.add_comm 1 pos]
    simp only [byteAt, hs, this]
  obtain ⟨n, hn⟩ : ∃ n, r.available = n + 1 := ⟨r.available - 1, by omega⟩
  have hn' : s.available = n := by
    rw [available_of_readPos_advance h hpos hw hr, hn, Nat.add_sub_cancel]
  simp only [toList, hn, hn', hbyte, List.range_succ_eq_map, List.map_cons, List.map_map,
    List.tail_cons]
  rfl

theorem inRange_of_readPos_advance {r s : Ring cap} (h : r.InRange) (hpos : 0 < r.available)
    (hw : s.writePos = r.writePos) (hr : s.readPos = advance cap r.readPos) : s.InRange where
  write_lt := hw ▸ h.write_lt
  read_lt := hr ▸ advance_lt r.cap_pos _
  available_le := by
    have := h.available_le
    rw [available_of_readPos_advance h hpos hw hr]
    omega

/-! ## One equation per operation -/

/-- A ring is empty exactly when its positions are equal. -/
theorem available_eq_zero_iff {r : Ring cap} (h : r.InRange) :
    r.available = 0 ↔ r.writePos = r.readPos := by
  have hw := h.write_lt
  have hr := h.read_lt
  have ha := available_eq hw hr
  split at ha <;> omega

theorem inRange_push {r : Ring cap} (h : r.InRange) (byte : UInt8) : (r.push byte).2.InRange := by
  have hc := r.cap_pos
  rw [push]
  split
  · next hlt => exact inRange_store h hlt byte
  · next hge =>
    have hpos : 0 < r.available := by omega
    refine inRange_store (inRange_of_readPos_advance (s := r.giveUp) h hpos rfl rfl) ?_ byte
    have := available_of_readPos_advance (s := r.giveUp) h hpos rfl rfl
    have := h.available_le
    omega

/-- A push appends the byte, and a full ring first loses its oldest one. -/
theorem toList_push {r : Ring cap} (h : r.InRange) (byte : UInt8) :
    (r.push byte).2.toList =
      (if r.toList.length < cap then r.toList else r.toList.tail) ++ [byte] := by
  have hc := r.cap_pos
  rw [length_toList]
  rw [push]
  split
  · next hlt => exact toList_store h hlt byte
  · next hge =>
    have hpos : 0 < r.available := by omega
    have hin := inRange_of_readPos_advance (s := r.giveUp) h hpos rfl rfl
    have hav := available_of_readPos_advance (s := r.giveUp) h hpos rfl rfl
    have := h.available_le
    show (r.giveUp.store byte).toList = _
    rw [toList_store hin (by omega), toList_of_readPos_advance (s := r.giveUp) h hpos rfl rfl rfl]

/-- A push tells whether the byte fitted. -/
theorem push_fst (r : Ring cap) (byte : UInt8) :
    (r.push byte).1 = decide (r.toList.length < cap) := by
  rw [length_toList]
  rw [push]
  split <;> simp [*]

theorem inRange_pop {r : Ring cap} (h : r.InRange) : r.pop.2.InRange := by
  rw [pop]
  split
  · exact h
  · next hne =>
    exact inRange_of_readPos_advance h
      (Nat.pos_of_ne_zero fun h0 => hne ((available_eq_zero_iff h).1 h0)) rfl rfl

/-- A pop takes the oldest unread byte away. -/
theorem toList_pop {r : Ring cap} (h : r.InRange) : r.pop.2.toList = r.toList.tail := by
  rw [pop]
  split
  · next he =>
    have h0 : r.toList.length = 0 := by rw [length_toList, available_eq_zero_iff h]; exact he
    rw [List.length_eq_zero_iff.1 h0, List.tail_nil]
  · next hne =>
    exact toList_of_readPos_advance h
      (Nat.pos_of_ne_zero fun h0 => hne ((available_eq_zero_iff h).1 h0)) rfl rfl rfl

/-- A pop answers with the oldest unread byte. -/
theorem pop_fst {r : Ring cap} (h : r.InRange) : r.pop.1 = r.toList.head? := by
  rw [pop]
  split
  · next he =>
    have h0 : r.toList.length = 0 := by rw [length_toList, available_eq_zero_iff h]; exact he
    rw [List.length_eq_zero_iff.1 h0, List.head?_nil]
  · next hne =>
    have hpos : 0 < r.available :=
      Nat.pos_of_ne_zero fun h0 => hne ((available_eq_zero_iff h).1 h0)
    have := peek_eq_getElem? r 0
    rw [peek, if_pos hpos, Nat.add_zero] at this
    rw [List.head?_eq_getElem?, ← this]

theorem inRange_clear (r : Ring cap) : r.clear.InRange where
  write_lt := (inRange_empty r.cap_pos).write_lt
  read_lt := (inRange_empty r.cap_pos).read_lt
  available_le := (inRange_empty r.cap_pos).available_le

/-- A cleared ring holds nothing. -/
theorem toList_clear (r : Ring cap) : r.clear.toList = [] := by
  simp [toList, clear, available, lead]

end SerialGateway.Ring
