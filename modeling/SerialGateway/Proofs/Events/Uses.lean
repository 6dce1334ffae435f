import SerialGateway.Event

/-!
# Uses of the event register

What is done with events is a log of uses: events are set, cleared and polled, and each use has an
answer. Bit by bit, a register shows the log from which it comes (`EventRegister.Reflects`). A bit is
pending exactly when the last use that decides about it was a `set`. And if an event of one bit is
never joined with others in a `set` or a `clear`, then notifications are neither lost nor invented:
those that were new when they were set, and those that were still there when they were cleared,
differ in number by the one that is pending now.
-/

set_option autoImplicit false

namespace SerialGateway

/-! ## Bits -/

/-- The event contains the condition of a bit. -/
def Event.has (e : Event) (bit : Nat) : Bool := e.mask.toNat.testBit bit

/-- The condition of a bit is pending. -/
def EventRegister.has (r : EventRegister) (bit : Nat) : Bool := r.bits.toNat.testBit bit

/-- The event of one bit contains that bit only. -/
theorem Event.has_ofBit {bit : Nat} {e : Event} (he : ofBit bit = .ok e) (i : Nat) :
    e.has i = decide (bit = i) := by
  rw [ofBit] at he
  split at he
  · next hbit =>
    cases he
    have hmask : ∀ b : Fin 8, (1 <<< UInt8.ofNat b : UInt8).toNat = 2 ^ b.val := by decide
    rw [has, hmask ⟨bit, hbit⟩, Nat.testBit_two_pow]
  · cases he

/-- An event without a bit is not the event of that bit. -/
theorem Event.ne_of_has_eq_false {bit : Nat} {e single : Event} (hsingle : ofBit bit = .ok single)
    (hbit : e.has bit = false) : e ≠ single := by
  rintro rfl
  simp [has_ofBit hsingle] at hbit

namespace EventRegister

variable (r : EventRegister) (e : Event) (bit : Nat)

@[simp] theorem has_empty : ({} : EventRegister).has bit = false := Nat.zero_testBit bit

@[simp] theorem has_set : (r.set e).2.has bit = (r.has bit || e.has bit) := by
  rw [has, set, UInt8.toNat_or, Nat.testBit_or, has, Event.has]

@[simp] theorem has_clear : (r.clear e).2.has bit = (r.has bit && !e.has bit) := by
  have hnot : r.bits &&& ~~~e.mask = UInt8.ofBitVec (r.bits.toBitVec &&& ~~~e.mask.toBitVec) := rfl
  show (r.bits &&& ~~~e.mask).toNat.testBit bit = _
  rw [hnot, UInt8.toNat_ofBitVec, BitVec.testBit_toNat, BitVec.getLsbD_and, BitVec.getLsbD_not]
  show (r.has bit && (decide (bit < 8) && !e.has bit)) = _
  -- no register has a bit from the eighth on
  by_cases hbit : bit < 8
  · rw [decide_eq_true hbit, Bool.true_and]
  · have hnone : r.has bit = false := Nat.testBit_lt_two_pow (by
      calc r.bits.toNat < 2 ^ 8 := r.bits.toNat_lt
        _ ≤ 2 ^ bit := Nat.pow_le_pow_right (by decide) (by omega))
    rw [hnone, Bool.false_and, Bool.false_and]

/-- An event is pending if one of its bits is. -/
theorem isPending_iff :
    r.isPending e = true ↔ ∃ bit, e.has bit = true ∧ r.has bit = true := by
  have hzero : r.isPending e = true ↔ (r.bits &&& e.mask).toNat ≠ 0 := by
    rw [isPending, bne_iff_ne, ne_eq, ne_eq, ← UInt8.toNat_inj]
    rfl
  rw [hzero]
  constructor
  · intro hne
    obtain ⟨bit, hbit⟩ := Nat.exists_testBit_of_ne_zero hne
    rw [UInt8.toNat_and, Nat.testBit_and, Bool.and_eq_true] at hbit
    exact ⟨bit, hbit.2, hbit.1⟩
  · rintro ⟨bit, hevent, hregister⟩ hnone
    have hbit : (r.bits &&& e.mask).toNat.testBit bit = true := by
      rw [UInt8.toNat_and, Nat.testBit_and, Bool.and_eq_true]
      exact ⟨hregister, hevent⟩
    rw [hnone, Nat.zero_testBit] at hbit
    cases hbit

/-- An event of one bit is pending if that bit is. -/
theorem isPending_ofBit {bit : Nat} {e : Event} (he : Event.ofBit bit = .ok e) :
    r.isPending e = r.has bit := by
  rw [Bool.eq_iff_iff, isPending_iff]
  simp [Event.has_ofBit he]

end EventRegister

/-! ## Logs -/

/-- A use of the event register, with its answer. -/
inductive EventUse where
  | set (e : Event) (answer : Bool)
  | clear (e : Event) (answer : Bool)
  | poll (e : Event) (answer : Bool)
  deriving DecidableEq, Repr

namespace EventUse

/-- The event that is used. -/
@[simp] def event : EventUse → Event
  | set e _ | clear e _ | poll e _ => e

@[simp] def answer : EventUse → Bool
  | set _ answer | clear _ answer | poll _ answer => answer

/-- The use decides whether a bit is pending from then on. -/
@[simp] def decides (bit : Nat) : EventUse → Bool
  | set e _ | clear e _ => e.has bit
  | poll _ _ => false

/-- The last use that decides about a bit. -/
def last? (bit : Nat) (uses : List EventUse) : Option EventUse :=
  uses.reverse.find? (decides bit)

@[simp] theorem last?_append (bit : Nat) (uses : List EventUse) (use : EventUse) :
    last? bit (uses ++ [use]) = if use.decides bit then some use else last? bit uses := by
  rw [last?, List.reverse_append, List.reverse_singleton, List.singleton_append, List.find?_cons]
  cases use.decides bit <;> rfl

/-- The bit is never set or cleared together with others. -/
def Alone (bit : Nat) (uses : List EventUse) : Prop :=
  ∀ use ∈ uses, use.decides bit = true → Event.ofBit bit = .ok use.event

theorem Alone.of_append {bit : Nat} {uses : List EventUse} {use : EventUse}
    (h : Alone bit (uses ++ [use])) : Alone bit uses :=
  fun earlier hearlier => h earlier (List.mem_append_left _ hearlier)

/-- A bit that is alone is set and cleared by its own event. -/
theorem Alone.event_eq {bit : Nat} {uses : List EventUse} {use : EventUse}
    (h : Alone bit (uses ++ [use])) {e : Event} (he : Event.ofBit bit = .ok e)
    (hbit : use.decides bit = true) : use.event = e := by
  have hevent := h use (by simp) hbit
  rw [he] at hevent
  cases hevent
  rfl

end EventUse

open EventUse

/-- The register shows the log: a bit is pending if the last use that decides about it has set it;
and the sets of an event of one bit that found it clear are as many as the clears that found it
pending, and one more while it is pending. -/
structure EventRegister.Reflects (r : EventRegister) (uses : List EventUse) : Prop where
  pending_iff : ∀ bit, r.has bit = true ↔ ∃ e answer, last? bit uses = some (.set e answer)
  balanced : ∀ bit e, Event.ofBit bit = .ok e → Alone bit uses →
    uses.count (.set e false) = uses.count (.clear e true) + (r.has bit).toNat

namespace EventRegister.Reflects

theorem start : ({} : EventRegister).Reflects [] where
  pending_iff := by simp [last?]
  balanced := by simp

variable {r : EventRegister} {uses : List EventUse} (h : r.Reflects uses) (e : Event)

include h

theorem set : (r.set e).2.Reflects (uses ++ [.set e (r.isPending e)]) where
  pending_iff bit := by
    cases hbit : e.has bit with
    | true => simp [hbit]
    | false => simp [hbit, h.pending_iff bit]
  balanced bit single hsingle halone := by
    have hcount := h.balanced bit single hsingle halone.of_append
    rw [List.count_append, List.count_append, hcount]
    cases hbit : e.has bit with
    | true =>
        -- the event is the one of the bit, and it is new if the bit was clear
        obtain rfl : e = single := halone.event_eq hsingle hbit
        rw [r.isPending_ofBit hsingle]
        cases hbefore : r.has bit <;> simp [hbefore, hbit]
    | false =>
        have hne : e ≠ single := Event.ne_of_has_eq_false hsingle hbit
        simp [hne, hbit]

theorem clear : (r.clear e).2.Reflects (uses ++ [.clear e (r.isPending e)]) where
  pending_iff bit := by
    cases hbit : e.has bit with
    | true => simp [hbit]
    | false => simp [hbit, h.pending_iff bit]
  balanced bit single hsingle halone := by
    have hcount := h.balanced bit single hsingle halone.of_append
    rw [List.count_append, List.count_append, hcount]
    cases hbit : e.has bit with
    | true =>
        -- the event is the one of the bit, and it is used up if the bit was pending
        obtain rfl : e = single := halone.event_eq hsingle hbit
        rw [r.isPending_ofBit hsingle]
        cases hbefore : r.has bit <;> simp [hbefore, hbit]
    | false =>
        have hne : e ≠ single := Event.ne_of_has_eq_false hsingle hbit
        simp [hne, hbit]

/-- A poll decides nothing. -/
theorem poll (answer : Bool) : r.Reflects (uses ++ [.poll e answer]) where
  pending_iff bit := by simpa using h.pending_iff bit
  balanced bit single hsingle halone := by
    simpa using h.balanced bit single hsingle halone.of_append

end EventRegister.Reflects

end SerialGateway
