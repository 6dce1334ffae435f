import Mathlib.Data.List.Induction
import SerialGateway.Proofs.Ring.Refinement

/-!
# The ledger of the console

What happens to the console is a list of events: bytes that are accepted, reads and flushes. The
`Ledger` of such a list says of every accepted byte where it has got to: it is unread, or was
returned by a read, overwritten by a later byte, or discarded by a flush. No byte is in two groups
and none is lost (`Ledger.Sound.groups`), and reads return bytes in the order in which they were
accepted (`Ledger.Sound.inOrder`).

`Books` says that a receive ring agrees with the ledger of its events. What the ring answers is what
the events say it answered, so every push, read and flush keeps the books (`Books.accept`,
`Books.read`, `Books.flush`).
-/

set_option autoImplicit false

namespace SerialGateway

/-! ## Events -/

/-- An accepted byte, told by the call that took it. -/
structure Entry where
  call : Nat
  byte : UInt8
  deriving DecidableEq, Repr

/-- Something that happens to the console. -/
inductive ConsoleEvent where
  /-- A byte is accepted, and overwrites the oldest unread one or not. -/
  | accept (entry : Entry) (overwrites : Bool)
  /-- A read answers. -/
  | read (answer : Option UInt8)
  /-- All input is forgotten. -/
  | flush
  deriving DecidableEq, Repr

namespace ConsoleEvent

/-- The byte that is accepted, if one is. -/
@[simp] def entry? : ConsoleEvent → Option Entry
  | accept entry _ => some entry
  | read _ | flush => none

/-- The byte that a read returns, if one does. -/
@[simp] def answer? : ConsoleEvent → Option UInt8
  | read answer => answer
  | accept _ _ | flush => none

/-- A byte is accepted over another one. -/
@[simp] def isOverwrite : ConsoleEvent → Bool
  | accept _ overwrites => overwrites
  | read _ | flush => false

@[simp] def isFlush : ConsoleEvent → Bool
  | flush => true
  | accept _ _ | read _ => false

/-- The bytes that were overwritten since the last flush. -/
def overwritesSinceFlush (events : List ConsoleEvent) : Nat :=
  (events.reverse.takeWhile fun e => !e.isFlush).countP isOverwrite

variable (events : List ConsoleEvent)

theorem overwritesSinceFlush_accept (entry : Entry) (overwrites : Bool) :
    overwritesSinceFlush (events ++ [accept entry overwrites]) =
      overwritesSinceFlush events + if overwrites then 1 else 0 := by
  cases overwrites <;> simp [overwritesSinceFlush, List.countP_cons]

theorem overwritesSinceFlush_read (answer : Option UInt8) :
    overwritesSinceFlush (events ++ [read answer]) = overwritesSinceFlush events := by
  simp [overwritesSinceFlush]

theorem overwritesSinceFlush_flush : overwritesSinceFlush (events ++ [flush]) = 0 := by
  simp [overwritesSinceFlush]

end ConsoleEvent

open ConsoleEvent

/-! ## The ledger -/

/-- Where the accepted bytes have got to. Unread bytes stand oldest first, and the others in the
order in which they left. -/
structure Ledger where
  unread : List Entry := []
  returned : List Entry := []
  overwritten : List Entry := []
  discarded : List Entry := []

namespace Ledger

/-- The ledger after one more event. A byte that overwrites another one takes the place of the
oldest; a read returns the oldest, if there is one. -/
def record (l : Ledger) : ConsoleEvent → Ledger
  | .accept entry overwrites =>
      if overwrites then
        { l with
          unread := l.unread.tail ++ [entry]
          overwritten := l.overwritten ++ l.unread.take 1 }
      else { l with unread := l.unread ++ [entry] }
  | .read _ =>
      { l with unread := l.unread.tail, returned := l.returned ++ l.unread.take 1 }
  | .flush => { l with unread := [], discarded := l.discarded ++ l.unread }

/-- The ledger of a list of events. -/
def ofEvents (events : List ConsoleEvent) : Ledger := events.foldl record {}

@[simp] theorem ofEvents_append (events : List ConsoleEvent) (e : ConsoleEvent) :
    ofEvents (events ++ [e]) = (ofEvents events).record e := by
  simp [ofEvents]

/-- An accepted byte is the newest unread one. -/
theorem unread_accept (l : Ledger) (entry : Entry) (overwrites : Bool) :
    ∃ older, (l.record (.accept entry overwrites)).unread = older ++ [entry] := by
  cases overwrites with
  | false => exact ⟨l.unread, rfl⟩
  | true => exact ⟨l.unread.tail, rfl⟩

/-- The groups of a ledger hold the accepted bytes, each of them once, and the bytes that were
returned and those that still can be stand in the order in which they were accepted. -/
structure Sound (l : Ledger) (accepted : List Entry) : Prop where
  groups : (l.unread ++ l.returned ++ l.overwritten ++ l.discarded).Perm accepted
  inOrder : (l.returned ++ l.unread).Sublist accepted

theorem take_one_append_tail {α : Type} (xs : List α) : xs.take 1 ++ xs.tail = xs := by
  cases xs <;> rfl

theorem count_unread (l : Ledger) (entry : Entry) :
    l.unread.count entry = (l.unread.take 1).count entry + l.unread.tail.count entry := by
  rw [← List.count_append, take_one_append_tail]

namespace Sound

variable {l : Ledger} {accepted : List Entry} (h : l.Sound accepted)

include h

theorem accept (entry : Entry) (overwrites : Bool) :
    (l.record (.accept entry overwrites)).Sound (accepted ++ [entry]) := by
  have hgroups := List.perm_iff_count.1 h.groups
  simp only [List.count_append] at hgroups
  cases overwrites with
  | false =>
      constructor
      · rw [List.perm_iff_count]
        intro x
        have hx := hgroups x
        simp only [record, Bool.false_eq_true, if_false, List.count_append]
        omega
      · simp only [record, Bool.false_eq_true, if_false]
        rw [← List.append_assoc]
        exact h.inOrder.append (List.Sublist.refl _)
  | true =>
      constructor
      · rw [List.perm_iff_count]
        intro x
        have hx := hgroups x
        have hunread := l.count_unread x
        simp only [record, if_true, List.count_append]
        omega
      · -- the byte that is overwritten is left out of the order
        have hleft : (l.returned ++ l.unread.tail).Sublist accepted :=
          ((List.Sublist.refl _).append (List.tail_sublist _)).trans h.inOrder
        simp only [record, if_true]
        rw [← List.append_assoc]
        exact hleft.append (List.Sublist.refl _)

theorem read (answer : Option UInt8) : (l.record (.read answer)).Sound accepted := by
  constructor
  · rw [List.perm_iff_count]
    intro x
    have hx := List.perm_iff_count.1 h.groups x
    have hunread := l.count_unread x
    simp only [List.count_append] at hx
    simp only [record, List.count_append]
    omega
  · -- the oldest unread byte becomes the last one returned
    simp only [record]
    rw [List.append_assoc, take_one_append_tail]
    exact h.inOrder

theorem flush : (l.record .flush).Sound accepted := by
  constructor
  · rw [List.perm_iff_count]
    intro x
    have hx := List.perm_iff_count.1 h.groups x
    simp only [List.count_append] at hx
    simp only [record, List.count_append, List.count_nil]
    omega
  · simp only [record, List.append_nil]
    exact (List.sublist_append_left ..).trans h.inOrder

end Sound

/-- Every ledger is sound. -/
theorem sound_ofEvents (events : List ConsoleEvent) :
    (ofEvents events).Sound (events.filterMap entry?) := by
  -- induction from the last event
  induction events using List.reverseRecOn with
  | nil => exact ⟨List.Perm.refl _, List.Sublist.refl _⟩
  | append_singleton events e ih =>
      rw [ofEvents_append, List.filterMap_append]
      cases e with
      | accept entry overwrites => exact ih.accept entry overwrites
      | read answer =>
          rw [show List.filterMap entry? [.read answer] = [] from rfl, List.append_nil]
          exact ih.read answer
      | flush =>
          rw [show List.filterMap entry? [.flush] = [] from rfl, List.append_nil]
          exact ih.flush

end Ledger

/-! ## The books of a ring -/

/-- A ring agrees with its events: it holds what is unread in the ledger, the bytes that were
overwritten and returned are those of which the events speak, and it has counted what was
overwritten since the last flush. -/
structure Books {cap : Nat} (events : List ConsoleEvent) (r : Ring cap) : Prop where
  mirrors : r.Mirrors
    ⟨(Ledger.ofEvents events).unread.map Entry.byte, min 255 (overwritesSinceFlush events)⟩
  overwritten : (Ledger.ofEvents events).overwritten.length = events.countP isOverwrite
  returned : (Ledger.ofEvents events).returned.map Entry.byte = events.filterMap answer?

namespace Books

variable {cap : Nat} {events : List ConsoleEvent} {r : Ring cap}

theorem start (h : 0 < cap) : Books [] (Ring.empty cap h) where
  mirrors := Ring.mirrors_empty h
  overwritten := rfl
  returned := rfl

variable (h : Books events r)

include h

/-- A push is accepted, and overwrites a byte if the ring is full. -/
theorem accept (entry : Entry) :
    Books (events ++ [.accept entry (!(r.push entry.byte).1)]) (r.push entry.byte).2 := by
  obtain ⟨hfits, hmirrors⟩ := Ring.mirrors_push h.mirrors entry.byte
  have hcap := r.cap_pos
  rw [hfits]
  by_cases hroom : (Ledger.ofEvents events).unread.length < cap
  · simp only [DropOldest.push, List.length_map, if_pos hroom] at hmirrors ⊢
    constructor
    · rw [overwritesSinceFlush_accept]
      simpa [Ledger.record] using hmirrors
    · simpa [Ledger.record] using h.overwritten
    · simpa [Ledger.record, List.filterMap_cons] using h.returned
  · simp only [DropOldest.push, List.length_map, if_neg hroom] at hmirrors ⊢
    -- the ring is full, and its capacity is positive: there is a byte to overwrite
    have hfull : (Ledger.ofEvents events).unread.length ≠ 0 := by omega
    constructor
    · have hcount : min 255 (min 255 (overwritesSinceFlush events) + 1) =
          min 255 (overwritesSinceFlush events + 1) := by omega
      rw [hcount] at hmirrors
      rw [overwritesSinceFlush_accept]
      simpa [Ledger.record] using hmirrors
    · simp [Ledger.record, h.overwritten, List.countP_append]
      omega
    · simpa [Ledger.record, List.filterMap_cons] using h.returned

theorem read : Books (events ++ [.read r.pop.1]) r.pop.2 := by
  obtain ⟨hbyte, hmirrors⟩ := Ring.mirrors_pop h.mirrors
  rw [hbyte]
  simp only [DropOldest.pop] at hmirrors ⊢
  constructor
  · rw [overwritesSinceFlush_read]
    simpa [Ledger.record] using hmirrors
  · simpa [Ledger.record] using h.overwritten
  · cases hunread : (Ledger.ofEvents events).unread with
    | nil => simp [Ledger.record, hunread, h.returned]
    | cons first rest => simp [Ledger.record, hunread, h.returned]

theorem flush {D : Type} (rx : Receiver D) (d : D) :
    Books (events ++ [.flush]) (r.flush rx d).1 := by
  constructor
  · rw [overwritesSinceFlush_flush, Ledger.ofEvents_append]
    exact ⟨Ring.toList_clear _, rfl, Ring.inRange_clear _⟩
  · simpa [Ledger.record] using h.overwritten
  · simpa [Ledger.record, List.filterMap_cons] using h.returned

end Books

end SerialGateway
