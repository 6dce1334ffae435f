import SerialGateway.Bench.Control
import SerialGateway.Bench.Devices
import SerialGateway.Node.WithBorrows
import SerialGateway.Proofs.Node.Calls
import SerialGateway.Proofs.Reentrant.Fallible
import SerialGateway.Settings

/-!
# No borrow fails

A call that kept a borrow while it enters a hook would be fatal to the next call of the same cell,
from within that hook (`WithBorrows.start_fails_of_writing`). No call does. With all cells free, a
call of the node with its borrows does what the call of the plain node does, and all cells are free
again when it enters its hook (`WithBorrows.neverFails`). As that is all that hooks and calls from
within hooks can find, no borrow of any tree of calls fails (`WithBorrows.no_borrow_fails`).
-/

set_option autoImplicit false

namespace SerialGateway

/-! ## One borrow -/

namespace Borrow

/-- A borrow that succeeds is undone when it is given back. -/
theorem release_of_acquire {purpose : Purpose} {b held : Borrow}
    (h : acquire purpose b = .ok held) : release purpose held = b := by
  cases purpose with
  | read =>
      cases b with
      | reading readers =>
          rw [acquire] at h
          split at h
          · cases h
            rfl
          · cases h
      | writing => cases h
  | write =>
      cases b with
      | reading readers =>
          cases readers with
          | zero =>
              cases h
              rfl
          | succ n => cases h
      | writing => cases h

theorem exists_acquire_free (purpose : Purpose) : ∃ held, acquire purpose free = .ok held := by
  cases purpose with
  | read => exact ⟨.reading 1, rfl⟩
  | write => exact ⟨.writing, rfl⟩

/-- While a cell is written, nobody else borrows it. -/
theorem exists_acquire_writing (purpose : Purpose) : ∃ e, acquire purpose writing = .error e := by
  cases purpose with
  | read => exact ⟨.alreadyWritten, rfl⟩
  | write => exact ⟨.alreadyBorrowed, rfl⟩

end Borrow

namespace Node

theorem Borrows.set_set_self (borrows : Borrows) (cell : Cell) (b : Borrow) :
    (borrows.set cell b).set cell (borrows cell) = borrows := by
  funext other
  by_cases h : other = cell
  · simp [Borrows.set, h]
  · simp [Borrows.set, h]

theorem Cell.put_get {cap : Nat} (s : SharedState cap) (cell : Cell) :
    cell.put s (cell.get s) = s := by
  cases cell <;> rfl

namespace Body

variable {D A B : Type} {cap : Nat}

/-- A borrow of a free cell succeeds, and is over when the body is. -/
theorem borrowing_free (purpose : Purpose) (cell : Cell)
    (use : cell.Content cap → D → A × cell.Content cap × D) {w : Inside D cap}
    (h : w.borrows cell = .free) :
    borrowing purpose cell use w =
      (.ok (use (cell.get w.shared) w.devices).1,
        { borrows := w.borrows
          shared := cell.put w.shared (use (cell.get w.shared) w.devices).2.1
          devices := (use (cell.get w.shared) w.devices).2.2 }) := by
  obtain ⟨held, hheld⟩ := Borrow.exists_acquire_free purpose
  rw [← h] at hheld
  have hgiven : Borrow.release purpose ((w.borrows.set cell held) cell) = w.borrows cell := by
    rw [Borrows.set, if_pos rfl]
    exact Borrow.release_of_acquire hheld
  simp only [borrowing, hheld, hgiven, Borrows.set_set_self]

theorem reading_free (cell : Cell) (use : cell.Content cap → D → A × D) {w : Inside D cap}
    (h : w.borrows cell = .free) :
    reading cell use w =
      (.ok (use (cell.get w.shared) w.devices).1,
        { w with devices := (use (cell.get w.shared) w.devices).2 }) := by
  rw [reading, borrowing_free .read cell _ h, Cell.put_get]

/-- With all cells free, the body succeeds as `f` does, and all cells are free again. -/
def Does (body : Body D cap A) (f : SharedState cap → D → A × SharedState cap × D) : Prop :=
  ∀ s d, body ⟨.clear, s, d⟩ = (.ok (f s d).1, ⟨.clear, (f s d).2.1, (f s d).2.2⟩)

theorem does_answer (a : A) : (answer a : Body D cap A).Does fun s d => (a, s, d) :=
  fun _ _ => rfl

theorem does_writing (cell : Cell) (use : cell.Content cap → D → A × cell.Content cap × D) :
    (writing cell use).Does fun s d =>
      ((use (cell.get s) d).1, cell.put s (use (cell.get s) d).2.1, (use (cell.get s) d).2.2) :=
  fun _ _ => borrowing_free .write cell use rfl

theorem does_reading (cell : Cell) (use : cell.Content cap → D → A × D) :
    (reading cell use).Does fun s d =>
      ((use (cell.get s) d).1, s, (use (cell.get s) d).2) :=
  fun _ _ => reading_free cell use rfl

theorem Does.andThen {first : Body D cap A} {next : A → Body D cap B}
    {f : SharedState cap → D → A × SharedState cap × D}
    {g : A → SharedState cap → D → B × SharedState cap × D}
    (hfirst : first.Does f) (hnext : ∀ a, (next a).Does (g a)) :
    (first.andThen next).Does fun s d => g (f s d).1 (f s d).2.1 (f s d).2.2 := by
  intro s d
  rw [Body.andThen, hfirst s d]
  exact hnext _ _ _

/-- A borrow of a cell that is being written fails, and leaves everything as it is. -/
theorem exists_borrowing_of_writing (purpose : Purpose) (cell : Cell)
    (use : cell.Content cap → D → A × cell.Content cap × D) {w : Inside D cap}
    (h : w.borrows cell = .writing) : ∃ e, borrowing purpose cell use w = (.error e, w) := by
  obtain ⟨e, he⟩ := Borrow.exists_acquire_writing purpose
  rw [← h] at he
  refine ⟨e, ?_⟩
  rw [borrowing, he]

theorem exists_andThen_of_error {first : Body D cap A} {next : A → Body D cap B}
    {w : Inside D cap} (h : ∃ e, first w = (.error e, w)) :
    ∃ e, first.andThen next w = (.error e, w) := by
  obtain ⟨e, he⟩ := h
  refine ⟨e, ?_⟩
  rw [andThen, he]

end Body

/-! ## With all cells free -/

namespace WithBorrows

variable {M D A : Type} {cap : Nat} [InterruptControl M] [Peripherals D]

omit [InterruptControl M] [Peripherals D] in
theorem does_acceptConsole (byte : UInt8) :
    (acceptConsole byte : Body D cap ConsoleOutcome).Does fun s d =>
      ((Node.acceptConsole byte s).1, (Node.acceptConsole byte s).2, d) := by
  intro s d
  have hfeed := Body.does_writing .reboot
    (fun sequence d => ((sequence.feed byte).1, (sequence.feed byte).2, d)) s d
  rw [acceptConsole, Body.andThen, hfeed]
  unfold Node.acceptConsole
  cases hcompletes : (s.reboot.feed byte).1 with
  | true => simp [Cell.get, Cell.put, hcompletes, Body.answer]
  | false =>
      simp only [Cell.get, Cell.put, hcompletes, Bool.false_eq_true, if_false]
      -- the ring is borrowed after the detector was given back
      have hpush := Body.does_writing .console
        fun (ring : Ring cap) (d : D) => ((ring.push byte).1, (ring.push byte).2, d)
      exact hpush.andThen (fun fits => Body.does_answer _) _ d

omit [Peripherals D] in
theorem exclusively_intact {n : Node M D cap} {body : Body D cap A}
    {f : SharedState cap → D → A × SharedState cap × D} (h : body.Does f) :
    (intact n).exclusively body = (.ok (n.exclusively f).1, intact (n.exclusively f).2) := by
  have hbody : body ⟨(intact n).borrows, (intact n).node.shared, (intact n).node.devices⟩ = _ :=
    h n.shared n.devices
  rw [exclusively, hbody]
  rfl

omit [InterruptControl M] [Peripherals D] in
theorem succeeds_unborrowed (s : Step Hook (Node M D cap) A) (n : Node M D cap) :
    s.Succeeds intact (unborrowed s (intact n)) := by
  cases s with
  | finished a n' => exact .finished a n'
  | entering h n' resume => exact .entering h n' fun inside => rfl

/-- A section of the plain node with what comes after it: the answer, or a callback before it. -/
def calling {A : Type} (callback : A → Option Callback) (r : A × Node M D cap) :
    Step Hook (Node M D cap) A :=
  match callback r.1 with
  | none => .answer r
  | some c => notify c r.1 r.2

omit [InterruptControl M] [Peripherals D] in
theorem succeeds_calling (callback : A → Option Callback) (r : A × Node M D cap) :
    (calling callback r).Succeeds intact (notifying callback (.ok r.1, intact r.2)) := by
  obtain ⟨a, n⟩ := r
  cases hc : callback a with
  | none =>
      simp only [calling, notifying, hc]
      exact .finished a n
  | some c =>
      simp only [calling, notifying, hc, notify]
      apply Step.Succeeds.entering
      intro inside
      rfl

omit [Peripherals D] in
theorem succeeds_notifying {body : Body D cap A}
    {f : SharedState cap → D → A × SharedState cap × D} (h : body.Does f) (n : Node M D cap)
    {callback : A → Option Callback} {s : Step Hook (Node M D cap) A}
    (hs : s = calling callback (n.exclusively f)) :
    s.Succeeds intact (notifying callback ((intact n).exclusively body)) := by
  rw [hs, exclusively_intact h]
  exact succeeds_calling callback (n.exclusively f)

/-- The outcome of the console interrupt decides whether there is a callback. -/
theorem consoleInterrupt_eq (n : Node M D cap) :
    n.consoleInterrupt =
      calling (consoleCallback (Peripherals.console.take n.devices).1) n.bookConsole := by
  rcases hbooked : n.bookConsole with ⟨outcome, n'⟩
  unfold bookConsole at hbooked
  simp only [consoleInterrupt, hbooked]
  cases outcome <;> rfl

/-- With all cells free, every call succeeds, and they are free again when it enters its hook and
when it is over. -/
theorem succeeds_start (c : Call) (n : Node M D cap) :
    (Node.start c n).Succeeds intact (start c (intact n)) := by
  cases c with
  | consoleInterrupt =>
      rw [start]
      exact succeeds_notifying (does_acceptConsole _) { n with devices := _ }
        (consoleInterrupt_eq n)
  | busInterrupt =>
      rw [start]
      exact succeeds_notifying (Body.does_writing .bus _) { n with devices := _ } rfl
  | silenceInterrupt =>
      rw [start]
      exact succeeds_notifying (Body.does_writing .bus _) n rfl
  | armGapTimer =>
      rw [start]
      exact succeeds_notifying (Body.does_reading .bus _) n rfl
  | available =>
      rw [start]
      exact succeeds_notifying (Body.does_reading .console _) n rfl
  | read =>
      rw [start]
      exact succeeds_notifying (Body.does_writing .console _) n rfl
  | peek offset =>
      rw [start]
      exact succeeds_notifying (Body.does_reading .console _) n rfl
  | overflows =>
      rw [start]
      exact succeeds_notifying (Body.does_reading .console _) n rfl
  | flush =>
      rw [start]
      exact succeeds_notifying (Body.does_writing .console _) n rfl
  | busStats =>
      rw [start]
      exact succeeds_notifying (Body.does_reading .bus _) n rfl
  | busTiming =>
      rw [start]
      exact succeeds_notifying (Body.does_reading .bus _) n rfl
  | tickInterrupt => exact succeeds_unborrowed _ n
  | atomic => exact succeeds_unborrowed _ n
  | capacity => exact succeeds_unborrowed _ n
  | setEvent e => exact succeeds_unborrowed _ n
  | clearEvent e => exact succeeds_unborrowed _ n
  | isPending e => exact succeeds_unborrowed _ n
  | taskOverruns => exact succeeds_unborrowed _ n

theorem neverFails (M D : Type) (cap : Nat) [InterruptControl M] [Peripherals D] :
    Component.NeverFails (Node.component M D cap) (component M D cap) intact where
  halted _ := rfl
  act _ _ := rfl
  start := succeeds_start

/-! ## With a cell that is written -/

end WithBorrows

/-- The cell that a call borrows first, if it borrows one. -/
def Call.cell? : Call → Option Cell
  | .consoleInterrupt => some .reboot
  | .busInterrupt | .silenceInterrupt | .armGapTimer | .busStats | .busTiming => some .bus
  | .available | .read | .peek _ | .overflows | .flush => some .console
  | .tickInterrupt | .atomic | .capacity | .setEvent _ | .clearEvent _ | .isPending _
  | .taskOverruns => none

namespace WithBorrows

variable {M D A : Type} {cap : Nat} [InterruptControl M]

/-- The call ends in a borrow that fails, and halts the node. -/
def Fails (s : Step Hook (WithBorrows M D cap) (Except BorrowError A)) : Prop :=
  ∃ e w, s = .finished (.error e) w ∧ w.stopped = true

theorem fails_notifying (callback : A → Option Callback) {w : WithBorrows M D cap}
    {body : Body D cap A} (h : ∃ e, body ⟨w.borrows, w.node.shared, w.node.devices⟩ =
      (.error e, ⟨w.borrows, w.node.shared, w.node.devices⟩)) :
    Fails (notifying callback (w.exclusively body)) := by
  obtain ⟨e, he⟩ := h
  rw [exclusively, he]
  exact ⟨e, _, rfl, rfl⟩

/-- Were a cell still written when a call begins that borrows it, the call would fail. -/
theorem start_fails_of_writing [Peripherals D] {w : WithBorrows M D cap} {cell : Cell}
    (h : w.borrows cell = .writing) {c : Call} (hc : c.cell? = some cell) : Fails (start c w) := by
  have hborrow : ∀ {A : Type} (purpose : Purpose)
      (use : cell.Content cap → D → A × cell.Content cap × D) (devices : D),
      ∃ e, Body.borrowing purpose cell use ⟨w.borrows, w.node.shared, devices⟩ =
        (.error e, ⟨w.borrows, w.node.shared, devices⟩) := by
    intro A purpose use devices
    exact Body.exists_borrowing_of_writing purpose cell use h
  cases c with
  | consoleInterrupt =>
      cases hc
      exact fails_notifying _ (Body.exists_andThen_of_error (hborrow .write _ _))
  | busInterrupt | silenceInterrupt | read | flush =>
      cases hc
      rw [start]
      exact fails_notifying _ (hborrow .write _ _)
  | armGapTimer | busStats | busTiming | available | peek | overflows =>
      cases hc
      rw [start]
      exact fails_notifying _ (hborrow .read _ _)
  | tickInterrupt | atomic | capacity | setEvent | clearEvent | isPending | taskOverruns => cases hc

/-! ## No borrow fails -/

/-- All cells are free at this moment and no borrow has failed, and a call that returns has
succeeded. -/
def Unborrowed :
    Moment (interface.fallible BorrowError) (D → D) (WithBorrows M D cap) → Prop
  | .began _ _ w | .entered _ _ w | .left _ _ w | .acted _ w =>
      w.borrows = .clear ∧ w.stopped = false
  | .returned _ _ a w => (∃ b, a = .ok b) ∧ w.borrows = .clear ∧ w.stopped = false

/-- No tree of calls, made from hooks or from bodies of sections to whatever depth, makes a borrow
fail. Whenever a call begins or a hook is entered, all cells are free, and the run goes through the
moments of the plain node. -/
theorem no_borrow_fails [Peripherals D] (n : Node M D cap) (t : Calls M D cap) :
    (∀ m ∈ t.moments (component M D cap) (intact n), Unborrowed m) ∧
    t.moments (component M D cap) (intact n) =
      ((t.unfailing intact).moments (Node.component M D cap) n).map
        (Moment.succeeding BorrowError intact) := by
  have hmoments := (neverFails M D cap).moments_eq t n
  refine ⟨fun m hm => ?_, hmoments⟩
  rw [hmoments, List.mem_map] at hm
  obtain ⟨plain, -, rfl⟩ := hm
  cases plain with
  | returned k c a v => exact ⟨⟨a, rfl⟩, rfl, rfl⟩
  | began k c v => exact ⟨rfl, rfl⟩
  | entered k h v => exact ⟨rfl, rfl⟩
  | left k h v => exact ⟨rfl, rfl⟩
  | acted e v => exact ⟨rfl, rfl⟩

open Bench in
/-- A callback that reads the byte it was called for, and forgets the rest in a section of its own,
from within a section. -/
theorem no_borrow_fails_nested_sections :
    let flush : Calls Control Devices 2 :=
      .call .atomic (fun _ => .call .flush (fun _ => .done) fun _ => .done) fun _ => .done
    let callback : Calls Control Devices 2 :=
      .call .read (fun _ => .done) fun _ => .call .atomic (fun _ => flush) fun _ => .done
    let t : Calls Control Devices 2 := .call .consoleInterrupt (fun _ => callback) fun _ => .done
    let ms := t.moments (component Control Devices 2)
      (intact (Node.new { enabled := true } Settings.busTiming {} 2 (by decide)))
    ms.length = 16 ∧ ∀ m ∈ ms, Unborrowed m :=
  ⟨rfl, (no_borrow_fails _ _).1⟩

end WithBorrows

end Node

end SerialGateway
