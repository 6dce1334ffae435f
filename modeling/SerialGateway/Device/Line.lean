import SerialGateway.Part

/-!
# Serial lines

What this module delivers: the damage a receiver can report with a byte
(`LineErrors`), and what the node needs of the two ends of a serial line: a
`Receiver` that hands over bytes and a `Transmitter` that takes them. Both are
given over a type of devices, so that several lines can end in one piece of
hardware.

Draining a receiver is a loop, which need not come to an end by itself: one that
hands over bytes for ever is never empty. Every receiver names a number of rounds
after which the loop is cut off, and one that runs dry (`Receiver.RunsDry`) has
handed over everything by then (`RunsDry.pending_drain`).
-/

set_option autoImplicit false

namespace SerialGateway

/-- The errors latched together with a received byte. -/
structure LineErrors where
  /-- The stop bit was not found where expected. -/
  framing : Bool := false
  /-- The parity bit does not match the data. -/
  parity : Bool := false
  /-- A byte was lost in the receiver before this one was read. -/
  overrun : Bool := false
  deriving DecidableEq, Repr

namespace LineErrors

/-- An undamaged byte. -/
def clean : LineErrors := {}

/-- At least one error is latched. -/
def any (e : LineErrors) : Bool := e.framing || e.parity || e.overrun

end LineErrors

/-- The receiving end of a line, within the devices `D`. -/
structure Receiver (D : Type) where
  /-- A received byte is waiting. -/
  pending : D → Bool
  /-- The errors latched with the waiting byte. -/
  errors : D → LineErrors
  /-- Take the waiting byte. -/
  take : D → UInt8 × D
  /-- After how many bytes a loop that takes what is pending is cut off. -/
  backlog : D → Nat

namespace Receiver

variable {D : Type}

/-- Take waiting bytes, at most `n` of them, and drop them. -/
def drop (rx : Receiver D) : Nat → D → D
  | 0, d => d
  | n + 1, d => if rx.pending d then rx.drop n (rx.take d).2 else d

/-- Drop whatever the receiver holds. -/
def drain (rx : Receiver D) (d : D) : D := rx.drop (rx.backlog d) d

/-- With every byte that is taken, fewer can follow: a loop that takes what is
pending ends by itself before it is cut off. -/
def RunsDry (rx : Receiver D) : Prop :=
  ∀ d, rx.pending d = true → rx.backlog (rx.take d).2 < rx.backlog d

/-- A receiver of one part of the devices. -/
def within {W : Type} (part : Part W D) (rx : Receiver D) : Receiver W where
  pending w := rx.pending (part.get w)
  errors w := rx.errors (part.get w)
  take w :=
    let r := rx.take (part.get w)
    (r.1, part.put r.2 w)
  backlog w := rx.backlog (part.get w)

namespace RunsDry

variable {rx : Receiver D}

theorem pending_drop (h : rx.RunsDry) {n : Nat} {d : D} (hn : rx.backlog d ≤ n) :
    rx.pending (rx.drop n d) = false := by
  induction n generalizing d with
  | zero =>
      -- nothing can be pending where no byte can follow
      cases hd : rx.pending d with
      | false => exact hd
      | true => exact absurd (h d hd) (by omega)
  | succ n ih =>
      rw [drop]
      split
      · next hd =>
        have hless := h d hd
        exact ih (by omega)
      · next hd => exact Bool.eq_false_iff.2 hd

/-- A receiver that runs dry has nothing left when it has been drained. -/
theorem pending_drain (h : rx.RunsDry) (d : D) : rx.pending (rx.drain d) = false :=
  h.pending_drop (Nat.le_refl _)

/-- A receiver that runs dry does so as a part of larger devices. -/
theorem within {W : Type} (h : rx.RunsDry) (part : Part W D) : (rx.within part).RunsDry := by
  intro w hw
  show rx.backlog (part.get (part.put _ w)) < rx.backlog (part.get w)
  rw [part.get_put]
  exact h (part.get w) hw

end RunsDry

end Receiver

/-- Something that transmits bytes and can be asked whether it takes the next
one. Asking is an event of its own; a transmitter that is asked often enough
becomes ready, and `patience` bounds how often. -/
class Transmitter (T : Type) where
  /-- The answer to a poll: the next byte can be taken. -/
  ready : T → Bool
  /-- The transmitter after it has been polled. -/
  poll : T → T
  /-- Hand over a byte. -/
  send : UInt8 → T → T
  /-- A bound on the number of polls that answer "not ready". -/
  patience : T → Nat
  patience_poll : ∀ t, ready t = false → patience (poll t) < patience t

end SerialGateway
