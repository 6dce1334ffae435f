import SerialGateway.Ring.Basic

/-!
# Flushes

A flush discards what the receiver holds in a loop that goes on as long as a byte is pending. Here
the loop has no bound on its rounds (`Ring.Discards`), and with a receiver that hands over bytes for
ever it has no outcome. Where nothing is pending after the rounds that the receiver allows, the loop
has come to its end by itself, and the flush has emptied the ring that it has left
(`Ring.flush_of_dry`). A receiver that runs dry is always so far.
-/

set_option autoImplicit false

namespace SerialGateway.Ring

variable {D : Type} {cap : Nat} {rx : Receiver D}

/-- The loop of a flush, from a ring and devices to those with which it ends. As long as a byte is
pending, it is taken into the first slot of the storage. -/
inductive Discards (rx : Receiver D) : Ring cap → D → Ring cap → D → Prop
  | ended {r : Ring cap} {d : D} (idle : rx.pending d = false) : Discards rx r d r d
  | round {r r' : Ring cap} {d d' : D} (waiting : rx.pending d = true)
      (rest : Discards rx { r with storage := r.storage.set 0 (rx.take d).1 r.cap_pos }
        (rx.take d).2 r' d') : Discards rx r d r' d'

theorem Discards.pending_eq_false {r r' : Ring cap} {d d' : D} (h : r.Discards rx d r' d') :
    rx.pending d' = false := by
  induction h with
  | ended idle => exact idle
  | round _ _ ih => exact ih

/-- If nothing is pending after a number of rounds, the loop has ended within them. -/
theorem discards_discard {n : Nat} (r : Ring cap) {d : D}
    (h : rx.pending (rx.drop n d) = false) :
    r.Discards rx d (discard rx n r d).1 (discard rx n r d).2 := by
  induction n generalizing r d with
  | zero => exact .ended h
  | succ n ih =>
      rw [Receiver.drop] at h
      rw [discard]
      by_cases hd : rx.pending d = true
      · rw [if_pos hd] at h ⊢
        exact .round hd (ih _ h)
      · rw [if_neg hd]
        exact .ended (Bool.eq_false_iff.2 hd)

/-- A flush after which nothing is pending is its loop, run to the end, with the ring emptied after
it. -/
theorem flush_of_dry (r : Ring cap) {d : D} (h : rx.pending (rx.drain d) = false) :
    ∃ r' d', r.Discards rx d r' d' ∧ rx.pending d' = false ∧ r.flush rx d = (r'.clear, d') := by
  have hloop := r.discards_discard h
  exact ⟨_, _, hloop, hloop.pending_eq_false, rfl⟩

end SerialGateway.Ring
