/-!
# Parts of a world

What this module delivers: a part of a larger world that can be read and
replaced by itself (`Part`), the parts of a pair, and the laws that make it a
part: what was put is read back, and nothing else changes with it.
-/

set_option autoImplicit false

namespace SerialGateway

/-- A part `V` of a world `W`: it can be read and replaced, and nothing else
changes with it. -/
structure Part (W V : Type) where
  /-- Read the part. -/
  get : W → V
  /-- Replace the part. -/
  put : V → W → W
  get_put : ∀ v w, get (put v w) = v := by intros; rfl
  put_get : ∀ w, put (get w) w = w := by intros; rfl
  put_put : ∀ v v' w, put v (put v' w) = put v w := by intros; rfl

namespace Part

/-- The first component of a pair. -/
def first (W V : Type) : Part (W × V) W where
  get w := w.1
  put v w := (v, w.2)

/-- Change the part. -/
def modify {W V : Type} (part : Part W V) (f : V → V) (w : W) : W := part.put (f (part.get w)) w

end Part

end SerialGateway
