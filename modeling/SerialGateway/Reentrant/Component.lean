import SerialGateway.Part

/-!
# Components whose calls may be re-entered

What this module delivers: a component answers calls, and a call may enter one
hook of its surroundings before it answers. While the hook runs, the component
may be called again. A `Step` is a call up to its hook: the bookkeeping that is
complete when the hook is entered, and what is left to do once it has returned.
Nothing of the caller's own view of the world survives the hook except what
`resume` closes over.

`Step.within` runs a step on a part of a larger world, and `Step.route` renames
the hook or takes it away.
-/

set_option autoImplicit false

namespace SerialGateway

/-- What can be asked of a component: its calls, the answer to each, and the
hooks a call may enter. -/
structure Interface where
  /-- The calls. -/
  Call : Type
  /-- The answers to a call. -/
  Answer : Call → Type
  /-- The hooks. -/
  Hook : Type

/-- The same calls and hooks, with calls that may answer with a fault. -/
abbrev Interface.fallible (F : Type) (I : Interface) : Interface where
  Call := I.Call
  Answer c := Except F (I.Answer c)
  Hook := I.Hook

/-- A call on the world `W`, answered by an `A`, as far as the first hook. -/
inductive Step (Hook W A : Type) where
  /-- The call has answered without entering a hook. -/
  | finished (answer : A) (world : W)
  /-- The call enters `hook` in `world`; `resume` completes it. -/
  | entering (hook : Hook) (world : W) (resume : W → A × W)

namespace Step

variable {Hook Hook' W V A B : Type}

/-- A step that answers at once. -/
def answer (r : A × W) : Step Hook W A := .finished r.1 r.2

/-- The same step on a part of a larger world. -/
def within (part : Part W V) (w : W) : Step Hook V A → Step Hook W A
  | .finished a v => .finished a (part.put v w)
  | .entering h v resume =>
      .entering h (part.put v w) fun w' =>
        let r := resume (part.get w')
        (r.1, part.put r.2 w')

/-- The same step with its hook renamed; a hook without a name is not entered,
and the call goes on as if it had done nothing. -/
def route (f : Hook → Option Hook') : Step Hook W A → Step Hook' W A
  | .finished a w => .finished a w
  | .entering h w resume =>
      match f h with
      | some h' => .entering h' w resume
      | none => answer (resume w)

/-- The same step, with `f` applied to its answer and to the world it leaves. -/
def andThen (f : A → W → B × W) : Step Hook W A → Step Hook W B
  | .finished a w => answer (f a w)
  | .entering h w resume => .entering h w fun w' =>
      let r := resume w'
      f r.1 r.2

/-- The world in which a call has done all that it does before its hook. -/
def reached : Step Hook W A → W
  | .finished _ w | .entering _ w _ => w

/-- The whole call, when every hook acts on the world as `hook` says. -/
def complete (hook : Hook → W → W) : Step Hook W A → A × W
  | .finished a w => (a, w)
  | .entering h w resume => resume (hook h w)

end Step

/-- A component on the world `W`, in surroundings whose own doings are `E`. -/
structure Component (I : Interface) (W E : Type) where
  /-- Make a call. -/
  start : (c : I.Call) → W → Step I.Hook W (I.Answer c)
  /-- What a doing of the surroundings does to the world. -/
  act : E → W → W
  /-- The component has stopped for good: no call that has begun gets back to its caller. -/
  halted : W → Bool := fun _ => false

namespace Component

variable {I : Interface} {W E : Type}

/-- The component beside a memory `M` that none of its calls touch; the
surroundings may do anything to the pair. -/
def beside (M : Type) (C : Component I W E) : Component I (W × M) (W × M → W × M) where
  start c w := (C.start c w.1).within (Part.first W M) w
  act f := f
  halted w := C.halted w.1

end Component

end SerialGateway
