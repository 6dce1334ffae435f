import SerialGateway.Reentrant.CallTree

/-!
# Scripts of calls

What this module delivers: trees of calls in direct style. A `Script` is a
program that makes calls on a component and ends with a result. It leaves open
what the surroundings do in the hooks of its calls, so that the same script can
be run from the outside and from inside a hook. Scripts form a monad, and
`Script.tree` turns one into the tree it stands for.
-/

set_option autoImplicit false

namespace SerialGateway

/-- A program over a component that ends with an `A`: a tree of calls, once it
is known what happens in the hooks of its calls, and what happens with its
result. -/
def Script (I : Interface) (E W A : Type) : Type :=
  (I.Hook → CallTree I E W) → (A → CallTree I E W) → CallTree I E W

namespace Script

variable {I : Interface} {E W A : Type}

instance : Monad (Script I E W) where
  pure a := fun _ next => next a
  bind s f := fun hooks next => s hooks fun a => f a hooks next

instance : LawfulMonad (Script I E W) :=
  LawfulMonad.mk' (Script I E W) (fun _ => rfl) (fun _ _ => rfl) (fun _ _ _ => rfl)

/-- Make a call. -/
def call (c : I.Call) : Script I E W (I.Answer c) := fun hooks next => .call c hooks next

/-- Make a call, and run `body` in its hook. -/
def enclose (c : I.Call) (body : Script I E W Unit) : Script I E W (I.Answer c) :=
  fun hooks next => .call c (fun _ => body hooks fun _ => .done) next

/-- Do something of the surroundings' own, and look at the world. -/
def act (e : E) : Script I E W W := fun _ next => .act e next

/-- The tree that a script stands for, under the given doings in its hooks. -/
def tree (hooks : I.Hook → CallTree I E W) (s : Script I E W Unit) : CallTree I E W :=
  s hooks fun _ => .done

end Script

end SerialGateway
