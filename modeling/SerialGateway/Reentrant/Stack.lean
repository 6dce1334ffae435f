import SerialGateway.Reentrant.CallTree

/-!
# Calls on a stack

What this module delivers: surroundings that are given once and for all, by what each hook does
(`Routine`), and a machine that runs them. A hook may call the component again, and that call may
enter the same hook: nothing bounds how deep this goes, and the machine need not come to an end. It
keeps a stack of the calls whose hooks have not returned.

`Routine.unfold` is the tree of calls of a routine as far as a given depth of hooks.
-/

set_option autoImplicit false

namespace SerialGateway

/-- What is done in one place, as a finite program: calls, each with the body that it brings along
in case its hook is run by the caller, and doings of the surroundings. -/
inductive Routine (I : Interface) (E W : Type) where
  /-- Nothing more. -/
  | done
  /-- Make a call, and go on with its answer. -/
  | call (c : I.Call) (body : Routine I E W) (next : I.Answer c → Routine I E W)
  /-- Do something else, and go on with a look at the world. -/
  | act (e : E) (next : W → Routine I E W)

/-- What the surroundings do in a hook, where the call has brought the given body along. -/
abbrev Hooks (I : Interface) (E W : Type) : Type := I.Hook → Routine I E W → Routine I E W

namespace Routine

variable {I : Interface} {E W : Type}

/-- The tree of calls of a routine, when `inHook` is the tree of what is done in a hook. -/
def tree (hooks : Hooks I E W) (inHook : Routine I E W → CallTree I E W) :
    Routine I E W → CallTree I E W
  | .done => .done
  | .call c body next =>
      .call c (fun h => inHook (hooks h body)) fun a => (next a).tree hooks inHook
  | .act e next => .act e fun w => (next w).tree hooks inHook

/-- The tree of calls of a routine, with hooks inside hooks as far as the given depth. Deeper hooks
do nothing. -/
def unfold (hooks : Hooks I E W) : Nat → Routine I E W → CallTree I E W
  | 0 => fun _ => .done
  | depth + 1 => tree hooks (unfold hooks depth)

end Routine

/-- A call whose hook has not returned, and what its caller does after it. -/
structure Frame (I : Interface) (E W : Type) where
  /-- The call. -/
  call : I.Call
  /-- The hook that it has entered. -/
  hook : I.Hook
  /-- What completes the call. -/
  resume : W → I.Answer call × W
  /-- What the caller does with the answer. -/
  next : I.Answer call → Routine I E W

/-- What a machine does next. -/
inductive Activity (I : Interface) (E W : Type) where
  /-- Run a routine. -/
  | running (r : Routine I E W)
  /-- Carry out a call that has begun. -/
  | calling (c : I.Call) (body : Routine I E W) (next : I.Answer c → Routine I E W)

/-- A component among its surroundings, with the calls that wait for their hooks. -/
structure Machine (I : Interface) (E W : Type) where
  /-- The world of the component. -/
  world : W
  /-- What is done next. -/
  activity : Activity I E W
  /-- The calls whose hooks have not returned, latest first. -/
  stack : List (Frame I E W)

namespace Machine

variable {I : Interface} {E W : Type}

/-- The machine has nothing more to do. -/
def Ended (m : Machine I E W) : Prop := m.activity = .running .done ∧ m.stack = []

/-- One step. A call first begins; then it answers or enters its hook; at the end of a hook the call
that has entered it is completed. A component that has halted stays as it is. -/
def step (C : Component I W E) (hooks : Hooks I E W) (m : Machine I E W) : Machine I E W :=
  if C.halted m.world then m
  else
    match m.activity, m.stack with
    | .running .done, [] => m
    | .running .done, frame :: stack =>
        let r := frame.resume m.world
        ⟨r.2, .running (frame.next r.1), stack⟩
    | .running (.call c body next), stack => ⟨m.world, .calling c body next, stack⟩
    | .running (.act e next), stack =>
        let w := C.act e m.world
        ⟨w, .running (next w), stack⟩
    | .calling c body next, stack =>
        match C.start c m.world with
        | .finished a w => ⟨w, .running (next a), stack⟩
        | .entering h w resume =>
            ⟨w, .running (hooks h body), { call := c, hook := h, resume, next } :: stack⟩

/-- The machine after a number of steps. -/
def after (C : Component I W E) (hooks : Hooks I E W) : Nat → Machine I E W → Machine I E W
  | 0, m => m
  | n + 1, m => after C hooks n (m.step C hooks)

end Machine

end SerialGateway
