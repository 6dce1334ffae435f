import SerialGateway.Reentrant.Component

/-!
# Trees of calls

What this module delivers: what the surroundings of a component do, as data. A
`CallTree` is a finite tree: after each call it goes on according to the
answer, and with every call comes what the surroundings do inside the hooks of
that call, again a tree. Calls therefore nest to any depth, and every run ends.

`run` executes a tree. `moments` lists what happens on the way, in order, with
the calls numbered as they begin. The list leads to the world that `run` leaves
(`foldl_momentsFrom`).

A component that has halted stays as it is: what the tree would do later does
not happen. The last moment is then that of the call that has halted it. The call
is over, but its caller never goes on.
-/

set_option autoImplicit false

namespace SerialGateway

/-- A finite tree of calls and of the surroundings' own doings. -/
inductive CallTree (I : Interface) (E W : Type) where
  /-- Nothing more. -/
  | done
  /-- Make a call, do `hook h` if it enters the hook `h`, and go on with its answer. -/
  | call (c : I.Call) (hook : I.Hook → CallTree I E W) (next : I.Answer c → CallTree I E W)
  /-- Do something else, and go on with a look at the world. -/
  | act (e : E) (next : W → CallTree I E W)

/-- Something that happens during a run, with the world in which it happens. A
call is told by its number. -/
inductive Moment (I : Interface) (E W : Type) where
  /-- Call `k` begins. -/
  | began (k : Nat) (c : I.Call) (w : W)
  /-- Call `k` enters a hook. -/
  | entered (k : Nat) (h : I.Hook) (w : W)
  /-- The hook that call `k` entered has returned. -/
  | left (k : Nat) (h : I.Hook) (w : W)
  /-- Call `k` is over, with an answer. Its caller goes on with it, unless the component has
  halted. -/
  | returned (k : Nat) (c : I.Call) (a : I.Answer c) (w : W)
  /-- The surroundings have done something of their own. -/
  | acted (e : E) (w : W)

namespace Moment

variable {I : Interface} {E W : Type}

/-- The world of a moment. -/
def world : Moment I E W → W
  | began _ _ w | entered _ _ w | left _ _ w | returned _ _ _ w | acted _ w => w

/-- The number of the call that begins, if one does. -/
def beginning? : Moment I E W → Option Nat
  | began k _ _ => some k
  | entered _ _ _ | left _ _ _ | returned _ _ _ _ | acted _ _ => none

/-- How many calls begin in a list of moments. -/
def beginnings (ms : List (Moment I E W)) : Nat := (ms.filterMap beginning?).length

end Moment

namespace CallTree

variable {I : Interface} {E W : Type}

/-- The world after the tree has been executed. -/
def run (C : Component I W E) : CallTree I E W → W → W
  | .done, w => w
  | .call c hook next, w =>
      if C.halted w then w
      else
        match C.start c w with
        | .finished a w' => run C (next a) w'
        | .entering h w' resume =>
            let inside := run C (hook h) w'
            if C.halted inside then inside
            else
              let r := resume inside
              run C (next r.1) r.2
  | .act e next, w =>
      if C.halted w then w
      else
        let w' := C.act e w
        run C (next w') w'

/-- What happens while the tree is executed, in order, with its calls numbered
from `k` on. -/
def momentsFrom (C : Component I W E) : CallTree I E W → Nat → W → List (Moment I E W)
  | .done, _, _ => []
  | .call c hook next, k, w =>
      if C.halted w then []
      else
        .began k c w ::
        match C.start c w with
        | .finished a w' => .returned k c a w' :: momentsFrom C (next a) (k + 1) w'
        | .entering h w' resume =>
            let nested := momentsFrom C (hook h) (k + 1) w'
            let inside := run C (hook h) w'
            .entered k h w' :: nested ++
              if C.halted inside then []
              else
                let r := resume inside
                .left k h inside :: .returned k c r.1 r.2 ::
                  momentsFrom C (next r.1) (k + 1 + Moment.beginnings nested) r.2
  | .act e next, k, w =>
      if C.halted w then []
      else
        let w' := C.act e w
        .acted e w' :: momentsFrom C (next w') k w'

/-- What happens while the tree is executed, in order, with its calls numbered
from one. -/
def moments (C : Component I W E) (t : CallTree I E W) (w : W) : List (Moment I E W) :=
  momentsFrom C t 1 w

/-- Do `first`, and then `second`. -/
def followedBy : CallTree I E W → CallTree I E W → CallTree I E W
  | .done, second => second
  | .call c hook next, second => .call c hook fun a => (next a).followedBy second
  | .act e next, second => .act e fun w => (next w).followedBy second

theorem run_of_halted (C : Component I W E) (t : CallTree I E W) {w : W}
    (h : C.halted w = true) : run C t w = w := by
  cases t <;> simp [run, h]

/-- Following the worlds of the moments of a run leads to the world that the run
leaves. -/
theorem foldl_momentsFrom (C : Component I W E) (t : CallTree I E W) (k : Nat) (w : W) :
    (momentsFrom C t k w).foldl (fun _ m => m.world) w = run C t w := by
  induction t generalizing k w with
  | done => rfl
  | call c hook next ihHook ihNext =>
      by_cases hw : C.halted w = true
      · simp [run, momentsFrom, hw]
      · simp only [run, momentsFrom, hw, Bool.false_eq_true, if_false, List.foldl_cons]
        cases C.start c w with
        | finished a w' => exact ihNext a (k + 1) w'
        | entering h w' resume =>
            simp only [List.foldl_append, List.foldl_cons]
            by_cases hin : C.halted (run C (hook h) w') = true
            · simp only [hin, if_true, List.foldl_nil]
              exact ihHook h (k + 1) w'
            · simp only [hin, Bool.false_eq_true, if_false, List.foldl_cons]
              exact ihNext _ _ _
  | act e next ih =>
      by_cases hw : C.halted w = true
      · simp [run, momentsFrom, hw]
      · simp only [run, momentsFrom, hw, Bool.false_eq_true, if_false, List.foldl_cons]
        exact ih _ _ _

end CallTree

end SerialGateway
