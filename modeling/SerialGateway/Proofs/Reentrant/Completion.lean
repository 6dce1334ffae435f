import SerialGateway.Reentrant.Stack

/-!
# Routines that end

A routine completes if all its calls return and all hooks that they enter complete. The machine then
runs it to its end on top of any stack (`Completes.after`), and its tree of calls, unfolded far
enough, leads to the same world (`Completes.run_unfold`).

Whether routines complete is a matter of the hooks. If every call of some kind keeps a property of
the world, and its hook completes wherever the property holds, then so does every routine of calls
of that kind (`exists_completes`).
-/

set_option autoImplicit false

namespace SerialGateway

variable {I : Interface} {E W : Type} {C : Component I W E} {hooks : Hooks I E W}

namespace Routine

/-- The routine makes only the given calls, also in the bodies that it brings along. -/
def Only (calls : I.Call → Prop) : Routine I E W → Prop
  | .done => True
  | .call c body next => calls c ∧ body.Only calls ∧ ∀ a, (next a).Only calls
  | .act _ next => ∀ w, (next w).Only calls

theorem only_true (r : Routine I E W) : r.Only fun _ => True := by
  induction r with
  | done => trivial
  | call c body next ihBody ihNext => exact ⟨trivial, ihBody, ihNext⟩
  | act e next ih => exact ih

/-- From the first world, the routine comes to its end in the second one. -/
inductive Completes (C : Component I W E) (hooks : Hooks I E W) : Routine I E W → W → W → Prop
  | done (w : W) : Completes C hooks .done w w
  | finished {c : I.Call} {body : Routine I E W} {next : I.Answer c → Routine I E W}
      {a : I.Answer c} {w w' v : W} :
      C.start c w = .finished a w' → Completes C hooks (next a) w' v →
      Completes C hooks (.call c body next) w v
  | entering {c : I.Call} {body : Routine I E W} {next : I.Answer c → Routine I E W} {h : I.Hook}
      {resume : W → I.Answer c × W} {w w' inside v : W} :
      C.start c w = .entering h w' resume → Completes C hooks (hooks h body) w' inside →
      Completes C hooks (next (resume inside).1) (resume inside).2 v →
      Completes C hooks (.call c body next) w v
  | act {e : E} {next : W → Routine I E W} {w v : W} :
      Completes C hooks (next (C.act e w)) (C.act e w) v → Completes C hooks (.act e next) w v

end Routine

open Routine

/-! ## The machine -/

namespace Machine

theorem after_add (k n : Nat) (m : Machine I E W) :
    m.after C hooks (k + n) = (m.after C hooks k).after C hooks n := by
  induction k generalizing m with
  | zero => rw [Nat.zero_add]; rfl
  | succ k ih => rw [Nat.succ_add]; exact ih (m.step C hooks)

/-- What a step keeps, every number of steps keeps. -/
theorem after_induction {P : Machine I E W → Prop} (hstep : ∀ m, P m → P (m.step C hooks))
    {m : Machine I E W} (hm : P m) (n : Nat) : P (m.after C hooks n) := by
  induction n generalizing m with
  | zero => exact hm
  | succ n ih => exact ih (hstep m hm)

/-- One step and a number of further ones. -/
theorem exists_after_of_step {m m' : Machine I E W}
    (h : ∃ n, (m.step C hooks).after C hooks n = m') : ∃ n, m.after C hooks n = m' := by
  obtain ⟨n, hn⟩ := h
  exact ⟨n + 1, hn⟩

end Machine

section NeverHalts

variable (hC : ∀ w, C.halted w = false)

include hC

/-- On top of any stack, the machine runs a routine that completes to its end. -/
theorem Routine.Completes.after {r : Routine I E W} {w v : W} (h : r.Completes C hooks w v)
    (stack : List (Frame I E W)) :
    ∃ n, Machine.after C hooks n ⟨w, .running r, stack⟩ = ⟨v, .running .done, stack⟩ := by
  induction h generalizing stack with
  | done w => exact ⟨0, rfl⟩
  | @finished c body next a w w' v hs _ ih =>
      -- the call begins, and then answers
      apply Machine.exists_after_of_step
      apply Machine.exists_after_of_step
      simpa [Machine.step, hC, hs] using ih stack
  | @entering c body next h resume w w' inside v hs _ _ ihHook ihNext =>
      -- the call begins, enters its hook, and is completed after it
      apply Machine.exists_after_of_step
      apply Machine.exists_after_of_step
      obtain ⟨n, hn⟩ := ihHook ({ call := c, hook := h, resume, next } :: stack)
      obtain ⟨k, hk⟩ := ihNext stack
      refine ⟨n + (k + 1), ?_⟩
      simp only [Machine.step, hC, hs, Bool.false_eq_true, if_false]
      rw [Machine.after_add, hn]
      simpa [Machine.after, Machine.step, hC] using hk
  | @act e next w v _ ih =>
      apply Machine.exists_after_of_step
      simpa [Machine.step, hC] using ih stack

/-- A routine that completes leaves what its tree of calls leaves, as soon as the tree is unfolded
far enough. -/
theorem Routine.Completes.run_unfold {r : Routine I E W} {w v : W} (h : r.Completes C hooks w v) :
    ∃ least, ∀ depth, least ≤ depth → (r.unfold hooks depth).run C w = v := by
  induction h with
  | done w =>
      refine ⟨0, fun depth _ => ?_⟩
      cases depth with
      | zero => rfl
      | succ depth => rfl
  | @finished c body next a w w' v hs _ ih =>
      obtain ⟨least, hleast⟩ := ih
      refine ⟨least + 1, fun depth hdepth => ?_⟩
      obtain ⟨depth, rfl⟩ : ∃ n, depth = n + 1 := ⟨depth - 1, by omega⟩
      have hrest := hleast (depth + 1) (by omega)
      simpa [unfold, tree, CallTree.run, hC, hs] using hrest
  | @entering c body next h resume w w' inside v hs _ _ ihHook ihNext =>
      obtain ⟨leastHook, hhook⟩ := ihHook
      obtain ⟨leastNext, hnext⟩ := ihNext
      refine ⟨leastHook + leastNext + 1, fun depth hdepth => ?_⟩
      obtain ⟨depth, rfl⟩ : ∃ n, depth = n + 1 := ⟨depth - 1, by omega⟩
      have hinside := hhook depth (by omega)
      have hrest := hnext (depth + 1) (by omega)
      simpa [unfold, tree, CallTree.run, hC, hs, hinside] using hrest
  | @act e next w v _ ih =>
      obtain ⟨least, hleast⟩ := ih
      refine ⟨least + 1, fun depth hdepth => ?_⟩
      obtain ⟨depth, rfl⟩ : ∃ n, depth = n + 1 := ⟨depth - 1, by omega⟩
      have hrest := hleast (depth + 1) (by omega)
      simpa [unfold, tree, CallTree.run, hC] using hrest

end NeverHalts

/-! ## Routines of one kind -/

/-- Calls that can be made again and again wherever `P` holds: they keep `P`, and whatever hook they
enter completes, if it runs the body of the call, provided that the body does. -/
structure Completing (C : Component I W E) (hooks : Hooks I E W) (calls : I.Call → Prop)
    (P : W → Prop) : Prop where
  finished : ∀ {c w a w'}, calls c → P w → C.start c w = .finished a w' → P w'
  entering : ∀ {c w h w' resume body}, calls c → P w → C.start c w = .entering h w' resume →
    (∀ u, P u → ∃ v, body.Completes C hooks u v ∧ P v) →
    ∃ inside, (hooks h body).Completes C hooks w' inside ∧ P (resume inside).2
  act : ∀ e w, P w → P (C.act e w)

/-- A routine of such calls completes wherever `P` holds. -/
theorem Completing.exists_completes {calls : I.Call → Prop} {P : W → Prop}
    (hcalls : Completing C hooks calls P) {r : Routine I E W} (hr : r.Only calls) {w : W}
    (hw : P w) : ∃ v, r.Completes C hooks w v ∧ P v := by
  induction r generalizing w with
  | done => exact ⟨w, .done w, hw⟩
  | call c body next ihBody ihNext =>
      obtain ⟨hc, hbody, hnext⟩ := hr
      cases hs : C.start c w with
      | finished a w' =>
          obtain ⟨v, hcompletes, hv⟩ := ihNext a (hnext a) (hcalls.finished hc hw hs)
          exact ⟨v, .finished hs hcompletes, hv⟩
      | entering h w' resume =>
          obtain ⟨inside, hhook, hinside⟩ :=
            hcalls.entering hc hw hs fun u hu => ihBody hbody hu
          obtain ⟨v, hcompletes, hv⟩ := ihNext _ (hnext _) hinside
          exact ⟨v, .entering hs hhook hcompletes, hv⟩
  | act e next ih =>
      obtain ⟨v, hcompletes, hv⟩ := ih _ (hr _) (hcalls.act e w hw)
      exact ⟨v, .act hcompletes, hv⟩

/-! ## Steps -/

/-- What a step of a machine can be. -/
inductive Machine.Stepped (C : Component I W E) (hooks : Hooks I E W) :
    Machine I E W → Machine I E W → Prop
  | ended (w : W) : Stepped C hooks ⟨w, .running .done, []⟩ ⟨w, .running .done, []⟩
  | left (w : W) (frame : Frame I E W) (stack : List (Frame I E W)) :
      Stepped C hooks ⟨w, .running .done, frame :: stack⟩
        ⟨(frame.resume w).2, .running (frame.next (frame.resume w).1), stack⟩
  | began (w : W) (c : I.Call) (body : Routine I E W) (next : I.Answer c → Routine I E W)
      (stack : List (Frame I E W)) :
      Stepped C hooks ⟨w, .running (.call c body next), stack⟩ ⟨w, .calling c body next, stack⟩
  | acted (w : W) (e : E) (next : W → Routine I E W) (stack : List (Frame I E W)) :
      Stepped C hooks ⟨w, .running (.act e next), stack⟩
        ⟨C.act e w, .running (next (C.act e w)), stack⟩
  | finished {w w' : W} {c : I.Call} {a : I.Answer c} (body : Routine I E W)
      (next : I.Answer c → Routine I E W) (stack : List (Frame I E W)) :
      C.start c w = .finished a w' →
      Stepped C hooks ⟨w, .calling c body next, stack⟩ ⟨w', .running (next a), stack⟩
  | entered {w w' : W} {c : I.Call} {h : I.Hook} {resume : W → I.Answer c × W}
      (body : Routine I E W) (next : I.Answer c → Routine I E W) (stack : List (Frame I E W)) :
      C.start c w = .entering h w' resume →
      Stepped C hooks ⟨w, .calling c body next, stack⟩
        ⟨w', .running (hooks h body), { call := c, hook := h, resume, next } :: stack⟩

theorem Machine.stepped (hC : ∀ w, C.halted w = false) (m : Machine I E W) :
    Stepped C hooks m (m.step C hooks) := by
  obtain ⟨w, activity, stack⟩ := m
  simp only [Machine.step, hC, Bool.false_eq_true, if_false]
  cases activity with
  | running r =>
      cases r with
      | done =>
          cases stack with
          | nil => exact .ended w
          | cons frame stack => exact .left w frame stack
      | call c body next => exact .began w c body next stack
      | act e next => exact .acted w e next stack
  | calling c body next =>
      cases hs : C.start c w with
      | finished a w' =>
          simp only [hs]
          exact .finished body next stack hs
      | entering h w' resume =>
          simp only [hs]
          exact .entered body next stack hs

end SerialGateway
