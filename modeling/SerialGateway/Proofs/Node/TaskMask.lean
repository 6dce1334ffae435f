import SerialGateway.Proofs.Board.InterruptMask
import SerialGateway.Proofs.Node.ConsoleBooks
import SerialGateway.Proofs.Reentrant.Hooks

/-!
# The interrupt mask after a task

A tick enables interrupts for its task. Afterwards it masks them if it has found them masked, and in
the other case it trusts the task to have left them enabled. What a tick leaves is therefore enabled
exactly if it was enabled before and the task has left it enabled (`mask_after_tick`). A task that
masks interrupts for good takes them away from whoever the tick has interrupted
(`tick_leaves_task_mask`).
-/

set_option autoImplicit false

namespace SerialGateway

open History

variable {I : Interface} {E W : Type}

/-- The mask over a call that may run a task: the call returns; interrupts are enabled then exactly
if they were enabled when it began and its hook, if it entered one, has left them enabled; so they
are put back as they were found unless they were found enabled and the hook has left them masked. -/
structure TaskMaskLaw (enabled : W → Bool) (history : History I E W) (k : Nat) (c : I.Call) (w : W) :
    Prop where
  returns : ∃ a v, .returned k c a v ∈ history
  mask : ∀ a v, .returned k c a v ∈ history →
    enabled v = (enabled w && (history.leftBy k).all enabled)
  putBack : ∀ a v, .returned k c a v ∈ history →
    (enabled v = enabled w ↔ ¬ (enabled w = true ∧ ∃ u ∈ history.leftBy k, enabled u = false))

/-- The mask law of a call whose step clears the mask again. -/
theorem taskMaskLaw_of_moments {C : Component I W E} (hC : ∀ u, C.halted u = false)
    (t : CallTree I E W) {w₀ : W} {enabled : W → Bool} {k : Nat} {c : I.Call} {w : W}
    (hstep : (C.start c w).ClearsAgain enabled (enabled w))
    (hbegan : .began k c w ∈ t.moments C w₀) :
    TaskMaskLaw enabled (t.moments C w₀) k c w := by
  have hmask : ∀ a v, .returned k c a v ∈ t.moments C w₀ →
      enabled v = (enabled w && (leftBy k (t.moments C w₀)).all enabled) := by
    intro a v hreturned
    rcases (runs_moments C t w₀).leftBy_eq_of_returned hbegan hreturned with
      ⟨hs, hleft⟩ | ⟨hook, reached, resume, inside, hs, hresume, hleft⟩
    · rw [hs] at hstep
      rw [hleft, List.all_nil, Bool.and_true]
      exact hstep
    · rw [hs] at hstep
      obtain ⟨-, hafter⟩ := hstep
      have hreturn := hafter inside
      rw [hresume] at hreturn
      rw [hleft, List.all_cons, List.all_nil, Bool.and_true]
      exact hreturn
  refine ⟨t.returned_moments 1 w₀ (hC _) k c w hbegan, hmask, ?_⟩
  intro a v hreturned
  rw [hmask a v hreturned]
  cases enabled w <;> simp

/-- The mask after a tick, for every run of a scheduler on its own, from any state and with anything
done to the mask in between, and of a node, whatever is called inside its tasks, explicit atomic
sections included. -/
theorem mask_after_tick {M D E : Type} [InterruptControl M] [Peripherals D] {cap : Nat}
    (w₀ : Scheduler × M) (t : CallTree Scheduler.interface (M → M) (Scheduler × M))
    (apply : E → D → D) (n₀ : Node M D cap) (t' : CallTree Node.interface E (Node M D cap)) :
    let history := t.moments (Scheduler.component M) w₀
    let history' := t'.moments (Node.attached apply) n₀
    (∀ k w, .began k () w ∈ history →
        TaskMaskLaw (fun w => InterruptControl.isEnabled w.2) history k () w) ∧
      ∀ k n, .began k .tickInterrupt n ∈ history' →
        TaskMaskLaw (·.guard.isEnabled) history' k .tickInterrupt n := by
  intro history history'
  constructor
  · intro k w hbegan
    exact taskMaskLaw_of_moments (fun _ => rfl) t (Scheduler.clearsAgain_tick w.1 w.2) hbegan
  · intro k n hbegan
    have hstep : n.tickInterrupt.ClearsAgain (·.guard.isEnabled) n.guard.isEnabled :=
      ((Scheduler.clearsAgain_tick n.shared.scheduler n.guard.controller).within
        Node.schedulerPart n).route _
    exact taskMaskLaw_of_moments (fun _ => rfl) t' hstep hbegan

open Bench in
/-- The task of the fifth tick opens a section inside a section, and the outer one ends masked. So
does the tick, which has found interrupts enabled. -/
theorem mask_after_tick_nested_sections :
    let four : CallTree Node.interface (Devices → Devices) (Node Control Devices 4) :=
      .flat (List.replicate 4 (.call .tickInterrupt))
    let task : CallTree Node.interface (Devices → Devices) (Node Control Devices 4) :=
      .call .atomic (fun _ => .call .atomic (fun _ => .done) fun _ => .done) fun _ => .done
    let t := four.followedBy <| .call .tickInterrupt (fun _ => task) fun _ => .done
    let history : History Node.interface (Devices → Devices) (Node Control Devices 4) :=
      t.moments (Node.attached fun f d => f d)
        (Node.new { enabled := true } Settings.busTiming {} 4 (by decide))
    ∃ n a v, .began 5 .tickInterrupt n ∈ history ∧ n.guard.isEnabled = true ∧
      .returned 5 .tickInterrupt a v ∈ history ∧ v.guard.isEnabled = false := by
  intro four task t history
  obtain ⟨past, n, future, hsplit, henabled⟩ : ∃ past n future,
      history = past ++ .began 5 .tickInterrupt n :: future ∧ n.guard.isEnabled = true :=
    ⟨[_, _, _, _, _, _, _, _], _, _, rfl, rfl⟩
  have hbegan : .began 5 .tickInterrupt n ∈ history := by
    rw [hsplit]
    simp
  have hlaw : TaskMaskLaw (·.guard.isEnabled) history 5 .tickInterrupt n :=
    (mask_after_tick ({}, { enabled := true }) .done (fun f d => f d) _ t).2 5 n hbegan
  obtain ⟨a, v, hreturned⟩ := hlaw.returns
  have hleft : (history.leftBy 5).all (·.guard.isEnabled) = false := by
    decide +kernel
  refine ⟨n, a, v, hbegan, henabled, hreturned, ?_⟩
  rw [hlaw.mask a v hreturned, hleft, Bool.and_false]

/-- The fifth tick of a scheduler begins with interrupts enabled, its task masks them, and the tick
returns with interrupts masked. -/
theorem tick_leaves_task_mask :
    let four : CallTree Scheduler.interface (Bench.Control → Bench.Control)
        (Scheduler × Bench.Control) := .flat (List.replicate 4 (.call ()))
    let t := four.followedBy <|
      .call () (fun _ => .act InterruptControl.mask fun _ => .done) fun _ => .done
    let history := t.moments (Scheduler.component Bench.Control) ({}, { enabled := true })
    ∃ past w atTask atEnd v,
      history = past ++ [.began 5 () w, .entered 5 .ms1 atTask, .acted InterruptControl.mask atEnd,
        .left 5 .ms1 atEnd, .returned 5 () (.ran (some .ms1)) v] ∧
      InterruptControl.isEnabled w.2 = true ∧ InterruptControl.isEnabled v.2 = false :=
  ⟨[_, _, _, _, _, _, _, _], _, _, _, _, rfl, rfl, rfl⟩

end SerialGateway
