import SerialGateway.Bench.Control
import SerialGateway.Bench.Devices
import SerialGateway.Board.Gateway
import SerialGateway.Proofs.Node.Calls
import SerialGateway.Proofs.Reentrant.Restoring

/-!
# The interrupt mask

The calls of a node leave the interrupt mask as they found it, as do those of the gateway on its
board (`interrupt_mask_kept`). The callbacks of an interrupt are entered with the mask that the
interrupt found, and tasks with interrupts enabled. This holds for every state of the guard and of
the mask, and whatever the callbacks call, explicit atomic sections excepted.

There is only one flag for all sections, and the sections inside a callback overwrite it. No call
looks at it again after its callback: an interrupt has left its section before, and a tick goes by a
copy of its own. Only the body of an explicit section runs inside the section, which is why it has
to be excepted.
-/

set_option autoImplicit false

namespace SerialGateway

/-! ## The scheduler -/

namespace Scheduler

variable {M : Type} [InterruptControl M]

/-- A dispatch ends with interrupts enabled if it began so, by its own copy, and the task has left
them enabled. -/
theorem isEnabled_endDispatch (tier : Option Tier) (wasEnabled : Bool) (w : Scheduler × M) :
    InterruptControl.isEnabled (endDispatch tier wasEnabled w).2.2 =
      (wasEnabled && InterruptControl.isEnabled w.2) := by
  cases wasEnabled <;> simp [endDispatch]

/-- A tick enables interrupts for its task, and then masks them if it found them masked. -/
theorem clearsAgain_tick (s : Scheduler) (m : M) :
    (tick (s, m)).ClearsAgain (fun w => InterruptControl.isEnabled w.2)
      (InterruptControl.isEnabled m) := by
  have hstep := ticked s m
  generalize tick (s, m) = step at hstep
  cases hstep with
  | pending | overrun => rfl
  | idle =>
      -- without a task, interrupts stay enabled until the dispatch ends
      have hended := isEnabled_endDispatch none (InterruptControl.isEnabled m)
        (s, InterruptControl.unmask (InterruptControl.query m))
      rw [InterruptControl.isEnabled_unmask, Bool.and_true] at hended
      exact hended
  | task =>
      refine ⟨InterruptControl.isEnabled_unmask _, fun inside => ?_⟩
      exact isEnabled_endDispatch ..

theorem restores_tick (s : Scheduler) (m : M) :
    (tick (s, m)).Restores (fun w => InterruptControl.isEnabled w.2) (fun _ _ => true)
      (InterruptControl.isEnabled m) :=
  (clearsAgain_tick s m).restores

end Scheduler

/-! ## The node -/

namespace Node

/-- Whether a hook finds interrupts enabled, by what its call has found. -/
def Hook.finds : Hook → Bool → Bool
  | .masked, _ => false
  | .callback (.task _), _ => true
  | .callback (.consoleByte _), found | .callback (.busByte _ _), found
  | .callback .busSilence, found => found

variable {M D : Type} {cap : Nat} [InterruptControl M]

theorem restores_tickInterrupt (n : Node M D cap) :
    n.tickInterrupt.Restores (·.guard.isEnabled) Hook.finds n.guard.isEnabled := by
  have htick := Scheduler.restores_tick n.shared.scheduler n.guard.controller
  refine (htick.within schedulerPart n).route ?_
  rintro tier hook ⟨⟩
  rfl

theorem isEnabled_consult {A : Type} (n : Node M D cap) (f : SharedState cap → A) :
    (n.consult f).2.guard.isEnabled = n.guard.isEnabled :=
  isEnabled_exclusively n _

variable [Peripherals D]

theorem restores_start {c : Call} (hc : c ≠ .atomic) (n : Node M D cap) :
    (start c n).Restores (·.guard.isEnabled) Hook.finds n.guard.isEnabled := by
  cases c with
  | atomic => exact absurd rfl hc
  | tickInterrupt => exact n.restores_tickInterrupt
  | consoleInterrupt =>
      have hbooked : n.bookConsole.2.guard.isEnabled = n.guard.isEnabled := isEnabled_exclusively ..
      show n.consoleInterrupt.Restores _ _ _
      rcases n.consoleInterrupt_cases with h | h
      · rw [h]
        exact hbooked
      · rw [h]
        exact ⟨hbooked, fun inside hinside => hinside.trans hbooked⟩
  | busInterrupt | silenceInterrupt =>
      -- the section of the interrupt is over when its callback begins
      exact ⟨isEnabled_exclusively .., fun inside hinside =>
        hinside.trans (isEnabled_exclusively ..)⟩
  | capacity | isPending | taskOverruns => rfl
  | armGapTimer | available | read | peek | overflows | flush | setEvent | clearEvent | busStats
    | busTiming => exact isEnabled_exclusively ..

theorem restoring :
    Restoring (component M D cap) (·.guard.isEnabled) Hook.finds (· ≠ .atomic) where
  start _ n hc := restores_start hc n
  act _ _ := rfl

end Node

/-! ## The gateway -/

namespace Gateway

variable {A : Type}

/-- The mask bit of the core is clear. -/
def unmasked (g : Gateway A) : Bool := !(primaskPart.get g).masked

/-- Whether a hook finds interrupts enabled, by what its call has found. -/
def Hook.finds : Hook A → Bool → Bool
  | .masked, _ => false
  | .callback _ c, found => (Node.Hook.callback c).finds found

theorem unmasked_fetchApplication (g : Gateway A) : g.fetchApplication.unmasked = g.unmasked :=
  g.node.isEnabled_consult fun _ => ()

/-- The gateway forwards what the node does with the mask. -/
theorem restores_forward {B : Type} {call : Node Primask Memory Settings.consoleCapacity →
      Step Node.Hook (Node Primask Memory Settings.consoleCapacity) B} {g : Gateway A}
    {found : Bool} (h : (call g.node).Restores (·.guard.isEnabled) Node.Hook.finds found) :
    (g.forward call).Restores unmasked Hook.finds found := by
  refine (h.within nodePart g).route ?_
  intro hook hook' hfor
  cases hook with
  | masked =>
      cases hfor
      rfl
  | callback c =>
      obtain ⟨a, -, rfl⟩ := Option.map_eq_some_iff.1 hfor
      rfl

/-- An interrupt finds the mask as it was before the application was looked up. -/
theorem restores_interrupt {c : Node.Call} (hc : c ≠ .atomic) (g : Gateway A) :
    (g.fetchApplication.forward (Node.start c)).Restores unmasked Hook.finds g.unmasked := by
  have h := restores_forward (Node.restores_start hc g.fetchApplication.node)
  exact g.unmasked_fetchApplication ▸ h

theorem unmasked_takeBoard (g : Gateway A) : g.takeBoard.2.unmasked = g.unmasked := by
  rw [takeBoard]
  split <;> rfl

theorem restores_start [SystemReset] {c : Call A} (hc : c ≠ .node .atomic) (g : Gateway A) :
    (start c g).Restores unmasked Hook.finds g.unmasked := by
  cases c with
  | register => exact g.node.isEnabled_consult fun _ => ()
  | takeBoard => exact g.unmasked_takeBoard
  | startTick | reset => rfl
  | node c =>
      have hc : c ≠ .atomic := fun h => hc (congrArg Call.node h)
      cases c with
      | consoleInterrupt =>
          -- a reboot request resets the board, which does not touch the mask
          refine (restores_interrupt hc g).andThen fun outcome g => ?_
          split <;> rfl
      | busInterrupt | silenceInterrupt | tickInterrupt => exact restores_interrupt hc g
      | _ => exact restores_forward (Node.restores_start hc g.node)

theorem restoring [SystemReset] :
    Restoring (component A) unmasked Hook.finds (· ≠ .node .atomic) where
  start _ g hc := restores_start hc g
  act _ _ := rfl

end Gateway

/-! ## Every run -/

/-- The interrupt mask in every run without explicit atomic sections, of a node with any interrupt
controller and any devices, and of the gateway with the mask bit of the core, in any state: every
call returns with the mask that it found, except for the calls of a gateway that is reset; the
callbacks of an interrupt find the mask that the interrupt found; and tasks find interrupts
enabled. -/
theorem interrupt_mask_kept :
    (∀ (M D : Type) [InterruptControl M] [Peripherals D] (cap : Nat) (n : Node M D cap)
        (t : CallTree Node.interface (D → D) (Node M D cap)),
      t.Only (· ≠ Node.Call.atomic) (fun _ => True) →
      let history := t.moments (Node.component M D cap) n
      FlagLaw (·.guard.isEnabled) Node.Hook.finds history ∧
        ∀ k c u, .began k c u ∈ history → ∃ a v, .returned k c a v ∈ history) ∧
      ∀ [SystemReset] (A : Type) (g : Gateway A)
          (t : CallTree (Gateway.interface A) (Memory → Memory) (Gateway A)),
        t.Only (· ≠ Gateway.Call.node .atomic) (fun _ => True) →
        let history := t.moments (Gateway.component A) g
        FlagLaw Gateway.unmasked Gateway.Hook.finds history ∧
          ((t.run (Gateway.component A) g).resetRequested = false →
            ∀ k c u, .began k c u ∈ history → ∃ a v, .returned k c a v ∈ history) := by
  constructor
  · intro M D _ _ cap n t ht history
    exact ⟨Node.restoring.flagLaw_moments ht n, t.returned_moments 1 n rfl⟩
  · intro _ A g t ht history
    exact ⟨Gateway.restoring.flagLaw_moments ht g,
      t.returned_moments (C := Gateway.component A) 1 g⟩

/-- A tick that finds interrupts masked, with a console byte during its task; and a tick and a read
of a gateway. -/
theorem interrupt_mask_kept_nested :
    let fresh : Node Bench.Control Bench.Devices 4 :=
      Node.new { enabled := false } Settings.busTiming {} 4 (by decide)
    let n := { fresh with shared := { fresh.shared with scheduler := { subTicks := 4 } } }
    let t : CallTree Node.interface (Bench.Devices → Bench.Devices)
        (Node Bench.Control Bench.Devices 4) :=
      .call .tickInterrupt (fun _ => .call .consoleInterrupt (fun _ => .done) fun _ => .done)
        fun _ => .done
    let history := t.moments (Node.component Bench.Control Bench.Devices 4) n
    let g := Gateway.powerOn Unit {}
    let t' : CallTree (Gateway.interface Unit) (Memory → Memory) (Gateway Unit) :=
      .call (.node .tickInterrupt) (fun _ => .done) fun _ =>
        .call (.node .read) (fun _ => .done) fun _ => .done
    let history' := t'.moments (Gateway.component Unit) g
    t.Only (· ≠ Node.Call.atomic) (fun _ => True) ∧
      (∀ v, .entered 1 (.callback (.task .ms1)) v ∈ history → v.guard.isEnabled = true) ∧
      (∃ a v, .returned 1 .tickInterrupt a v ∈ history ∧ v.guard.isEnabled = false) ∧
      t'.Only (· ≠ Gateway.Call.node .atomic) (fun _ => True) ∧
      (t'.run (Gateway.component Unit) g).resetRequested = false ∧
      ∃ a v, .returned 1 (.node .tickInterrupt) a v ∈ history' ∧ v.unmasked = true := by
  intro fresh n t history g t' history'
  have hbegan : .began 1 .tickInterrupt n ∈ history := by
    simp [history, t, CallTree.moments, CallTree.momentsFrom, Node.component]
  have hbegan' : .began 1 (.node .tickInterrupt) g ∈ history' := by
    simp [history', t', CallTree.moments, CallTree.momentsFrom, Gateway.component, g,
      Gateway.powerOn]
  have honly : t.Only (· ≠ Node.Call.atomic) (fun _ => True) := by simp [t, CallTree.Only]
  have honly' : t'.Only (· ≠ Gateway.Call.node .atomic) (fun _ => True) := by
    simp [t', CallTree.Only]
  obtain ⟨hnode, hgateway⟩ := interrupt_mask_kept
  obtain ⟨hflag, hreturns⟩ := hnode _ _ 4 n t honly
  obtain ⟨hflag', hreturns'⟩ := hgateway Unit g t' honly'
  refine ⟨honly, fun v hv => hflag.entered _ _ _ _ _ hbegan hv, ?_, honly', rfl, ?_⟩
  · obtain ⟨a, v, hv⟩ := hreturns _ _ _ hbegan
    exact ⟨a, v, hv, hflag.returned _ _ _ _ _ hbegan hv⟩
  · obtain ⟨a, v, hv⟩ := hreturns' rfl _ _ _ hbegan'
    exact ⟨a, v, hv, hflag'.returned _ _ _ _ _ hbegan' hv⟩

/-- An explicit section around another call ends masked, although it began with interrupts
enabled. -/
example :
    let t : CallTree Node.interface (Bench.Devices → Bench.Devices)
        (Node Bench.Control Bench.Devices 4) :=
      .call .atomic (fun _ => .call .read (fun _ => .done) fun _ => .done) fun _ => .done
    (t.run (Node.component Bench.Control Bench.Devices 4)
      (Node.new { enabled := true } Settings.busTiming {} 4 (by decide))).guard.isEnabled = false :=
  rfl

end SerialGateway
