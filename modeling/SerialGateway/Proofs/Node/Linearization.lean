import SerialGateway.Proofs.Node.Calls
import SerialGateway.Proofs.Reentrant.Linear

/-!
# Callbacks that call the node again

A call completes its records before it enters a callback. So the calls that callbacks make inside
one another could as well have been made one after another, in the order in which they began, by an
application whose callbacks do nothing (`reentry_linearizes`).
-/

set_option autoImplicit false

namespace SerialGateway.Node

open History

variable {M D : Type} {cap : Nat} [InterruptControl M] [Peripherals D]

/-- The calls that answer from the records. The base tick tells whether a task was running, and the
overruns tell how often one was. -/
def FromRecords (c : Call) : Prop := c ≠ .tickInterrupt ∧ c ≠ .taskOverruns

/-- The bookkeeping decides the answer, whatever the hook does. -/
theorem answer_of_records_eq {c : Call} (hc : FromRecords c) {n m : Node M D cap}
    (h : n.records = m.records) (f g : Hook → Node M D cap → Node M D cap) :
    ((start c n).complete f).1 = ((start c m).complete g).1 := by
  obtain ⟨guard, busy, overruns, rfl⟩ := exists_aside_of_records_eq h
  cases c with
  | tickInterrupt => exact absurd rfl hc.1
  | taskOverruns => exact absurd rfl hc.2
  | consoleInterrupt =>
      show (n.consoleInterrupt.complete f).1 = ((aside ..).consoleInterrupt.complete g).1
      rw [complete_consoleInterrupt, complete_consoleInterrupt, (bookConsole_aside ..).1]
  | _ => rfl

theorem linear_component : Linear (component M D cap) records FromRecords where
  running _ := rfl
  act f _ _ h := records_act f h
  start c _ _ h := records_reached c h
  resume hs inside := records_resume _ hs inside
  answer _ _ _ hc h f g := answer_of_records_eq hc h f g

/-! ## Runs -/

/-- Whatever callbacks and atomic sections do, and however deep their calls are nested: the calls
of a run, made in the order in which they began with hooks that do nothing, leave the same records,
and each that answers from the records answers the same. -/
theorem reentry_linearizes (t : CallTree interface (D → D) (Node M D cap)) (n : Node M D cap) :
    let C := component M D cap
    let history : History interface (D → D) (Node M D cap) := t.moments C n
    let flat : CallTree interface (D → D) (Node M D cap) := .flat history.requests
    (t.run C n).records = (flat.run C n).records ∧
      requests (flat.moments C n) = history.requests ∧
      (∀ k c u, .began k c u ∈ history → ∃ a, (k, ⟨c, a⟩) ∈ history.outcomes) ∧
      ∀ k c a, FromRecords c →
        ((k, ⟨c, a⟩) ∈ history.outcomes ↔ (k, ⟨c, a⟩) ∈ outcomes (flat.moments C n)) := by
  intro C history flat
  have hrun : Runs C 1 n history (t.run C n) := runs_moments C t n
  obtain ⟨hview, houtcomes⟩ := linear_component.agrees_flat hrun n rfl
  refine ⟨hview, ?_, ?_, houtcomes⟩
  · exact requests_flat (fun _ => rfl) history.requests 1 n
  · exact hrun.returns fun _ => rfl

end SerialGateway.Node
