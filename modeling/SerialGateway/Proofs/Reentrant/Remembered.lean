import SerialGateway.Proofs.Reentrant.Hooks
import SerialGateway.Proofs.Reentrant.Invariant

/-!
# What a component remembers of its calls

Some calls of a component see a value, and the component keeps the last one. A step is judged by
what a view of the world is when its hook is entered, and by whether the view is left alone
afterwards (`Step.Shows`). If every step shows the value that its call has seen, or else the one
before it, then at every moment of a run the component remembers the last value of all the calls
that have begun (`Remembers.invariant`), in whatever hooks they have begun.
-/

set_option autoImplicit false

namespace SerialGateway

variable {I : Interface} {E W V α : Type}

open History

/-! ## Steps -/

namespace Step

section

variable {Hook A : Type}

/-- The view is `v` when the step has done all that it does before its hook, and after the hook the
step leaves the view alone. -/
def Shows (view : W → V) (v : V) : Step Hook W A → Prop
  | finished _ w => view w = v
  | entering _ w resume => view w = v ∧ ∀ inside, view (resume inside).2 = view inside

theorem shows_of_reached {view : W → V} {v : V} {step : Step Hook W A}
    (hreached : view step.reached = v)
    (hresume : ∀ {hook w resume}, step = .entering hook w resume →
      ∀ inside, view (resume inside).2 = view inside) : step.Shows view v := by
  cases step with
  | finished a w => exact hreached
  | entering hook w resume => exact ⟨hreached, hresume rfl⟩

theorem Shows.reached {view : W → V} {v : V} {step : Step Hook W A} (h : step.Shows view v) :
    view step.reached = v := by
  cases step with
  | finished a w => exact h
  | entering hook w resume => exact h.1

end

namespace Shows

variable {Hook Hook' U A B : Type} {v : V}

/-- What a step shows of a part. -/
theorem within {view : U → V} {step : Step Hook U A} (h : step.Shows view v) (part : Part W U)
    (w : W) : (step.within part w).Shows (fun w => view (part.get w)) v := by
  cases step with
  | finished a u =>
      show view (part.get (part.put u w)) = v
      rw [part.get_put]
      exact h
  | entering hook u resume =>
      obtain ⟨hentered, hresume⟩ := h
      constructor
      · show view (part.get (part.put u w)) = v
        rw [part.get_put]
        exact hentered
      · intro inside
        show view (part.get (part.put (resume (part.get inside)).2 inside)) = _
        rw [part.get_put]
        exact hresume (part.get inside)

/-- A hook may have another name, or none. -/
theorem route {view : W → V} {step : Step Hook W A} (h : step.Shows view v)
    (f : Hook → Option Hook') : (step.route f).Shows view v := by
  cases step with
  | finished a w => exact h
  | entering hook w resume =>
      obtain ⟨hentered, hresume⟩ := h
      rw [Step.route]
      cases f hook with
      | some hook' => exact ⟨hentered, hresume⟩
      | none => exact (hresume w).trans hentered

/-- What is done last has to leave the view alone. -/
theorem andThen {view : W → V} {step : Step Hook W A} (h : step.Shows view v) {f : A → W → B × W}
    (hf : ∀ a w, view (f a w).2 = view w) : (step.andThen f).Shows view v := by
  cases step with
  | finished a w => exact (hf a w).trans h
  | entering hook w resume =>
      obtain ⟨hentered, hresume⟩ := h
      exact ⟨hentered, fun inside => (hf ..).trans (hresume inside)⟩

end Shows

end Step

/-! ## Runs -/

namespace History

/-- The values that the calls of a history have seen, in the order in which they began. -/
def seen (seen? : I.Call → W → Option α) (history : History I E W) : List α :=
  history.filterMap (Moment.calling? fun _ => seen?)

variable (seen? : I.Call → W → Option α) (m : Moment I E W) (a b rest : History I E W)

@[simp] theorem seen_nil : seen seen? ([] : History I E W) = [] := rfl

@[simp] theorem seen_cons :
    seen seen? (m :: rest) = (m.calling? fun _ => seen?).toList ++ seen seen? rest :=
  filterMap_cons_toList ..

@[simp] theorem seen_append : seen seen? (a ++ b) = seen seen? a ++ seen seen? b :=
  List.filterMap_append

end History

/-- A component that remembers, as `last`, the last value that one of its calls has seen. -/
structure Remembers (C : Component I W E) (last : W → α) (seen? : I.Call → W → Option α) :
    Prop where
  start : ∀ c w, (C.start c w).Shows last ((seen? c w).getD (last w))
  act : ∀ e w, last (C.act e w) = last w

/-- A component remembers the last value of all that its calls have seen since it had `first`. -/
theorem Remembers.invariant {C : Component I W E} {last : W → α} {seen? : I.Call → W → Option α}
    (hC : Remembers C last seen?) (first : α) :
    Invariant C fun past w => last w = (past.seen seen?).getLast?.getD first := by
  apply Invariant.of_reached
  · intro past k c w m hw hbegins _
    have hvalues : (past ++ [.began k c w, m]).seen seen? =
        past.seen seen? ++ (seen? c w).toList := by
      cases m with
      | began => cases hbegins
      | entered | left | returned | acted => simp
    have hnow := (hC.start c w).reached
    rw [hvalues]
    -- a call that sees nothing leaves the last value as it was
    cases hseen : seen? c w with
    | none =>
        rw [hseen] at hnow
        simpa using hnow.trans hw
    | some a =>
        rw [hseen] at hnow
        simpa using hnow
  · intro past k c w hook w' resume inside hs hin
    have hstep := hC.start c w
    rw [hs] at hstep
    have hresume := hstep.2 inside
    constructor
    · simpa using hin
    · simpa using hresume.trans hin
  · intro past e w hw
    simpa using (hC.act e w).trans hw

end SerialGateway
