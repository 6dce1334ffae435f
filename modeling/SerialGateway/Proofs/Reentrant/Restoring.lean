import SerialGateway.Proofs.Reentrant.Restricted

/-!
# Flags that calls put back

A call may change a flag of the world and put it back before it returns. Whether it does is a
property of its step (`Step.Restores`): a step without a hook leaves the flag as it was found; a
step with a hook enters it with the flag that `finds` says, and puts back what it found, provided
that the hook gives the flag back as it was when it was entered. Steps on a part of the world, steps
with other hooks and steps with a last word inherit the property.

A step may set the flag for its hook, and afterwards clear it again if it was clear before
(`Step.ClearsAgain`). It restores the flag, but it does not set it again where the hook has cleared
it.

If every allowed call restores the flag, then every call of a run does, whatever the hooks do with
the allowed calls (`flagLaw_moments`).
-/

set_option autoImplicit false

namespace SerialGateway

variable {I : Interface} {E W : Type}

/-! ## Steps -/

namespace Step

section

variable {Hook A : Type}

/-- The step puts the flag back that it found, and enters its hook with the one that `finds`
says. -/
def Restores (flag : W → Bool) (finds : Hook → Bool → Bool) (found : Bool) : Step Hook W A → Prop
  | finished _ w => flag w = found
  | entering hook w resume =>
      flag w = finds hook found ∧
        ∀ inside, flag inside = flag w → flag (resume inside).2 = found

end

namespace Restores

variable {Hook Hook' V A B : Type} {finds : Hook → Bool → Bool} {found : Bool}

/-- A flag of a part is restored when the part is. -/
theorem within {flag : V → Bool} {step : Step Hook V A} (h : step.Restores flag finds found)
    (part : Part W V) (w : W) :
    (step.within part w).Restores (fun w => flag (part.get w)) finds found := by
  cases step with
  | finished a v =>
      show flag (part.get (part.put v w)) = found
      rw [part.get_put]
      exact h
  | entering hook v resume =>
      obtain ⟨hentered, hresume⟩ := h
      refine ⟨?_, fun inside hinside => ?_⟩
      · show flag (part.get (part.put v w)) = finds hook found
        rw [part.get_put]
        exact hentered
      · have hpart : flag (part.get inside) = flag (part.get (part.put v w)) := hinside
        rw [part.get_put] at hpart
        show flag (part.get (part.put (resume (part.get inside)).2 inside)) = found
        rw [part.get_put]
        exact hresume (part.get inside) hpart

/-- A hook may have another name, or none. -/
theorem route {flag : W → Bool} {step : Step Hook W A} (h : step.Restores flag finds found)
    {f : Hook → Option Hook'} {finds' : Hook' → Bool → Bool}
    (hf : ∀ hook hook', f hook = some hook' → finds' hook' found = finds hook found) :
    (step.route f).Restores flag finds' found := by
  cases step with
  | finished a w => exact h
  | entering hook w resume =>
      obtain ⟨hentered, hresume⟩ := h
      rw [Step.route]
      cases hname : f hook with
      | some hook' =>
          refine ⟨?_, hresume⟩
          rw [hf hook hook' hname]
          exact hentered
      | none => exact hresume w rfl

/-- What is done last has to leave the flag alone. -/
theorem andThen {flag : W → Bool} {step : Step Hook W A} (h : step.Restores flag finds found)
    {f : A → W → B × W} (hf : ∀ a w, flag (f a w).2 = flag w) :
    (step.andThen f).Restores flag finds found := by
  cases step with
  | finished a w =>
      show flag (f a w).2 = found
      rw [hf]
      exact h
  | entering hook w resume =>
      obtain ⟨hentered, hresume⟩ := h
      refine ⟨hentered, fun inside hinside => ?_⟩
      show flag (f _ _).2 = found
      rw [hf]
      exact hresume inside hinside

end Restores

/-- A step without a hook leaves the flag as it was found. A step with a hook sets it for the hook,
and then it is set exactly if it was found set and the hook has left it set. -/
def ClearsAgain {Hook A : Type} (flag : W → Bool) (found : Bool) : Step Hook W A → Prop
  | finished _ w => flag w = found
  | entering _ w resume => flag w = true ∧ ∀ inside, flag (resume inside).2 = (found && flag inside)

namespace ClearsAgain

variable {Hook Hook' V A : Type} {found : Bool}

theorem restores {flag : W → Bool} {step : Step Hook W A} (h : step.ClearsAgain flag found) :
    step.Restores flag (fun _ _ => true) found := by
  cases step with
  | finished a w => exact h
  | entering hook w resume =>
      obtain ⟨hset, hresume⟩ := h
      refine ⟨hset, fun inside hinside => ?_⟩
      rw [hresume, hinside, hset, Bool.and_true]

theorem within {flag : V → Bool} {step : Step Hook V A} (h : step.ClearsAgain flag found)
    (part : Part W V) (w : W) :
    (step.within part w).ClearsAgain (fun w => flag (part.get w)) found := by
  cases step with
  | finished a v => exact (congrArg flag (part.get_put v w)).trans h
  | entering hook v resume =>
      obtain ⟨hset, hresume⟩ := h
      refine ⟨(congrArg flag (part.get_put v w)).trans hset, fun inside => ?_⟩
      exact (congrArg flag (part.get_put _ _)).trans (hresume (part.get inside))

/-- A hook that is not entered leaves the flag set. -/
theorem route {flag : W → Bool} {step : Step Hook W A} (h : step.ClearsAgain flag found)
    (f : Hook → Option Hook') : (step.route f).ClearsAgain flag found := by
  cases step with
  | finished a w => exact h
  | entering hook w resume =>
      obtain ⟨hset, hresume⟩ := h
      rw [Step.route]
      cases f hook with
      | some hook' => exact ⟨hset, hresume⟩
      | none => exact (hresume w).trans (by rw [hset, Bool.and_true])

end ClearsAgain

end Step

/-! ## Runs -/

/-- The calls of a component that restore a flag, and surroundings that leave it alone. -/
structure Restoring (C : Component I W E) (flag : W → Bool) (finds : I.Hook → Bool → Bool)
    (calls : I.Call → Prop) : Prop where
  start : ∀ c w, calls c → (C.start c w).Restores flag finds (flag w)
  act : ∀ e w, flag (C.act e w) = flag w

/-- What a moment has to do with the flag: a return finds the flag of the call, and a hook the one
that `finds` says. -/
def Moment.Flagged (flag : W → Bool) (finds : I.Hook → Bool → Bool) (history : History I E W) :
    Moment I E W → Prop
  | .returned k c _ v => ∃ u, .began k c u ∈ history ∧ flag v = flag u
  | .entered k hook v => ∃ c u, .began k c u ∈ history ∧ flag v = finds hook (flag u)
  | .began _ _ _ | .left _ _ _ | .acted _ _ => True

theorem Moment.Flagged.mono {flag : W → Bool} {finds : I.Hook → Bool → Bool}
    {history more : History I E W} {m : Moment I E W} (h : m.Flagged flag finds history)
    (hsub : ∀ m ∈ history, m ∈ more) : m.Flagged flag finds more := by
  cases m with
  | returned =>
      obtain ⟨u, hu, hflag⟩ := h
      exact ⟨u, hsub _ hu, hflag⟩
  | entered =>
      obtain ⟨c, u, hu, hflag⟩ := h
      exact ⟨c, u, hsub _ hu, hflag⟩
  | began | left | acted => trivial

/-- Every call of the history returns with the flag that it found, and enters its hook with the one
that `finds` says. -/
structure FlagLaw (flag : W → Bool) (finds : I.Hook → Bool → Bool) (history : History I E W) :
    Prop where
  returned : ∀ k c u a v, .began k c u ∈ history → .returned k c a v ∈ history → flag v = flag u
  entered : ∀ k c u hook v, .began k c u ∈ history → .entered k hook v ∈ history →
    flag v = finds hook (flag u)

namespace Restoring

variable {C : Component I W E} {flag : W → Bool} {finds : I.Hook → Bool → Bool}
  {calls : I.Call → Prop} (hC : Restoring C flag finds calls)

include hC

/-- A run of allowed calls that does not end in a halt leaves the flag as it found it. -/
theorem flag_run {t : CallTree I E W} (ht : t.Only calls fun _ => True) {w : W}
    (hend : C.halted (t.run C w) = false) : flag (t.run C w) = flag w := by
  -- the run of a hook has not halted either, since its call has gone on
  induction t generalizing w with
  | done => rfl
  | call c hook next ihHook ihNext =>
      obtain ⟨hc, hhook, hnext⟩ := ht
      have hstep := hC.start c w hc
      by_cases hw : C.halted w = true
      · rw [CallTree.run_of_halted C _ hw]
      · simp only [CallTree.run, hw, Bool.false_eq_true, if_false] at hend ⊢
        cases hs : C.start c w with
        | finished a w' =>
            rw [hs] at hstep
            simp only [hs] at hend
            exact (ihNext a (hnext a) hend).trans hstep
        | entering h w' resume =>
            rw [hs] at hstep
            obtain ⟨-, hresume⟩ := hstep
            simp only [hs] at hend ⊢
            cases hin : C.halted ((hook h).run C w') with
            | true =>
                simp only [hin, if_true] at hend
                cases hend
            | false =>
                simp only [hin, Bool.false_eq_true, if_false] at hend ⊢
                exact (ihNext _ (hnext _) hend).trans (hresume _ (ihHook h (hhook h) hin))
  | act e next ih =>
      by_cases hw : C.halted w = true
      · rw [CallTree.run_of_halted C _ hw]
      · simp only [CallTree.run, hw, Bool.false_eq_true, if_false] at hend ⊢
        exact (ih _ (ht.2 _) hend).trans (hC.act e w)

theorem flagged_moments {t : CallTree I E W} (ht : t.Only calls fun _ => True) (k : Nat) (w : W) :
    ∀ m ∈ t.momentsFrom C k w, m.Flagged flag finds (t.momentsFrom C k w) := by
  induction t generalizing k w with
  | done => exact fun m hm => absurd hm List.not_mem_nil
  | call c hook next ihHook ihNext =>
      obtain ⟨hc, hhook, hnext⟩ := ht
      have hstep := hC.start c w hc
      by_cases hw : C.halted w = true
      · simp [CallTree.momentsFrom, hw]
      · simp only [CallTree.momentsFrom, hw, Bool.false_eq_true, if_false]
        cases hs : C.start c w with
        | finished a w' =>
            rw [hs] at hstep
            intro m hm
            simp only [List.mem_cons] at hm
            rcases hm with rfl | rfl | hm
            · trivial
            · exact ⟨w, by simp, hstep⟩
            · exact (ihNext a (hnext a) _ _ m hm).mono fun m hm => by simp [hm]
        | entering h w' resume =>
            rw [hs] at hstep
            obtain ⟨hentered, hresume⟩ := hstep
            intro m hm
            simp only [List.mem_cons, List.mem_append] at hm
            rcases hm with rfl | (rfl | hm) | hm
            · trivial
            · exact ⟨c, w, by simp, hentered⟩
            · exact (ihHook h (hhook h) _ _ m hm).mono fun m hm => by simp [hm]
            · cases hin : C.halted ((hook h).run C w') with
              | true => simp [hin] at hm
              | false =>
                  simp only [hin, Bool.false_eq_true, if_false, List.mem_cons] at hm ⊢
                  rcases hm with rfl | rfl | hm
                  · trivial
                  · -- the hook has given the flag back as it was when it was entered
                    exact ⟨w, by simp, hresume _ (hC.flag_run (hhook h) hin)⟩
                  · exact (ihNext _ (hnext _) _ _ m hm).mono fun m hm => by simp [hm]
  | act e next ih =>
      by_cases hw : C.halted w = true
      · simp [CallTree.momentsFrom, hw]
      · simp only [CallTree.momentsFrom, hw, Bool.false_eq_true, if_false]
        intro m hm
        rcases List.mem_cons.1 hm with rfl | hm
        · trivial
        · exact (ih _ (ht.2 _) _ _ m hm).mono fun m hm => by simp [hm]

/-- The flag law of a run of allowed calls. -/
theorem flagLaw_moments {t : CallTree I E W} (ht : t.Only calls fun _ => True) (w : W) :
    FlagLaw flag finds (t.moments C w) := by
  have hflagged := hC.flagged_moments ht 1 w
  have hnumbered := numbered_moments C t w
  constructor
  · intro k c u a v hbegan hreturned
    obtain ⟨u', hbegan', hflag⟩ := hflagged _ hreturned
    obtain ⟨-, rfl⟩ := hnumbered.began_eq hbegan hbegan'
    exact hflag
  · intro k c u hook v hbegan hentered
    obtain ⟨c', u', hbegan', hflag⟩ := hflagged _ hentered
    obtain ⟨-, rfl⟩ := hnumbered.began_eq hbegan hbegan'
    exact hflag

end Restoring

end SerialGateway
