import SerialGateway.Proofs.Reentrant.Runs

/-!
# Restricted surroundings

Surroundings that make only some of the calls, and do only some things of their own, also inside
hooks: `CallTree.Only`. What a run of such a tree shows is restricted in the same way
(`CallTree.Only.moments`), and a property of worlds that the allowed calls and doings keep is kept
by the whole run (`CallTree.Only.keeps`). In a run that does not end in a halt, they need not keep
it where the component halts (`CallTree.Only.keeps_unless_halted`).
-/

set_option autoImplicit false

namespace SerialGateway

variable {I : Interface} {E W : Type}

/-- The step keeps `P` up to its hook, and after it. -/
def Step.Keeps {Hook A : Type} (P : W → Prop) : Step Hook W A → Prop
  | .finished _ w => P w
  | .entering _ w resume => P w ∧ ∀ inside, P inside → P (resume inside).2

theorem Step.Keeps.and {Hook A : Type} {P Q : W → Prop} {step : Step Hook W A} (hP : step.Keeps P)
    (hQ : step.Keeps Q) : step.Keeps fun w => P w ∧ Q w := by
  cases step with
  | finished a w => exact ⟨hP, hQ⟩
  | entering hook w resume =>
      exact ⟨⟨hP.1, hQ.1⟩, fun inside hinside => ⟨hP.2 _ hinside.1, hQ.2 _ hinside.2⟩⟩

namespace CallTree

/-- The tree makes only the given calls, and its surroundings do only the given things. -/
def Only (calls : I.Call → Prop) (doings : E → Prop) : CallTree I E W → Prop
  | .done => True
  | .call c hook next =>
      calls c ∧ (∀ h, (hook h).Only calls doings) ∧ ∀ a, (next a).Only calls doings
  | .act e next => doings e ∧ ∀ w, (next w).Only calls doings

/-- A component that has not halted at the end of a run had not at its beginning. -/
theorem running_of_run {C : Component I W E} {t : CallTree I E W} {w : W}
    (h : C.halted (t.run C w) = false) : C.halted w = false := by
  cases hw : C.halted w with
  | false => rfl
  | true =>
      rw [run_of_halted C t hw, hw] at h
      cases h

namespace Only

variable {calls : I.Call → Prop} {doings : E → Prop} {C : Component I W E}

/-- A run shows nothing that its tree may not do. -/
theorem moments {t : CallTree I E W} (h : t.Only calls doings) (k : Nat) (w : W) :
    ∀ m ∈ t.momentsFrom C k w,
      (∀ j c u, m = .began j c u → calls c) ∧ ∀ e u, m = .acted e u → doings e := by
  induction t generalizing k w with
  | done => exact fun m hm => absurd hm List.not_mem_nil
  | call c hook next ihHook ihNext =>
      obtain ⟨hc, hhook, hnext⟩ := h
      intro m hm
      simp only [momentsFrom] at hm
      split at hm
      · exact absurd hm List.not_mem_nil
      · rcases List.mem_cons.1 hm with rfl | hm
        · simpa using hc
        · split at hm
          · rcases List.mem_cons.1 hm with rfl | hm
            · simp
            · exact ihNext _ (hnext _) _ _ m hm
          · rcases List.mem_append.1 hm with hm | hm
            · rcases List.mem_cons.1 hm with rfl | hm
              · simp
              · exact ihHook _ (hhook _) _ _ m hm
            · split at hm
              · exact absurd hm List.not_mem_nil
              · simp only [List.mem_cons] at hm
                rcases hm with rfl | rfl | hm
                · simp
                · simp
                · exact ihNext _ (hnext _) _ _ m hm
  | act e next ih =>
      obtain ⟨he, hnext⟩ := h
      intro m hm
      simp only [momentsFrom] at hm
      split at hm
      · exact absurd hm List.not_mem_nil
      · rcases List.mem_cons.1 hm with rfl | hm
        · simpa using he
        · exact ih _ (hnext _) _ _ m hm

/-- What the allowed calls and doings keep, a run keeps. -/
theorem keeps {P : W → Prop} (hreached : ∀ c w, calls c → P w → P (C.start c w).reached)
    (hresume : ∀ {c w h w' resume} (inside : W), C.start c w = .entering h w' resume →
      P inside → P (resume inside).2)
    (hact : ∀ e w, doings e → P w → P (C.act e w)) {t : CallTree I E W} (ht : t.Only calls doings)
    {w : W} (hw : P w) : P (t.run C w) := by
  induction t generalizing w with
  | done => exact hw
  | call c hook next ihHook ihNext =>
      obtain ⟨hc, hhook, hnext⟩ := ht
      have hstep := hreached c w hc hw
      rw [run]
      split
      · exact hw
      · cases hs : C.start c w with
        | finished a w' =>
            rw [hs] at hstep
            exact ihNext a (hnext a) hstep
        | entering h w' resume =>
            rw [hs] at hstep
            have hinside := ihHook h (hhook h) hstep
            simp only []
            split
            · exact hinside
            · exact ihNext _ (hnext _) (hresume _ hs hinside)
  | act e next ih =>
      obtain ⟨he, hnext⟩ := ht
      rw [run]
      split
      · exact hw
      · exact ih _ (hnext _) (hact e w he hw)

/-- What the allowed calls and doings keep unless the component halts, a run keeps that does not end
in a halt. -/
theorem keeps_unless_halted {P : W → Prop}
    (hstart : ∀ c w, calls c → P w → C.halted (C.start c w).reached = false →
      (C.start c w).Keeps P)
    (hact : ∀ e w, doings e → P w → P (C.act e w)) {t : CallTree I E W} (ht : t.Only calls doings)
    {w : W} (hw : P w) (hend : C.halted (t.run C w) = false) : P (t.run C w) := by
  induction t generalizing w with
  | done => exact hw
  | call c hook next ihHook ihNext =>
      obtain ⟨hc, hhook, hnext⟩ := ht
      have hstep := hstart c w hc hw
      have hrunning := running_of_run hend
      simp only [run, hrunning, Bool.false_eq_true, if_false] at hend ⊢
      cases hs : C.start c w with
      | finished a w' =>
          simp only [hs] at hstep hend ⊢
          exact ihNext a (hnext a) (hstep (running_of_run hend)) hend
      | entering h w' resume =>
          simp only [hs] at hstep hend ⊢
          cases hin : C.halted ((hook h).run C w') with
          | true =>
              simp only [hin, if_true] at hend
              cases hend
          | false =>
              simp only [hin, Bool.false_eq_true, if_false] at hend ⊢
              obtain ⟨hentered, hresume⟩ := hstep (running_of_run hin)
              have hinside := ihHook h (hhook h) hentered hin
              exact ihNext _ (hnext _) (hresume _ hinside) hend
  | act e next ih =>
      obtain ⟨he, hnext⟩ := ht
      have hrunning := running_of_run hend
      simp only [run, hrunning, Bool.false_eq_true, if_false] at hend ⊢
      exact ih _ (hnext _) (hact e w he hw) hend

end Only

end CallTree

end SerialGateway
