import SerialGateway.Proofs.Reentrant.Remembered

/-!
# What comes next in a run

Nothing happens between the beginning of a call and the first thing that the call shows, which is
its return or its hook, nor between the return of a hook and that of its call (`Runs.follows`). And
nothing at all happens once the component has halted: such a moment is the last one of its run
(`CallTree.last_of_halted`), and it belongs to the call that has halted the component
(`CallTree.running_of_number`).
-/

set_option autoImplicit false

namespace SerialGateway

variable {I : Interface} {E W : Type}

open History

/-! ## Moment by moment, with what comes after -/

/-- `P` holds of every moment of a history, and of what comes after it. -/
def Ahead (P : Moment I E W → History I E W → Prop) : History I E W → Prop
  | [] => True
  | m :: rest => P m rest ∧ Ahead P rest

section Ahead

variable {P : Moment I E W → History I E W → Prop}

theorem Ahead.at_moment {past future : History I E W} {now : Moment I E W}
    (h : Ahead P (past ++ now :: future)) : P now future := by
  induction past with
  | nil => exact h.1
  | cons m past ih => exact ih h.2

/-- What holds of the moments of `a` must not be lost when `b` comes after them. -/
theorem Ahead.append {a b : History I E W} (ha : Ahead P a) (hb : Ahead P b)
    (hmore : ∀ m ∈ a, ∀ rest, P m rest → P m (rest ++ b)) : Ahead P (a ++ b) := by
  induction a with
  | nil => exact hb
  | cons m a ih =>
      obtain ⟨hm, ha⟩ := ha
      refine ⟨hmore m (.head _) a hm, ih ha ?_⟩
      exact fun m' hm' => hmore m' (.tail _ hm')

end Ahead

/-! ## Calls -/

/-- What call `k` shows next when it has begun. -/
def Step.next {c : I.Call} (k : Nat) : Step I.Hook W (I.Answer c) → Moment I E W
  | finished a w => .returned k c a w
  | entering hook w _ => .entered k hook w

/-- What comes after a moment: a call that has begun goes on at once, and so does a call whose hook
has returned. -/
def Moment.Follows (C : Component I W E) : Moment I E W → History I E W → Prop
  | .began k c w, future => ∃ rest, future = (C.start c w).next k :: rest
  | .left k _ _, future => ∃ c a w rest, future = .returned k c a w :: rest
  | .entered _ _ _, _ | .returned _ _ _ _, _ | .acted _ _, _ => True

theorem Moment.Follows.append {C : Component I W E} {m : Moment I E W} {future : History I E W}
    (h : m.Follows C future) (more : History I E W) : m.Follows C (future ++ more) := by
  cases m with
  | began =>
      obtain ⟨rest, rfl⟩ := h
      exact ⟨rest ++ more, rfl⟩
  | left =>
      obtain ⟨c, a, w, rest, rfl⟩ := h
      exact ⟨c, a, w, rest ++ more, rfl⟩
  | entered | returned | acted => trivial

namespace Runs

variable {C : Component I W E} {k : Nat} {w v : W} {history : History I E W}

theorem ahead_follows (h : Runs C k w history v) : Ahead (Moment.Follows C) history := by
  induction h with
  | done => trivial
  | finished hs _ ih | halted hs _ _ ih =>
      refine ⟨?_, trivial, ih⟩
      rw [Moment.Follows, hs]
      exact ⟨_, rfl⟩
  | entering hs _ _ ihNested ihRest =>
      refine ⟨?_, trivial, ?_⟩
      · rw [Moment.Follows, hs]
        exact ⟨_, rfl⟩
      · refine ihNested.append ?_ fun m _ future hm => hm.append _
        exact ⟨⟨_, _, _, _, rfl⟩, trivial, ihRest⟩
  | acted _ ih => exact ⟨trivial, ih⟩

/-- A call that has begun goes on at once, and so does a call whose hook has returned. -/
theorem follows (h : Runs C k w history v) {past future : History I E W} {m : Moment I E W}
    (hsplit : history = past ++ m :: future) : m.Follows C future := by
  have hall := h.ahead_follows
  rw [hsplit] at hall
  exact hall.at_moment

end Runs

/-! ## Halts -/

namespace CallTree

variable {C : Component I W E}

/-- The last moment of a run shows the world that the run leaves. -/
theorem run_eq_of_last {t : CallTree I E W} {k : Nat} {w : W} {past : History I E W}
    {m : Moment I E W} (hsplit : t.momentsFrom C k w = past ++ [m]) : t.run C w = m.world := by
  rw [← foldl_momentsFrom C t k w, hsplit, List.foldl_append]
  rfl

theorem ahead_halted (t : CallTree I E W) (k : Nat) (w : W) :
    Ahead (fun m future => C.halted m.world = true → future = []) (t.momentsFrom C k w) := by
  induction t generalizing k w with
  | done => trivial
  | call c hook next ihHook ihNext =>
      by_cases hw : C.halted w = true
      · rw [momentsFrom_of_halted C _ k hw]
        trivial
      · simp only [momentsFrom, hw, Bool.false_eq_true, if_false]
        -- nothing can be said of the beginning itself, for the component still runs there
        refine ⟨fun h => absurd h hw, ?_⟩
        cases C.start c w with
        | finished a w' => exact ⟨momentsFrom_of_halted C _ _, ihNext a _ _⟩
        | entering h w' resume =>
            have hnested := ihHook h (k + 1) w'
            by_cases hin : C.halted ((hook h).run C w') = true
            · simp only [hin, if_true, List.append_nil]
              exact ⟨momentsFrom_of_halted C _ _, hnested⟩
            · simp only [hin, Bool.false_eq_true, if_false, List.cons_append]
              refine ⟨fun hentered => ?_, ?_⟩
              · -- a hook that is entered in a halt leaves the component halted
                have hsame : (hook h).run C w' = w' := run_of_halted C _ hentered
                rw [hsame] at hin
                exact absurd hentered hin
              · apply hnested.append
                · exact ⟨fun h => absurd h hin, momentsFrom_of_halted C _ _, ihNext _ _ _⟩
                · intro m hm rest _ hhalted
                  -- a moment of the hook that halts is its last, so that the hook leaves a halt
                  obtain ⟨past, future, hsplit⟩ := List.append_of_mem hm
                  have hlast : future = [] := by
                    rw [hsplit] at hnested
                    exact hnested.at_moment hhalted
                  rw [hlast] at hsplit
                  rw [run_eq_of_last hsplit] at hin
                  exact absurd hhalted hin
  | act e next ih =>
      by_cases hw : C.halted w = true
      · rw [momentsFrom_of_halted C _ k hw]
        trivial
      · simp only [momentsFrom, hw, Bool.false_eq_true, if_false]
        exact ⟨momentsFrom_of_halted C _ _, ih _ _ _⟩

/-- When the component has halted, nothing happens any more. -/
theorem last_of_halted (t : CallTree I E W) (w : W) {past future : History I E W}
    {m : Moment I E W} (hsplit : t.moments C w = past ++ m :: future)
    (hm : C.halted m.world = true) : future = [] ∧ t.run C w = m.world := by
  have hall := ahead_halted (C := C) t 1 w
  rw [moments] at hsplit
  rw [hsplit] at hall
  have hlast : future = [] := hall.at_moment hm
  refine ⟨hlast, ?_⟩
  rw [hlast] at hsplit
  exact run_eq_of_last hsplit

/-- A call begins in a component that runs, and so goes on after its hook. -/
theorem running_of_began (t : CallTree I E W) (w : W) {k : Nat} {c : I.Call} {u : W}
    (hbegan : .began k c u ∈ t.moments C w) : C.halted u = false := by
  obtain ⟨past, future, hsplit⟩ := List.append_of_mem hbegan
  obtain ⟨rest, hrest⟩ := (runs_moments C t w).follows hsplit
  rw [← Bool.not_eq_true]
  intro hhalted
  rw [(t.last_of_halted w hsplit hhalted).1] at hrest
  cases hrest

theorem running_of_left (t : CallTree I E W) (w : W) {k : Nat} {hook : I.Hook} {u : W}
    (hleft : .left k hook u ∈ t.moments C w) : C.halted u = false := by
  obtain ⟨past, future, hsplit⟩ := List.append_of_mem hleft
  obtain ⟨c, a, v, rest, hrest⟩ := (runs_moments C t w).follows hsplit
  rw [← Bool.not_eq_true]
  intro hhalted
  rw [(t.last_of_halted w hsplit hhalted).1] at hrest
  cases hrest

/-- A call that does not halt the component itself shows no halt at any moment of its own, whatever
happens in its hook. -/
theorem running_of_number (t : CallTree I E W) (w : W) {k : Nat} {c : I.Call} {u : W}
    (hbegan : .began k c u ∈ t.moments C w) (hshows : (C.start c u).Shows C.halted false)
    {m : Moment I E W} (hm : m ∈ t.moments C w) (hk : m.number? = some k) :
    C.halted m.world = false := by
  have hnumbered := numbered_moments C t w
  cases m with
  | acted => cases hk
  | began => exact t.running_of_began w hm
  | left => exact t.running_of_left w hm
  | entered j hook v =>
      cases hk
      obtain ⟨before, after, hsplit⟩ := List.append_of_mem hm
      obtain ⟨earlier, d, begun, resume, rfl, hs⟩ :=
        (runs_moments C t w).entered_after_began hsplit
      have hbegan' : .began k d begun ∈ t.moments C w := by
        rw [hsplit]
        simp
      obtain ⟨rfl, rfl⟩ := hnumbered.began_eq hbegan hbegan'
      rw [hs] at hshows
      exact hshows.1
  | returned j d a v =>
      cases hk
      cases (runs_moments C t w).returnFrom hm with
      | finished hbegan' hs =>
          obtain ⟨rfl, rfl⟩ := hnumbered.began_eq hbegan hbegan'
          rw [hs] at hshows
          exact hshows
      | resumed hbegan' _ hleft hs =>
          obtain ⟨rfl, rfl⟩ := hnumbered.began_eq hbegan hbegan'
          rw [hs] at hshows
          exact (hshows.2 _).trans (t.running_of_left w hleft)

end CallTree

end SerialGateway
