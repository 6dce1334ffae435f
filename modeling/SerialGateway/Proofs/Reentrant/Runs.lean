import SerialGateway.Proofs.Reentrant.History

/-!
# Runs

`Runs C k w history v` says that a run of the component `C` with calls numbered from `k` leads from
the world `w` through `history` to `v`. Every tree of calls has such a run (`runs_momentsFrom`), and
inductions on runs replace inductions on trees: a case for each way in which a call can go. A run
numbers its calls in the order in which they begin (`Runs.begun_eq_range'`), and every call returns
unless the component halts (`Runs.returns`).
-/

set_option autoImplicit false

namespace SerialGateway

variable {I : Interface} {E W : Type}

open History

/-- A run of `C` from one world to another, with its history and its calls numbered from `k`. Where
the component halts, nothing more happens. -/
inductive Runs (C : Component I W E) : Nat → W → History I E W → W → Prop
  | done (k : Nat) (w : W) : Runs C k w [] w
  | finished {k : Nat} {c : I.Call} {w w' v : W} {a : I.Answer c} {rest : History I E W} :
      C.start c w = .finished a w' → Runs C (k + 1) w' rest v →
      Runs C k w (.began k c w :: .returned k c a w' :: rest) v
  | halted {k : Nat} {c : I.Call} {w w' inside : W} {h : I.Hook} {resume : W → I.Answer c × W}
      {nested : History I E W} :
      C.start c w = .entering h w' resume → Runs C (k + 1) w' nested inside →
      C.halted inside = true →
      Runs C k w (.began k c w :: .entered k h w' :: nested) inside
  | entering {k : Nat} {c : I.Call} {w w' inside v : W} {h : I.Hook}
      {resume : W → I.Answer c × W} {nested rest : History I E W} :
      C.start c w = .entering h w' resume → Runs C (k + 1) w' nested inside →
      Runs C (k + 1 + nested.calls) (resume inside).2 rest v →
      Runs C k w (.began k c w :: .entered k h w' :: (nested ++ .left k h inside ::
        .returned k c (resume inside).1 (resume inside).2 :: rest)) v
  | acted {k : Nat} {e : E} {w v : W} {rest : History I E W} :
      Runs C k (C.act e w) rest v → Runs C k w (.acted e (C.act e w) :: rest) v

theorem momentsFrom_of_halted (C : Component I W E) (t : CallTree I E W) (k : Nat) {w : W}
    (h : C.halted w = true) : t.momentsFrom C k w = [] := by
  cases t <;> simp [CallTree.momentsFrom, h]

/-- The execution of a tree is a run. -/
theorem runs_momentsFrom (C : Component I W E) (t : CallTree I E W) (k : Nat) (w : W) :
    Runs C k w (t.momentsFrom C k w) (t.run C w) := by
  induction t generalizing k w with
  | done => exact .done k w
  | call c hook next ihHook ihNext =>
      by_cases hw : C.halted w = true
      · rw [momentsFrom_of_halted C _ k hw, CallTree.run_of_halted C _ hw]
        exact .done k w
      · simp only [CallTree.momentsFrom, CallTree.run, hw, Bool.false_eq_true, if_false]
        cases hs : C.start c w with
        | finished a w' => exact .finished hs (ihNext a (k + 1) w')
        | entering h w' resume =>
            by_cases hin : C.halted ((hook h).run C w') = true
            · simp only [hin, if_true, List.append_nil]
              exact .halted hs (ihHook h (k + 1) w') hin
            · simp only [hin, Bool.false_eq_true, if_false]
              exact .entering hs (ihHook h (k + 1) w') (ihNext _ _ _)
  | act e next ih =>
      by_cases hw : C.halted w = true
      · rw [momentsFrom_of_halted C _ k hw, CallTree.run_of_halted C _ hw]
        exact .done k w
      · simp only [CallTree.momentsFrom, CallTree.run, hw, Bool.false_eq_true, if_false]
        exact .acted (ih _ _ _)

/-- What happens in two trees one after the other. -/
theorem CallTree.momentsFrom_followedBy (C : Component I W E) (s t : CallTree I E W) (k : Nat)
    (w : W) :
    (s.followedBy t).momentsFrom C k w =
      s.momentsFrom C k w ++
        t.momentsFrom C (k + calls (s.momentsFrom C k w)) (s.run C w) := by
  -- in a component that has halted, nothing happens in either of them
  induction s generalizing k w with
  | done => rfl
  | call c hook next _ ih =>
      by_cases hw : C.halted w = true
      · simp [momentsFrom_of_halted, CallTree.run_of_halted, hw]
      · simp only [CallTree.followedBy, CallTree.momentsFrom, CallTree.run, hw, Bool.false_eq_true,
          if_false]
        cases C.start c w with
        | finished a w' => simp [ih, Nat.add_assoc, Nat.add_comm]
        | entering h w' resume =>
            by_cases hin : C.halted ((hook h).run C w') = true
            · simp [momentsFrom_of_halted, hin]
            · simp [hin, ih, Nat.add_assoc, Nat.add_comm]
  | act e next ih =>
      by_cases hw : C.halted w = true
      · simp [momentsFrom_of_halted, CallTree.run_of_halted, hw]
      · simp [CallTree.followedBy, CallTree.momentsFrom, CallTree.run, hw, ih]

theorem runs_moments (C : Component I W E) (t : CallTree I E W) (w : W) :
    Runs C 1 w (t.moments C w) (t.run C w) :=
  runs_momentsFrom C t 1 w

namespace Runs

variable {C : Component I W E} {k : Nat} {w v : W} {history : History I E W}

/-- A run gives its own calls the numbers from `k` on. -/
theorem number_range (h : Runs C k w history v) :
    ∀ m ∈ history, ∀ j, m.number? = some j → k ≤ j ∧ j < k + history.calls := by
  -- a moment belongs to the call itself, to its hook, or to what comes after the call
  induction h with
  | done => exact fun _ hm => absurd hm List.not_mem_nil
  | @finished k c w w' v a rest _ _ ih =>
      intro m hm j hj
      have hcalls : calls (.began k c w :: .returned k c a w' :: rest) = rest.calls + 1 := by simp
      rw [hcalls]
      simp only [List.mem_cons] at hm
      rcases hm with rfl | rfl | hm
      · cases hj
        omega
      · cases hj
        omega
      · have := ih m hm j hj
        omega
  | @halted k c w w' inside h resume nested _ _ _ ih =>
      intro m hm j hj
      have hcalls : calls (.began k c w :: .entered k h w' :: nested) = nested.calls + 1 := by simp
      rw [hcalls]
      simp only [List.mem_cons] at hm
      rcases hm with rfl | rfl | hm
      · cases hj
        omega
      · cases hj
        omega
      · have := ih m hm j hj
        omega
  | @entering k c w w' inside v h resume nested rest _ _ _ ihNested ihRest =>
      intro m hm j hj
      have hcalls : calls (.began k c w :: .entered k h w' :: (nested ++ .left k h inside ::
          .returned k c (resume inside).1 (resume inside).2 :: rest)) =
          nested.calls + rest.calls + 1 := by simp
      rw [hcalls]
      simp only [List.mem_cons, List.mem_append] at hm
      rcases hm with rfl | rfl | hm | rfl | rfl | hm
      · cases hj
        omega
      · cases hj
        omega
      · have := ihNested m hm j hj
        omega
      · cases hj
        omega
      · cases hj
        omega
      · have := ihRest m hm j hj
        omega
  | acted _ ih =>
      intro m hm j hj
      rcases List.mem_cons.1 hm with rfl | hm
      · cases hj
      · exact ih m hm j hj

theorem le_of_mem_returns (h : Runs C k w history v) {j : Nat} (hj : j ∈ history.returns) :
    k ≤ j := by
  obtain ⟨⟨j, o⟩, ho, rfl⟩ := List.mem_map.1 hj
  obtain ⟨m, hm, hmo⟩ := List.mem_filterMap.1 ho
  exact (h.number_range m hm j (Moment.number?_of_outcome? hmo)).1

/-- Unless the component halts, every call that begins returns. -/
theorem returns (h : Runs C k w history v) (hC : ∀ u, C.halted u = false) :
    ∀ j c u, Moment.began j c u ∈ history → ∃ a, (j, ⟨c, a⟩) ∈ history.outcomes := by
  induction h with
  | done => simp
  | @finished _ _ _ _ _ a _ _ _ ih =>
      intro j c u hm
      simp only [List.mem_cons, reduceCtorEq, false_or] at hm
      rcases hm with hm | hm
      · cases hm
        exact ⟨a, by simp⟩
      · obtain ⟨a, ha⟩ := ih j c u hm
        exact ⟨a, by simp [ha]⟩
  | halted _ _ hin => simp [hC] at hin
  | @entering _ _ _ _ inside _ _ resume _ _ _ _ _ ihNested ihRest =>
      intro j c u hm
      simp only [List.mem_cons, List.mem_append, reduceCtorEq, false_or] at hm
      rcases hm with hm | hm | hm
      · cases hm
        exact ⟨(resume inside).1, by simp⟩
      · obtain ⟨a, ha⟩ := ihNested j c u hm
        exact ⟨a, by simp [ha]⟩
      · obtain ⟨a, ha⟩ := ihRest j c u hm
        exact ⟨a, by simp [ha]⟩
  | acted _ ih =>
      intro j c u hm
      simp only [List.mem_cons, reduceCtorEq, false_or] at hm
      obtain ⟨a, ha⟩ := ih j c u hm
      exact ⟨a, by simp [ha]⟩

/-- The calls of a run begin in the order of their numbers. -/
theorem begun_eq_range' (h : Runs C k w history v) :
    history.begun = List.range' k history.calls := by
  induction h with
  | done => rfl
  | finished _ _ ih => simp [ih, List.range'_succ]
  | halted _ _ _ ih => simp [ih, List.range'_succ]
  | entering _ _ _ ihNested ihRest =>
      -- the calls of the hook take the numbers between the call and what comes after it
      simp [ihNested, ihRest, List.range'_succ, ← List.range'_append_1]
  | acted _ ih => simp [ih]

theorem numbered_append {past : History I E W} (hpast : Numbered past)
    (h : Runs C (past.calls + 1) w history v) : Numbered (past ++ history) where
  inOrder := by
    rw [begun_append, calls_append, hpast.inOrder, h.begun_eq_range', Nat.add_comm past.calls 1,
      List.range'_append_1]
  known := by
    intro m hm j hj
    rw [calls_append]
    rcases List.mem_append.1 hm with hm | hm
    · have := hpast.known m hm j hj
      omega
    · have := h.number_range m hm j hj
      omega

end Runs

section Inside

variable {C : Component I W E} {past nested : History I E W} {w' inside : W}
  (hpast : Numbered past) (c : I.Call) (h : I.Hook) (w : W)
  (hnested : Runs C (past.calls + 1 + 1) w' nested inside)

include hpast hnested

/-- What a hook has done is numbered from the next number on. -/
theorem numbered_inside :
    Numbered (past ++ .began (past.calls + 1) c w :: .entered (past.calls + 1) h w' :: nested) := by
  have hcalls : calls (past ++ [.began (past.calls + 1) c w, .entered (past.calls + 1) h w']) =
      past.calls + 1 := by simp
  have hall := (hcalls ▸ hnested).numbered_append (numbered_entered hpast c h w w')
  simpa using hall

/-- A call stays open during everything that its hook does. -/
theorem open_inside :
    Open (past.calls + 1) (past ++ .began (past.calls + 1) c w ::
      .entered (past.calls + 1) h w' :: nested) := by
  -- its number is too high for the calls before it, and too low for those of its hook
  have hpastReturns : past.calls + 1 ∉ past.returns := by
    intro hk
    have := (hpast.le_of_mem_returns hk).2
    omega
  have hnestedReturns : past.calls + 1 ∉ nested.returns := by
    intro hk
    have := hnested.le_of_mem_returns hk
    omega
  simp [Open, hpastReturns, hnestedReturns]

end Inside

theorem numbered_moments (C : Component I W E) (t : CallTree I E W) (w : W) :
    Numbered (t.moments C w) :=
  (runs_moments C t w).numbered_append numbered_nil

/-- Where a run does not end in a halt, every call that begins returns. -/
theorem CallTree.returned_moments {C : Component I W E} (t : CallTree I E W) (k : Nat) (w : W)
    (hend : C.halted (t.run C w) = false) :
    ∀ j c u, .began j c u ∈ t.momentsFrom C k w →
      ∃ a v, .returned j c a v ∈ t.momentsFrom C k w := by
  induction t generalizing k w with
  | done => exact fun _ _ _ hm => absurd hm List.not_mem_nil
  | call c hook next ihHook ihNext =>
      by_cases hw : C.halted w = true
      · simp [CallTree.momentsFrom, hw]
      · simp only [CallTree.run, CallTree.momentsFrom, hw, Bool.false_eq_true, if_false] at hend ⊢
        intro j d u hm
        cases hs : C.start c w with
        | finished a w' =>
            simp only [hs, List.mem_cons, reduceCtorEq, false_or] at hend hm ⊢
            rcases hm with hm | hm
            · cases hm
              exact ⟨a, w', .inl rfl⟩
            · obtain ⟨a, v, hreturned⟩ := ihNext _ _ _ hend j d u hm
              exact ⟨a, v, .inr hreturned⟩
        | entering h w' resume =>
            cases hin : C.halted ((hook h).run C w') with
            | true =>
                simp only [hs, hin, if_true] at hend
                cases hend
            | false =>
                simp only [hs, hin, Bool.false_eq_true, if_false, List.mem_cons, List.mem_append,
                  reduceCtorEq, false_or] at hend hm ⊢
                rcases hm with hm | hm | hm
                · cases hm
                  exact ⟨_, _, .inr (.inl rfl)⟩
                · obtain ⟨a, v, hreturned⟩ := ihHook h _ _ hin j d u hm
                  exact ⟨a, v, .inl hreturned⟩
                · obtain ⟨a, v, hreturned⟩ := ihNext _ _ _ hend j d u hm
                  exact ⟨a, v, .inr (.inr hreturned)⟩
  | act e next ih =>
      by_cases hw : C.halted w = true
      · simp [CallTree.momentsFrom, hw]
      · simp only [CallTree.run, CallTree.momentsFrom, hw, Bool.false_eq_true, if_false,
          List.mem_cons, reduceCtorEq, false_or] at hend ⊢
        exact ih _ _ _ hend

end SerialGateway
