import SerialGateway.Proofs.Reentrant.Runs

/-!
# Invariants

A property of histories and worlds that no call and no doing of the surroundings can break is an
`Invariant`. It holds at every moment of every run and of its whole history (`Invariant.of_tree`),
however deep the calls are nested. Whoever proves one may use that the history so far is numbered in
order, and that a hook belongs to the run of a tree of its own.
-/

set_option autoImplicit false

namespace SerialGateway

variable {I : Interface} {E W : Type}

open History

/-- What `J` says at a moment after `past`. A call that only begins has not changed the world. -/
def Moment.At (J : History I E W → W → Prop) (past : History I E W) : Moment I E W → Prop
  | .began _ _ w => J past w
  | m => J (past ++ [m]) m.world

theorem Moment.At.imp {J K : History I E W → W → Prop} (h : ∀ past w, J past w → K past w)
    {past : History I E W} {now : Moment I E W} (hnow : now.At J past) : now.At K past := by
  cases now with
  | began | entered | left | returned | acted => exact h _ _ hnow

/-- A property of histories and worlds that no call and no doing of the surroundings breaks. A call
is taken apart at its hook: up to it, and from the world `inside` that the hook leaves. -/
structure Invariant (C : Component I W E) (J : History I E W → W → Prop) : Prop where
  finished : ∀ {past k c w a w'}, Numbered past → k = past.calls + 1 → J past w →
    C.start c w = .finished a w' → J (past ++ [.began k c w, .returned k c a w']) w'
  entered : ∀ {past k c w h w' resume}, Numbered past → k = past.calls + 1 → J past w →
    C.start c w = .entering h w' resume → J (past ++ [.began k c w, .entered k h w']) w'
  left : ∀ {past k c w h w' resume nested inside}, Numbered past → k = past.calls + 1 →
    J past w → C.start c w = .entering h w' resume → Runs C (k + 1) w' nested inside →
    J (past ++ .began k c w :: .entered k h w' :: nested) inside →
    J (past ++ .began k c w :: .entered k h w' :: nested ++ [.left k h inside]) inside ∧
      J (past ++ .began k c w :: .entered k h w' :: nested ++ [.left k h inside,
        .returned k c (resume inside).1 (resume inside).2]) (resume inside).2
  acted : ∀ {past e w}, Numbered past → J past w → J (past ++ [.acted e (C.act e w)]) (C.act e w)

/-- What a call answers, or which hook it enters, is one moment `m` after its beginning. An
invariant that does not tell the two apart is kept if the bookkeeping of each call keeps it, and
what happens outside of calls and after hooks. -/
theorem Invariant.of_reached {C : Component I W E} {J : History I E W → W → Prop}
    (hreached : ∀ {past k c w m}, J past w → m.beginning? = none → m.number? = some k →
      J (past ++ [.began k c w, m]) (C.start c w).reached)
    (hleft : ∀ {past k c w h w' resume inside}, C.start c w = .entering h w' resume →
      J past inside → J (past ++ [.left k h inside]) inside ∧
        J (past ++ [.left k h inside, .returned k c (resume inside).1 (resume inside).2])
          (resume inside).2)
    (hacted : ∀ {past e w}, J past w → J (past ++ [.acted e (C.act e w)]) (C.act e w)) :
    Invariant C J where
  finished := by
    intro past k c w a w' _ _ hJ hs
    have h := hreached (k := k) (c := c) (m := .returned k c a w') hJ rfl rfl
    rw [hs] at h
    exact h
  entered := by
    intro past k c w hook w' resume _ _ hJ hs
    have h := hreached (k := k) (c := c) (m := .entered k hook w') hJ rfl rfl
    rw [hs] at h
    exact h
  left := by
    intro past k c w hook w' resume nested inside _ _ _ hs _ hin
    exact hleft hs hin
  acted := by
    intro past e w _ hJ
    exact hacted hJ

/-- An invariant holds at every moment of a run, and at its end. -/
theorem Invariant.along_runs {C : Component I W E} {J : History I E W → W → Prop}
    (hJ : Invariant C J) {k : Nat} {w v : W} {history : History I E W}
    (h : Runs C k w history v) :
    ∀ past, Numbered past → k = past.calls + 1 → J past w →
      Along (Moment.At J) past history ∧ J (past ++ history) v := by
  induction h with
  | done => exact fun past _ _ hw => ⟨trivial, by simpa using hw⟩
  | @finished k c w w' v a rest hs _ ih =>
      rintro past hpast rfl hw
      have hdone := hJ.finished hpast rfl hw hs
      obtain ⟨hrest, hend⟩ := ih (past ++ [.began _ c w, .returned _ c a w'])
        ((Runs.finished hs (.done _ _)).numbered_append hpast) (by simp) hdone
      exact ⟨⟨hw, by simpa [Moment.At] using hdone, by simpa using hrest⟩, by simpa using hend⟩
  | @halted k c w w' inside h resume nested hs hnested hin ih =>
      rintro past hpast rfl hw
      have hentered := hJ.entered hpast rfl hw hs
      obtain ⟨hinner, hend⟩ := ih (past ++ [.began _ c w, .entered _ h w'])
        (numbered_entered hpast c h w w') (by simp) hentered
      exact ⟨⟨hw, by simpa [Moment.At] using hentered, by simpa using hinner⟩, by simpa using hend⟩
  | @entering k c w w' inside v h resume nested rest hs hnested hrest ihNested ihRest =>
      rintro past hpast rfl hw
      have hentered := hJ.entered hpast rfl hw hs
      -- the run of the hook starts from the world in which the hook was entered
      obtain ⟨hinner, hinside⟩ :=
        ihNested (past ++ [.began _ c w, .entered _ h w']) (numbered_entered hpast c h w w')
          (by simp) hentered
      rw [List.append_assoc] at hinside
      -- and what comes after the call, from the world in which the call has returned
      obtain ⟨hleft, hreturned⟩ := hJ.left hpast rfl hw hs hnested hinside
      obtain ⟨hrest, hend⟩ := ihRest _
        ((Runs.entering hs hnested (.done _ _)).numbered_append hpast) (by simp; omega)
        (by simpa using hreturned)
      refine ⟨⟨hw, by simpa [Moment.At] using hentered, ?_⟩, by simpa using hend⟩
      rw [along_append]
      refine ⟨by simpa using hinner, ?_, ?_, by simpa using hrest⟩
      · simpa [Moment.At] using hleft
      · simpa [Moment.At] using hreturned
  | @acted k e w v rest _ ih =>
      rintro past hpast rfl hw
      have hacted := hJ.acted hpast hw (e := e)
      obtain ⟨hrest, hend⟩ := ih (past ++ [.acted e (C.act e w)])
        ((Runs.acted (.done _ _)).numbered_append hpast) (by simp) hacted
      exact ⟨⟨hacted, hrest⟩, by simpa using hend⟩

/-- An invariant that holds in a world at which nothing has happened yet holds at every moment of
the execution of a tree of calls, and at its end. -/
theorem Invariant.of_tree {C : Component I W E} {J : History I E W → W → Prop}
    (hJ : Invariant C J) (t : CallTree I E W) {w : W} (hw : J [] w) :
    (∀ past now future, t.moments C w = past ++ now :: future → now.At J past) ∧
      J (t.moments C w) (t.run C w) := by
  obtain ⟨halong, hend⟩ := hJ.along_runs (runs_moments C t w) [] numbered_nil rfl hw
  refine ⟨fun past now future hsplit => ?_, hend⟩
  rw [hsplit] at halong
  exact halong.at_moment

end SerialGateway
