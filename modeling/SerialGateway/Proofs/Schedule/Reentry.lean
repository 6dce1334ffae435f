import SerialGateway.Proofs.Reentrant.Invariant
import SerialGateway.Proofs.Schedule.Tick

/-!
# Ticks that arrive during a task

Number the ticks of a run of the scheduler from one, in the order in which they begin. The state
after `n` ticks and the answer of tick `k` are arithmetic on these numbers, whatever the tasks do:
they may cause any further ticks, nested to any depth (`tick_reentry`). A tick that is no cadence
step is pending; a step that begins during a task is an overrun; every other step runs the tier of
its cadence. There is never more than one task.

`Settled` is the invariant.
-/

set_option autoImplicit false

namespace SerialGateway.Scheduler

open History

variable {M : Type}

/-! ## The invariant -/

/-- The history of a scheduler. -/
abbrev Ticks (M : Type) : Type := History interface (M → M) (Scheduler × M)

/-- How many ticks were overruns. -/
def overrunsIn (history : Ticks M) : Nat := history.outcomes.countP fun o => o.2.2 == .overrun

/-- What tick `k` answers. It was `held` if it began during a task. -/
structure Answered (k : Nat) (held : Prop) (a : Dispatch) : Prop where
  pending : a = .pending ↔ ¬ 5 ∣ k
  overrun : a = .overrun ↔ 5 ∣ k ∧ held
  ran : a = .ran (tierAt k) ↔ 5 ∣ k ∧ ¬ held

theorem answered_pending {k : Nat} {held : Prop} (hk : ¬ 5 ∣ k) : Answered k held .pending := by
  constructor <;> simp [hk]

theorem answered_overrun {k : Nat} {held : Prop} (hk : 5 ∣ k) (hheld : held) :
    Answered k held .overrun := by
  constructor <;> simp [hk, hheld]

theorem answered_ran {k : Nat} {held : Prop} (hk : 5 ∣ k) (hheld : ¬ held) :
    Answered k held (.ran (tierAt k)) := by
  constructor <;> simp [hk, hheld]

/-- The answers of the ticks that have returned, and the tasks that were entered. -/
structure Accounted (past : Ticks M) : Prop where
  answers : ∀ k a, (k, ⟨(), a⟩) ∈ past.outcomes → Answered k (∃ j, Open j (before k past)) a
  tasks : ∀ k tier u, .entered k tier u ∈ past →
    5 ∣ k ∧ tierAt k = some tier ∧ ¬ ∃ j, Open j (before k past)
  entered : ∀ k tier, (k, ⟨(), .ran (some tier)⟩) ∈ past.outcomes → ∃ u, .entered k tier u ∈ past

/-- Later moments account for themselves only. -/
theorem Accounted.append {past more : Ticks M} (h : Accounted past) (hpast : Numbered past)
    (answers : ∀ k a, (k, ⟨(), a⟩) ∈ more.outcomes →
      Answered k (∃ j, Open j (before k (past ++ more))) a)
    (tasks : ∀ k tier u, .entered k tier u ∈ more →
      5 ∣ k ∧ tierAt k = some tier ∧ ¬ ∃ j, Open j (before k (past ++ more)))
    (entered : ∀ k tier, (k, ⟨(), .ran (some tier)⟩) ∈ more.outcomes →
      ∃ u, .entered k tier u ∈ past ++ more) :
    Accounted (past ++ more) where
  answers k a hk := by
    rw [outcomes_append, List.mem_append] at hk
    rcases hk with hk | hk
    · rw [hpast.before_append (hpast.le_of_mem_outcomes hk)]
      exact h.answers k a hk
    · exact answers k a hk
  tasks k tier u hk := by
    rcases List.mem_append.1 hk with hk | hk
    · rw [hpast.before_append (hpast.le_of_mem_entries (List.mem_filterMap.2 ⟨_, hk, rfl⟩))]
      exact h.tasks k tier u hk
    · exact tasks k tier u hk
  entered k tier hk := by
    rw [outcomes_append, List.mem_append] at hk
    rcases hk with hk | hk
    · obtain ⟨u, hu⟩ := h.entered k tier hk
      exact ⟨u, List.mem_append_left _ hu⟩
    · exact entered k tier hk

/-- What holds of a scheduler and its history, between any two moments. -/
structure Settled (past : Ticks M) (w : Scheduler × M) : Prop where
  clock : AtTick past.calls w.1
  overruns : w.1.overruns.toNat = min 255 (overrunsIn past)
  busy : w.1.busy = true ↔ ∃ k, Open k past
  alone : ∀ i j, Open i past → Open j past → i = j
  hooked : ∀ k, InHook k past → Open k past
  accounted : Accounted past

theorem settled_start (m : M) : Settled (M := M) [] ({}, m) := by
  refine ⟨⟨?_, ?_⟩, ?_, ?_, ?_, ?_, ?_, ?_, ?_⟩ <;> simp [Open, InHook, overrunsIn]

namespace Settled

variable {past : Ticks M} {s s' : Scheduler} {m m' : M}

theorem not_held (h : Settled past (s, m)) (hbusy : s.busy = false) : ¬ ∃ j, Open j past := by
  rw [← h.busy, hbusy]
  exact Bool.false_ne_true

/-- A tick that enters no task. -/
theorem finished (h : Settled past (s, m)) (hpast : Numbered past) {a : Dispatch}
    (clock : AtTick (past.calls + 1) s') (busy : s'.busy = s.busy)
    (overruns : s'.overruns = Counter.count8 (if a = .overrun then 1 else 0) s.overruns)
    (answer : Answered (past.calls + 1) (∃ j, Open j past) a)
    (quiet : ∀ tier, a ≠ .ran (some tier)) :
    Settled (past ++ [.began (past.calls + 1) () (s, m), .returned (past.calls + 1) () a (s', m')])
      (s', m') where
  clock := by simpa using clock
  overruns := by
    rw [overruns, Counter.toNat_count8, h.overruns]
    simp [overrunsIn, List.countP_cons]
    omega
  busy := by simp only [hpast.open_finished_iff, busy, h.busy]
  alone i j hi hj :=
    h.alone i j ((hpast.open_finished_iff ..).1 hi) ((hpast.open_finished_iff ..).1 hj)
  hooked k hk := by
    rw [hpast.open_finished_iff]
    exact h.hooked k (by simpa [InHook] using hk)
  accounted := by
    refine h.accounted.append hpast ?_ (by simp) ?_
    · intro k b hk
      cases List.mem_singleton.1 hk
      rwa [hpast.before_next]
    · intro k tier hk
      cases List.mem_singleton.1 hk
      exact absurd rfl (quiet tier)

/-- A tick that enters a task. -/
theorem task (h : Settled past (s, m)) (hpast : Numbered past) {tier : Tier}
    (hk : 5 ∣ past.calls + 1) (clock : AtTick (past.calls + 1) s') (wasBusy : s.busy = false)
    (busy : s'.busy = true) (overruns : s'.overruns = s.overruns)
    (htier : tierAt (past.calls + 1) = some tier) :
    Settled (past ++ [.began (past.calls + 1) () (s, m), .entered (past.calls + 1) tier (s', m')])
      (s', m') where
  clock := by simpa using clock
  overruns := by
    rw [overruns, h.overruns]
    simp [overrunsIn]
  busy := by
    simp only [hpast.open_entered_iff, busy, true_iff]
    exact ⟨past.calls + 1, .inr rfl⟩
  alone i j hi hj := by
    -- the scheduler was free, so this is the only open tick
    have hnone := h.not_held wasBusy
    rw [hpast.open_entered_iff] at hi hj
    rcases hi with hi | rfl
    · exact absurd ⟨i, hi⟩ hnone
    · rcases hj with hj | rfl
      · exact absurd ⟨j, hj⟩ hnone
      · rfl
  hooked k hin := by
    rw [hpast.open_entered_iff]
    by_cases hlast : k = past.calls + 1
    · exact .inr hlast
    · exact .inl (h.hooked k (by simpa [InHook, hlast] using hin))
  accounted := by
    refine h.accounted.append hpast (by simp) ?_ (by simp)
    intro k tier' u hmem
    obtain ⟨rfl, rfl, -⟩ : k = past.calls + 1 ∧ tier' = tier ∧ u = (s', m') := by
      simpa using hmem
    rw [hpast.before_next]
    exact ⟨hk, htier, h.not_held wasBusy⟩

/-- A task returns to the tick that entered it. -/
theorem left (h : Settled past (s, m)) (hpast : Numbered past) (k : Nat) (tier : Tier) :
    Settled (past ++ [.left k tier (s, m)]) (s, m) where
  clock := by simpa using h.clock
  overruns := by simpa [overrunsIn] using h.overruns
  busy := by simp only [open_left_iff, h.busy]
  alone i j hi hj := h.alone i j ((open_left_iff ..).1 hi) ((open_left_iff ..).1 hj)
  hooked j hin := by
    rw [open_left_iff]
    refine h.hooked j ⟨?_, ?_⟩
    · simpa using hin.1
    · exact fun hj => hin.2 (by simp [hj])
  accounted := h.accounted.append hpast (by simp) (by simp) (by simp)

/-- The tick that entered a task returns after it. It was the only one that had not. -/
theorem returned {k : Nat} {tier : Tier} (h : Settled past (s, m)) (hpast : Numbered past)
    {u : Scheduler × M} (hopen : Open k past) (hentered : .entered k tier u ∈ past) :
    Settled (past ++ [.left k tier (s, m),
        .returned k () (.ran (some tier)) ({ s with busy := false }, m')])
      ({ s with busy := false }, m') := by
  obtain ⟨hk, htier, hheld⟩ := h.accounted.tasks k tier u hentered
  -- clearing the mark is right because no other tick can have set it meanwhile
  have hnone : ∀ j, ¬ Open j (past ++ [.left k tier (s, m),
      .returned k () (.ran (some tier)) ({ s with busy := false }, m')]) := by
    intro j hj
    obtain ⟨hj, hjk⟩ := (open_returned_iff ..).1 hj
    exact hjk (h.alone j k hj hopen)
  refine ⟨⟨?_, ?_⟩, ?_, ?_, ?_, ?_, h.accounted.append hpast ?_ (by simp) ?_⟩
  · simpa using h.clock.subTicks
  · simpa using h.clock.cadence
  · simpa [overrunsIn] using h.overruns
  · simp [hnone]
  · exact fun i _ hi => absurd hi (hnone i)
  · intro j hj
    have hbefore : InHook j past ∧ j ≠ k := by simpa [InHook, and_assoc] using hj
    exact absurd (h.alone j k (h.hooked j hbefore.1) hopen) hbefore.2
  · intro j a hj
    cases List.mem_singleton.1 hj
    rw [hpast.before_append (hpast.le_of_mem_entries hopen.1), ← htier]
    exact answered_ran hk hheld
  · intro j tier' hmem
    cases List.mem_singleton.1 hmem
    exact ⟨u, List.mem_append_left _ hentered⟩

/-- What is done beside the ticks leaves the scheduler alone. -/
theorem acted (h : Settled past (s, m)) (hpast : Numbered past) (f : M → M) :
    Settled (past ++ [.acted f (s, m')]) (s, m') where
  clock := by simpa using h.clock
  overruns := by simpa [overrunsIn] using h.overruns
  busy := by simp only [open_acted_iff, h.busy]
  alone i j hi hj := h.alone i j ((open_acted_iff ..).1 hi) ((open_acted_iff ..).1 hj)
  hooked j hin := by
    rw [open_acted_iff]
    exact h.hooked j (by simpa [InHook] using hin)
  accounted := h.accounted.append hpast (by simp) (by simp) (by simp)

end Settled

/-- No tick, and nothing that happens beside the ticks, breaks the invariant. -/
theorem invariant_settled [InterruptControl M] : Invariant (component M) Settled where
  finished := by
    rintro past _ ⟨⟩ ⟨s, m⟩ a w' hpast rfl h hs
    have hstep := ticked s m
    rw [show tick (s, m) = .finished a w' from hs] at hstep
    cases hstep with
    | pending more =>
        have hk : ¬ 5 ∣ past.calls + 1 := fun hk => h.clock.five_dvd_iff.1 hk more
        exact h.finished hpast (h.clock.succ hk rfl rfl) rfl rfl (answered_pending hk) (by simp)
    | overrun full busy =>
        have hk := h.clock.five_dvd_iff.2 full
        exact h.finished hpast (h.clock.step hk rfl rfl) rfl rfl
          (answered_overrun hk (h.busy.1 busy)) (by simp)
    | idle full free tier_eq =>
        have hk := h.clock.five_dvd_iff.2 full
        have hclock : AtTick (past.calls + 1) s.stepCadence := h.clock.step hk rfl rfl
        refine h.finished hpast ⟨hclock.subTicks, hclock.cadence⟩ free.symm rfl ?_ (by simp)
        rw [← tier_eq, ← hclock.tierAt_eq]
        exact answered_ran hk (h.not_held free)
  entered := by
    rintro past _ ⟨⟩ ⟨s, m⟩ tier w' resume hpast rfl h hs
    have hstep := ticked s m
    rw [show tick (s, m) = .entering tier w' resume from hs] at hstep
    cases hstep with
    | task full free tier_eq =>
        have hk := h.clock.five_dvd_iff.2 full
        have hclock : AtTick (past.calls + 1) s.stepCadence := h.clock.step hk rfl rfl
        exact h.task hpast hk ⟨hclock.subTicks, hclock.cadence⟩ free rfl rfl
          (hclock.tierAt_eq.trans tier_eq)
  left := by
    rintro past _ ⟨⟩ ⟨s, m⟩ tier w' resume nested ⟨s'', m''⟩ hpast rfl h hs hnested hin
    have hstep := ticked s m
    rw [show tick (s, m) = .entering tier w' resume from hs] at hstep
    have hnumbered := numbered_inside hpast () tier (s, m) hnested
    have hopen := open_inside hpast () tier (s, m) hnested
    refine ⟨hin.left hnumbered _ tier, ?_⟩
    -- the hook may have moved the clock and counted overruns: only the state it leaves is used
    cases hstep with
    | task => exact hin.returned hnumbered hopen (List.mem_append_right _ (.tail _ (.head _)))
  acted hpast h := h.acted hpast _

/-! ## The law of ticks -/

/-- What a scheduler shows after the ticks of `past`. -/
structure TickLaw (past : Ticks M) (w : Scheduler × M) : Prop where
  subTicks : w.1.subTicks.toNat = past.calls % 5
  cadence : w.1.cadence.toNat = past.calls / 5 % 256
  fits : w.1.subTicks.toNat + 1 < UInt8.size
  overruns : w.1.overruns.toNat = min 255 (overrunsIn past)
  busy : w.1.busy = true ↔ ∃ k, Open k past
  oneTask : ∀ i j, InHook i past → InHook j past → i = j

theorem Settled.tickLaw {past : Ticks M} {w : Scheduler × M} (h : Settled past w) :
    TickLaw past w where
  subTicks := h.clock.subTicks
  cadence := h.clock.cadence
  fits := by
    rw [h.clock.subTicks]
    show past.calls % 5 + 1 < 256
    omega
  overruns := h.overruns
  busy := h.busy
  oneTask i j hi hj := h.alone i j (h.hooked i hi) (h.hooked j hj)

/-- In every run of ticks, with any ticks nested in any tasks: what the scheduler shows at each
moment; every tick returns; its answer; and which task it enters. -/
theorem tick_reentry [InterruptControl M] (t : CallTree interface (M → M) (Scheduler × M)) (m : M) :
    let history : Ticks M := t.moments (component M) ({}, m)
    (∀ past now future, history = past ++ now :: future → now.At TickLaw past) ∧
      TickLaw history (t.run (component M) ({}, m)) ∧
      history.begun = List.range' 1 history.calls ∧
      (∀ k, 1 ≤ k → k ≤ history.calls → ∃ a, (k, ⟨(), a⟩) ∈ history.outcomes) ∧
      (∀ k a, (k, ⟨(), a⟩) ∈ history.outcomes →
        Answered k (∃ j, Open j (before k history)) a) ∧
      ∀ k tier, (∃ u, .entered k tier u ∈ history) ↔
        (k, ⟨(), .ran (some tier)⟩) ∈ history.outcomes := by
  intro history
  have hnumbered : Numbered history := numbered_moments (component M) t ({}, m)
  obtain ⟨hmoments, hend⟩ := invariant_settled.of_tree t (settled_start m)
  have hreturns : ∀ k, 1 ≤ k → k ≤ history.calls → ∃ a, (k, ⟨(), a⟩) ∈ history.outcomes := by
    intro k h1 hk
    obtain ⟨began, hmem, hbegan⟩ :=
      List.mem_filterMap.1 ((hnumbered.mem_begun_iff k).2 ⟨h1, hk⟩)
    cases began with
    | began j c u =>
        cases hbegan
        exact (runs_moments (component M) t ({}, m)).returns (fun _ => rfl) k c u hmem
    | entered | left | returned | acted => cases hbegan
  refine ⟨?_, hend.tickLaw, hnumbered.inOrder, hreturns, hend.accounted.answers, ?_⟩
  · intro past now future hsplit
    have hnow := hmoments past now future hsplit
    cases now with
    | began | entered | left | returned | acted => exact hnow.tickLaw
  · intro k tier
    refine ⟨fun ⟨u, hu⟩ => ?_, hend.accounted.entered k tier⟩
    obtain ⟨hk, htier, hheld⟩ := hend.accounted.tasks k tier u hu
    obtain ⟨h1, hle⟩ := hnumbered.le_of_mem_entries (List.mem_filterMap.2 ⟨_, hu, rfl⟩)
    obtain ⟨a, ha⟩ := hreturns k h1 hle
    have := (hend.accounted.answers k a ha).ran.2 ⟨hk, hheld⟩
    rwa [this, htier] at ha

end SerialGateway.Scheduler
