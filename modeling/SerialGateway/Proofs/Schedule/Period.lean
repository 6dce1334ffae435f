import Mathlib.Data.Nat.ModEq
import Mathlib.Data.Nat.Periodic
import SerialGateway.Bench.Control
import SerialGateway.Proofs.Reentrant.Hooks
import SerialGateway.Proofs.Reentrant.Linear
import SerialGateway.Proofs.Schedule.Reentry

/-!
# The periods of the tiers

While no tick arrives during a task, the tasks that a run enters depend on the numbers of its ticks
alone: tick `5 * k` enters the task of the tier whose bit is the lowest one set in `k`, and no other
tick enters any (`tier_period`). Every tier therefore has a period of its own, which never drifts:
neither the wrap of the cadence at 256 nor the length of the run shows in it.

`due` is the task of a tick. `mem_due_iff` reads it as a congruence, from which the distance of two
runs of a tier and the number of its runs in a window follow.
-/

set_option autoImplicit false

namespace SerialGateway

/-! ## The task of a tick -/

namespace Tier

theorem period_eq (t : Tier) : t.period = 2 ^ t.index := Nat.one_shiftLeft t.index

theorem index_lt (t : Tier) : t.index < 8 := by cases t <;> decide

/-- The tier of a cadence that has wrapped is told by the steps so far, as if it never did. -/
theorem ofCadence?_wrapped_eq_some_iff (k : Nat) (t : Tier) :
    ofCadence? (UInt8.ofNat (k % 256)) = some t ↔ k ≡ 2 ^ t.index [MOD 2 ^ (t.index + 1)] := by
  have hlt : k % 256 < 2 ^ 8 := Nat.mod_lt k (by decide)
  have hdvd : 2 ^ (t.index + 1) ∣ 256 := Nat.pow_dvd_pow 2 t.index_lt
  have hself : 2 ^ t.index % 2 ^ (t.index + 1) = 2 ^ t.index :=
    Nat.mod_eq_of_lt (Nat.pow_lt_pow_succ (by decide))
  rw [ofCadence?_eq_some_iff, UInt8.toNat_ofNat_of_lt' hlt, period_eq, ← Nat.pow_succ',
    Nat.mod_mod_of_dvd k hdvd, Nat.ModEq, hself]

end Tier

namespace Scheduler

open History

/-- The task that tick `n` has to enter, if it is a cadence step that has one. -/
def due (n : Nat) : Option Tier := if 5 ∣ n then tierAt n else none

theorem due_step (k : Nat) : due (5 * k) = Tier.ofCadence? (UInt8.ofNat (k % 256)) := by
  rw [due, if_pos (Nat.dvd_mul_right 5 k), tierAt, Nat.mul_div_cancel_left k (by decide)]

theorem mem_due_iff (n : Nat) (tier : Tier) :
    due n = some tier ↔ ∃ k, n = 5 * k ∧ k ≡ 2 ^ tier.index [MOD 2 ^ (tier.index + 1)] := by
  constructor
  · intro h
    by_cases hn : 5 ∣ n
    · obtain ⟨k, rfl⟩ := hn
      rw [due_step, Tier.ofCadence?_wrapped_eq_some_iff] at h
      exact ⟨k, rfl, h⟩
    · rw [due, if_neg hn] at h
      cases h
  · rintro ⟨k, rfl, hk⟩
    rw [due_step, Tier.ofCadence?_wrapped_eq_some_iff]
    exact hk

/-- The distance between two runs of a tier. -/
def spacing (tier : Tier) : Nat := 5 * 2 ^ (tier.index + 1)

theorem due_iff_mod (n : Nat) (tier : Tier) :
    due n = some tier ↔ n ≡ 5 * 2 ^ tier.index [MOD spacing tier] := by
  rw [mem_due_iff]
  constructor
  · rintro ⟨k, rfl, hk⟩
    exact hk.mul_left' 5
  · intro hn
    have hdvd : 5 ∣ n := by
      rw [hn.dvd_iff (Nat.dvd_mul_right 5 _)]
      exact Nat.dvd_mul_right 5 _
    obtain ⟨k, rfl⟩ := hdvd
    exact ⟨k, rfl, Nat.ModEq.mul_left_cancel' (by decide) hn⟩

/-- Two ticks that enter the same task, and none between them does, are one spacing apart. -/
theorem eq_add_spacing {a b : Nat} {tier : Tier} (hab : a < b) (ha : due a = some tier)
    (hb : due b = some tier) (hbetween : ∀ n, a < n → n < b → due n ≠ some tier) :
    b = a + spacing tier := by
  rw [due_iff_mod] at ha hb
  have hpos : 0 < spacing tier := Nat.mul_pos (by decide) (Nat.two_pow_pos _)
  have hnext : due (a + spacing tier) = some tier := by
    rw [due_iff_mod, Nat.ModEq, Nat.add_mod_right]
    exact ha
  -- the two are congruent, so at least one spacing lies between them
  have hle : a + spacing tier ≤ b := by
    have hdvd : spacing tier ∣ b - a := (Nat.modEq_iff_dvd' hab.le).1 (ha.trans hb.symm)
    have := Nat.le_of_dvd (by omega) hdvd
    omega
  rcases hle.lt_or_eq with hlt | heq
  · exact absurd hnext (hbetween _ (by omega) hlt)
  · exact heq.symm

/-- What depends on the step of the cadence alone is as frequent in every window of 256 steps as in
the first. -/
theorem card_window (s : Nat) (p : Option Tier → Prop) [DecidablePred p] :
    ((Finset.Ioc s (s + 256)).filter fun k => p (due (5 * k))).card =
      Nat.count (fun k => p (Tier.ofCadence? (UInt8.ofNat (k % 256)))) 256 := by
  have hwindow : Finset.Ioc s (s + 256) = Finset.Ico (s + 1) (s + 1 + 256) := by
    ext k
    simp only [Finset.mem_Ioc, Finset.mem_Ico]
    omega
  simp only [due_step]
  rw [hwindow, Nat.filter_Ico_card_eq_of_periodic]
  intro k
  show p (Tier.ofCadence? (UInt8.ofNat ((k + 256) % 256))) = _
  rw [Nat.add_mod_right]

theorem card_due_window (s : Nat) (tier : Tier) :
    ((Finset.Ioc s (s + 256)).filter fun k => due (5 * k) = some tier).card =
      128 / 2 ^ tier.index := by
  rw [card_window s (· = some tier)]
  cases tier <;> decide +kernel

theorem card_none_window (s : Nat) :
    ((Finset.Ioc s (s + 256)).filter fun k => due (5 * k) = none).card = 1 := by
  rw [card_window s (· = none)]
  decide +kernel

/-! ## The tasks of a run -/

variable {M : Type} [InterruptControl M]

/-- A tick that finds the scheduler free enters the task that is due. -/
theorem hook?_tick {n : Nat} {s : Scheduler} (m : M) (h : AtTick n s) (hfree : s.busy = false) :
    (tick (s, m)).hook? = due (n + 1) := by
  have hstep := ticked s m
  generalize tick (s, m) = step at hstep
  rw [due]
  cases hstep with
  | pending more =>
      rw [if_neg fun hn => h.five_dvd_iff.1 hn more]
      rfl
  | overrun _ busy =>
      rw [hfree] at busy
      cases busy
  | idle full _ tier_eq =>
      have hn := h.five_dvd_iff.2 full
      have hclock : AtTick (n + 1) s.stepCadence := h.step hn rfl rfl
      rw [if_pos hn, hclock.tierAt_eq, tier_eq]
      rfl
  | task full _ tier_eq =>
      have hn := h.five_dvd_iff.2 full
      have hclock : AtTick (n + 1) s.stepCadence := h.step hn rfl rfl
      rw [if_pos hn, hclock.tierAt_eq, tier_eq]
      rfl

/-- Where no tick begins during a task, tick `n` enters the task that is due, and no other. -/
theorem hooksOf_eq_due (t : CallTree interface (M → M) (Scheduler × M)) (m : M) {history : Ticks M}
    (hhistory : history = t.moments (component M) ({}, m))
    (halone : ∀ k ∈ history.begun, ∀ j, ¬ InHook j (before k history)) {n : Nat} (h1 : 1 ≤ n)
    (hn : n ≤ history.calls) : history.hooksOf n = (due n).toList := by
  have hrun := runs_moments (component M) t ({}, m)
  obtain ⟨hsettled, -⟩ := invariant_settled.of_tree t (settled_start m)
  rw [← hhistory] at hrun hsettled
  have hnumbered : Numbered history := hrun.numbered_append numbered_nil
  obtain ⟨began, hmem, hbegan⟩ :=
    List.mem_filterMap.1 ((hnumbered.mem_begun_iff n).2 ⟨h1, hn⟩)
  cases began with
  | began k c u =>
      cases hbegan
      obtain ⟨past, future, hsplit⟩ := List.append_of_mem hmem
      have hnow : Settled past u := hsettled past _ future hsplit
      -- a busy scheduler would be in a task
      have hfree : u.1.busy = false := by
        rw [Bool.eq_false_iff, Ne, hnow.busy]
        rintro ⟨j, hj⟩
        refine halone n (mem_begun hmem) j ?_
        rw [hnumbered.before_eq hsplit]
        exact hrun.inHook_of_open (fun _ => rfl) hsplit hj
      rw [hrun.hooksOf_eq hsplit, hnumbered.number_eq hsplit, ← hook?_tick u.2 hnow.clock hfree]
      rfl
  | entered | left | returned | acted => cases hbegan

/-- In every run in which no tick begins during a task: the task of a tier is entered by the ticks
`5 * k` with `k` in the residue class of the tier, once and alone; two successive runs of a tier are
always the same number of ticks apart; and in every window of 256 cadence steps the tiers run 128,
64, 32, 16, 8, 4, 2 and 1 times, while one step runs none. -/
theorem tier_period (t : CallTree interface (M → M) (Scheduler × M)) (m : M) :
    let history : Ticks M := t.moments (component M) ({}, m)
    (∀ k ∈ history.begun, ∀ j, ¬ InHook j (before k history)) →
      (∀ n, 1 ≤ n → n ≤ history.calls → ∀ tier : Tier,
        (tier ∈ history.hooksOf n ↔
          ∃ k, n = 5 * k ∧ k ≡ 2 ^ tier.index [MOD 2 ^ (tier.index + 1)]) ∧
        (tier ∈ history.hooksOf n → history.hooksOf n = [tier])) ∧
      (∀ a b, 1 ≤ a → a < b → b ≤ history.calls → ∀ tier : Tier,
        tier ∈ history.hooksOf a → tier ∈ history.hooksOf b →
        (∀ n, a < n → n < b → tier ∉ history.hooksOf n) →
        b = a + 5 * 2 ^ (tier.index + 1)) ∧
      ∀ s, 5 * (s + 256) ≤ history.calls →
        (∀ tier : Tier,
          ((Finset.Ioc s (s + 256)).filter fun k => tier ∈ history.hooksOf (5 * k)).card =
            128 / 2 ^ tier.index) ∧
        ((Finset.Ioc s (s + 256)).filter fun k => history.hooksOf (5 * k) = []).card = 1 := by
  intro history halone
  have hdue : ∀ n, 1 ≤ n → n ≤ history.calls → history.hooksOf n = (due n).toList :=
    fun n h1 hn => hooksOf_eq_due t m rfl halone h1 hn
  refine ⟨?_, ?_, ?_⟩
  · intro n h1 hn tier
    rw [hdue n h1 hn, ← mem_due_iff, Option.mem_toList]
    refine ⟨Iff.rfl, fun h => ?_⟩
    rw [h, Option.toList_some]
  · intro a b h1 hab hb tier ha hbtier hbetween
    rw [hdue a h1 (by omega), Option.mem_toList] at ha
    rw [hdue b (by omega) hb, Option.mem_toList] at hbtier
    refine eq_add_spacing hab ha hbtier fun n han hnb hdueN => hbetween n han hnb ?_
    rw [hdue n (by omega) (by omega), Option.mem_toList]
    exact hdueN
  · intro s hs
    have hwindow : ∀ k ∈ Finset.Ioc s (s + 256),
        history.hooksOf (5 * k) = (due (5 * k)).toList := by
      intro k hk
      rw [Finset.mem_Ioc] at hk
      exact hdue (5 * k) (by omega) (by omega)
    refine ⟨fun tier => ?_, ?_⟩
    · rw [← card_due_window s tier]
      refine congrArg Finset.card (Finset.filter_congr fun k hk => ?_)
      rw [hwindow k hk, Option.mem_toList]
    · rw [← card_none_window s]
      refine congrArg Finset.card (Finset.filter_congr fun k hk => ?_)
      rw [hwindow k hk, Option.toList_eq_nil_iff]

/-- Twenty ticks one after another: the last one enters the task of every fourth millisecond. -/
theorem tier_period_twenty_ticks :
    let t : CallTree interface (Bench.Control → Bench.Control) (Scheduler × Bench.Control) :=
      .flat (List.replicate 20 (.call ()))
    let history : Ticks Bench.Control :=
      t.moments (component Bench.Control) ({}, { enabled := true })
    (∀ k ∈ history.begun, ∀ j, ¬ InHook j (before k history)) ∧ history.hooksOf 20 = [.ms4] := by
  intro t history
  have hleft : ∀ k ∈ history.begun, ∀ j ∈ (before k history).entries,
      j ∈ (before k history).exits := by decide +kernel
  have halone : ∀ k ∈ history.begun, ∀ j, ¬ InHook j (before k history) :=
    fun k hk j hin => hin.2 (hleft k hk j hin.1)
  have hperiod :=
    (tier_period t { enabled := true } halone).1 20 (by decide) (by decide +kernel) .ms4
  exact ⟨halone, hperiod.2 (hperiod.1.2 ⟨4, rfl, rfl⟩)⟩

end Scheduler

end SerialGateway
