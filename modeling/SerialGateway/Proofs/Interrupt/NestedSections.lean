import SerialGateway.Bench.Control
import SerialGateway.Interrupt.Section
import SerialGateway.Proofs.Reentrant.Restricted

/-!
# Sections inside sections

The guard has one flag for all sections, so a section that begins inside another one overwrites what
the outer one has remembered. What it writes is that interrupts were masked, for they are. The error
is therefore on the safe side (`nested_sections_fail_safe`): interrupts stay masked until the
outermost section ends, and that end unmasks them only if they were enabled before and no other
section has come between.

`Silenced` is what holds inside, and `staysSilenced_of_runs` says that no nesting breaks it.
-/

set_option autoImplicit false

namespace SerialGateway

open History

/-- A count of the times at which a controller was told to unmask interrupts. -/
structure InterruptControl.CountsUnmaskings {M : Type} [InterruptControl M] (unmaskings : M → Nat) :
    Prop where
  query : ∀ m, unmaskings (InterruptControl.query m) = unmaskings m
  mask : ∀ m, unmaskings (InterruptControl.mask m) = unmaskings m
  unmask : ∀ m, unmaskings (InterruptControl.unmask m) = unmaskings m + 1

/-- The controller of the bench keeps count in its record. -/
theorem Bench.Control.countsUnmaskings : InterruptControl.CountsUnmaskings Bench.Control.unmaskings
    where
  query _ := List.count_cons_of_ne (by decide)
  mask _ := List.count_cons_of_ne (by decide)
  unmask _ := List.count_cons_self

namespace AtomicSection

variable {M : Type} [InterruptControl M]

/-- The calls with which sections can only nest: whole sections, and questions. -/
def Bracketed : Call → Prop
  | .free | .ask => True
  | .disable | .restore => False

/-- The history of a guard. -/
abbrev Guarded (M : Type) : Type := History interface (M → M) (AtomicSection M)

/-- No section begins. -/
def Sectionless (history : Guarded M) : Prop :=
  ∀ k s, .began k .free s ∉ history

/-! ## Inside a section -/

section Inside

variable (unmaskings : M → Nat)

/-- Interrupts are masked, and were not unmasked since the guard was in the state `s`. -/
structure Silenced (s w : AtomicSection M) : Prop where
  masked : w.isEnabled = false
  unmaskings_eq : unmaskings w.controller = unmaskings s.controller

/-- What whole sections and questions do from `s`, where interrupts are masked, to `v`. The flag
stays set only if there is no section. -/
structure StaysSilenced (s : AtomicSection M) (history : Guarded M) (v : AtomicSection M) :
    Prop where
  last : Silenced unmaskings s v
  moments : ∀ m ∈ history, Silenced unmaskings s m.world
  answers : ∀ k a u, .returned k .ask a u ∈ history → a = false
  wereEnabled_iff : v.wereEnabled = true ↔ s.wereEnabled = true ∧ Sectionless history

variable {unmaskings}

theorem Silenced.trans {s w v : AtomicSection M} (h : Silenced unmaskings s w)
    (h' : Silenced unmaskings w v) : Silenced unmaskings s v :=
  ⟨h'.masked, h'.unmaskings_eq.trans h.unmaskings_eq⟩

theorem StaysSilenced.nil {s : AtomicSection M} (hs : s.isEnabled = false) :
    StaysSilenced unmaskings s [] s where
  last := ⟨hs, rfl⟩
  moments := by simp
  answers := by simp
  wereEnabled_iff := by simp [Sectionless]

variable (hcounts : InterruptControl.CountsUnmaskings unmaskings)

include hcounts

theorem silenced_disable (s : AtomicSection M) : Silenced unmaskings s s.disable where
  masked := s.isEnabled_disable
  unmaskings_eq := (hcounts.mask _).trans (hcounts.query _)

/-- A question, and what comes after it. -/
theorem StaysSilenced.ask {s v : AtomicSection M} {rest : Guarded M} (k : Nat)
    (hs : s.isEnabled = false) (hrest : StaysSilenced unmaskings s.ask.2 rest v) :
    StaysSilenced unmaskings s (.began k .ask s :: .returned k .ask s.ask.1 s.ask.2 :: rest) v := by
  have hasked : Silenced unmaskings s s.ask.2 :=
    ⟨(InterruptControl.isEnabled_query s.controller).trans hs, hcounts.query _⟩
  refine ⟨hasked.trans hrest.last, ?_, ?_, ?_⟩
  · intro m hm
    simp only [List.mem_cons] at hm
    rcases hm with rfl | rfl | hm
    · exact ⟨hs, rfl⟩
    · exact hasked
    · exact hasked.trans (hrest.moments m hm)
  · intro j a u hm
    simp only [List.mem_cons, reduceCtorEq, false_or] at hm
    rcases hm with hm | hm
    · cases hm
      exact hs
    · exact hrest.answers j a u hm
  · rw [hrest.wereEnabled_iff]
    simp [Sectionless, AtomicSection.ask]

omit hcounts in
/-- An inner section has found interrupts masked, and so its end does nothing. -/
theorem StaysSilenced.restore_eq {s inside : AtomicSection M} {nested : Guarded M}
    (hs : s.isEnabled = false) (hnested : StaysSilenced unmaskings s.disable nested inside) :
    inside.restore = inside := by
  have hforgot : inside.wereEnabled = false := by
    rw [Bool.eq_false_iff, ne_eq, hnested.wereEnabled_iff]
    simp [disable, hs]
  simp [restore, hforgot]

/-- An inner section, and what comes after it. -/
theorem StaysSilenced.section {s inside v : AtomicSection M} {nested rest : Guarded M} (k : Nat)
    (hs : s.isEnabled = false) (hnested : StaysSilenced unmaskings s.disable nested inside)
    (hrest : StaysSilenced unmaskings inside.restore rest v) :
    StaysSilenced unmaskings s (.began k .free s :: .entered k () s.disable ::
      (nested ++ .left k () inside :: .returned k .free () inside.restore :: rest)) v := by
  rw [hnested.restore_eq hs] at hrest ⊢
  have hentered : Silenced unmaskings s s.disable := silenced_disable hcounts s
  have hleft : Silenced unmaskings s inside := hentered.trans hnested.last
  refine ⟨hleft.trans hrest.last, ?_, ?_, ?_⟩
  · intro m hm
    simp only [List.mem_cons, List.mem_append] at hm
    rcases hm with rfl | rfl | hm | rfl | rfl | hm
    · exact ⟨hs, rfl⟩
    · exact hentered
    · exact hentered.trans (hnested.moments m hm)
    · exact hleft
    · exact hleft
    · exact hleft.trans (hrest.moments m hm)
  · intro j a u hm
    simp only [List.mem_cons, List.mem_append, reduceCtorEq, false_or] at hm
    rcases hm with hm | hm | hm
    · exact hnested.answers j a u hm
    · cases hm
    · exact hrest.answers j a u hm
  · -- the flag was lost when the section began
    have hforgot : ¬ inside.wereEnabled = true := by
      rw [hnested.wereEnabled_iff]
      simp [disable, hs]
    rw [hrest.wereEnabled_iff]
    refine iff_of_false (fun h => hforgot h.1) (fun h => ?_)
    exact h.2 k s (.head _)

/-- No nesting of sections and questions unmasks interrupts. -/
theorem staysSilenced_of_runs {k : Nat} {s v : AtomicSection M} {history : Guarded M}
    (h : Runs (component M) k s history v)
    (hcalls : ∀ j c u, .began j c u ∈ history → Bracketed c) (hquiet : ∀ e u, .acted e u ∉ history)
    (hs : s.isEnabled = false) : StaysSilenced unmaskings s history v := by
  induction h with
  | done => exact .nil hs
  | @finished k c s _ _ _ rest hstart _ ih =>
      have hc := hcalls k c s (.head _)
      cases c with
      | ask =>
          cases hstart
          apply StaysSilenced.ask hcounts k hs
          apply ih
          · exact fun j c u hm => hcalls j c u (by simp [hm])
          · exact fun e u hm => hquiet e u (by simp [hm])
          · exact (InterruptControl.isEnabled_query s.controller).trans hs
      | free => cases hstart
      | disable | restore => exact hc.elim
  | halted _ _ hin => cases hin
  | @entering k c s _ inside _ _ _ nested rest hstart _ _ ihNested ihRest =>
      have hc := hcalls k c s (.head _)
      cases c with
      | free =>
          cases hstart
          have hnested : StaysSilenced unmaskings s.disable nested inside := by
            apply ihNested
            · exact fun j c u hm => hcalls j c u (by simp [hm])
            · exact fun e u hm => hquiet e u (by simp [hm])
            · exact s.isEnabled_disable
          apply StaysSilenced.section hcounts k hs hnested
          apply ihRest
          · exact fun j c u hm => hcalls j c u (by simp [hm])
          · exact fun e u hm => hquiet e u (by simp [hm])
          · show inside.restore.isEnabled = false
            rw [hnested.restore_eq hs]
            exact hnested.last.masked
      | ask => cases hstart
      | disable | restore => exact hc.elim
  | @acted k e s v rest _ _ => exact absurd (.head _) (hquiet e _)

end Inside

/-! ## The outermost section -/

/-- The end of a section in which interrupts stayed masked unmasks them exactly if the flag is
set. -/
theorem Silenced.restore {unmaskings : M → Nat}
    (hcounts : InterruptControl.CountsUnmaskings unmaskings) {s w : AtomicSection M}
    (h : Silenced unmaskings s w) :
    w.restore.isEnabled = w.wereEnabled ∧
      unmaskings w.restore.controller =
        unmaskings s.controller + if w.wereEnabled then 1 else 0 := by
  cases hflag : w.wereEnabled with
  | true =>
      rw [AtomicSection.restore, if_pos hflag]
      refine ⟨InterruptControl.isEnabled_unmask _, ?_⟩
      rw [if_pos rfl, ← h.unmaskings_eq]
      exact hcounts.unmask _
  | false =>
      rw [AtomicSection.restore, hflag]
      exact ⟨h.masked, h.unmaskings_eq⟩

/-- What happens first, last, or in between. -/
theorem first_or_between_or_last {α : Type} {first last now : α} {between past future : List α}
    (h : first :: between ++ [last] = past ++ now :: future) :
    past = [] ∧ now = first ∨ now ∈ between ∨ now = last := by
  cases past with
  | nil =>
      cases h
      exact .inl ⟨rfl, rfl⟩
  | cons head past =>
      have hrest : between ++ [last] = past ++ now :: future := (List.cons.inj h).2
      rcases List.eq_nil_or_concat future with rfl | ⟨future, end_, rfl⟩
      · obtain ⟨-, hlast⟩ := List.append_inj' hrest rfl
        cases hlast
        exact .inr (.inr rfl)
      · rw [List.concat_eq_append, ← List.cons_append, ← List.append_assoc] at hrest
        obtain ⟨hbetween, -⟩ := List.append_inj' hrest rfl
        exact .inr (.inl (by simp [hbetween]))

/-- What happens in a section that begins as the first call. -/
def sectionMoments (body : CallTree interface (M → M) (AtomicSection M)) (s : AtomicSection M) :
    Guarded M :=
  CallTree.moments (component M) (.call .free (fun _ => body) fun _ => .done) s

theorem sectionMoments_eq (body : CallTree interface (M → M) (AtomicSection M))
    (s : AtomicSection M) :
    let inside := body.run (component M) s.disable
    sectionMoments body s =
      .began 1 .free s :: (.entered 1 () s.disable :: body.momentsFrom (component M) 2 s.disable ++
        [.left 1 () inside]) ++ [.returned 1 .free () inside.restore] := by
  simp [sectionMoments, CallTree.moments, CallTree.momentsFrom, component, start]

/-- The calls of the body have other numbers than the section. -/
theorem two_le_number (body : CallTree interface (M → M) (AtomicSection M)) (s : AtomicSection M) :
    ∀ m ∈ body.momentsFrom (component M) 2 s, ∀ k, m.number? = some k → 2 ≤ k := by
  intro m hm k hk
  exact ((runs_momentsFrom (component M) body 2 s).number_range m hm k hk).1

/-- A section that begins in `s`, around a body in which sections only nest. Interrupts are masked,
and are not unmasked, at every moment inside the section, and whoever asks there is told so. The
section ends, and then interrupts are enabled exactly if they were enabled before and no other
section began inside. Only then were they unmasked, and that was once. -/
theorem nested_sections_fail_safe {unmaskings : M → Nat}
    (hcounts : InterruptControl.CountsUnmaskings unmaskings) (s : AtomicSection M)
    (body : CallTree interface (M → M) (AtomicSection M))
    (hbody : body.Only Bracketed fun _ => False) :
    let history := sectionMoments body s
    (∀ past now future, history = past ++ now :: future → Open 1 (past ++ [now]) →
        Silenced unmaskings s now.world) ∧
      (∀ k a u, .returned k .ask a u ∈ history → a = false) ∧
      ∃ v, (∀ u, .returned 1 .free () u ∈ history ↔ u = v) ∧
        (v.isEnabled = true ↔ s.isEnabled = true ∧ ∀ k u, .began k .free u ∈ history → k = 1) ∧
        unmaskings v.controller = unmaskings s.controller + if v.isEnabled then 1 else 0 := by
  intro history
  let inside := body.run (component M) s.disable
  have hinner : StaysSilenced unmaskings s.disable
      (body.momentsFrom (component M) 2 s.disable) inside := by
    apply staysSilenced_of_runs hcounts (runs_momentsFrom (component M) body 2 s.disable)
    · exact fun j c u hm => (hbody.moments 2 s.disable _ hm).1 j c u rfl
    · exact fun e u hm => (hbody.moments 2 s.disable _ hm).2 e u rfl
    · exact s.isEnabled_disable
  have hentered : Silenced unmaskings s s.disable := silenced_disable hcounts s
  have hleft : Silenced unmaskings s inside := hentered.trans hinner.last
  obtain ⟨henabled, hcount⟩ := hleft.restore hcounts
  have hnumber := two_le_number body s.disable
  have hhistory := sectionMoments_eq body s
  refine ⟨?_, ?_, inside.restore, ?_, ?_, ?_⟩
  · intro past now future hsplit hopen
    rcases first_or_between_or_last (hhistory.symm.trans hsplit) with ⟨rfl, rfl⟩ | hnow | rfl
    · simp [Open] at hopen
    · simp only [List.mem_cons, List.mem_append, List.cons_append, List.not_mem_nil, or_false]
        at hnow
      rcases hnow with rfl | hnow | rfl
      · exact hentered
      · exact hentered.trans (hinner.moments now hnow)
      · exact hleft
    · simp [Open] at hopen
  · intro k a u hm
    have hbodyMoment : .returned k .ask a u ∈ body.momentsFrom (component M) 2 s.disable := by
      simpa [history, hhistory] using hm
    exact hinner.answers k a u hbodyMoment
  · intro u
    simp only [history, hhistory, List.mem_cons, List.mem_append, List.cons_append, reduceCtorEq,
      List.not_mem_nil, false_or, or_false]
    refine ⟨?_, ?_⟩
    · rintro (hm | hm)
      · have := hnumber _ hm 1 rfl
        omega
      · cases hm
        rfl
    · rintro rfl
      exact .inr rfl
  · rw [henabled, hinner.wereEnabled_iff]
    refine and_congr Iff.rfl ⟨?_, ?_⟩
    · intro hnone k u hm
      simp only [history, hhistory, List.mem_cons, List.mem_append, List.cons_append, reduceCtorEq,
        List.not_mem_nil, false_or, or_false] at hm
      rcases hm with hm | hm
      · cases hm
        rfl
      · exact absurd hm (hnone k u)
    · intro honly k u hm
      have hfirst := honly k u (by simp [history, hhistory, hm])
      have := hnumber _ hm k rfl
      omega
  · rw [hcount, henabled]

open Bench in
/-- A section around a question, and one around a section with a question inside, both begun with
interrupts enabled and a flag from before. The first one ends with interrupts enabled, and the
second one with interrupts masked. -/
theorem nested_sections_fail_safe_one_inside :
    let s : AtomicSection Control := ⟨{ enabled := true }, true⟩
    let plain : CallTree interface (Control → Control) (AtomicSection Control) :=
      .call .ask (fun _ => .done) fun _ => .done
    let nesting : CallTree interface (Control → Control) (AtomicSection Control) :=
      .call .free (fun _ => plain) fun _ => plain
    InterruptControl.CountsUnmaskings Control.unmaskings ∧
      plain.Only Bracketed (fun _ => False) ∧ nesting.Only Bracketed (fun _ => False) ∧
      (∃ v, .returned 1 .free () v ∈ sectionMoments plain s ∧ v.isEnabled = true ∧
        v.controller.unmaskings = 1) ∧
      ∃ v, .returned 1 .free () v ∈ sectionMoments nesting s ∧ v.isEnabled = false ∧
        v.controller.unmaskings = 0 := by
  intro s plain nesting
  have hplain : plain.Only Bracketed (fun _ => False) := by simp [plain, CallTree.Only, Bracketed]
  have hnesting : nesting.Only Bracketed (fun _ => False) := by
    simp [nesting, plain, CallTree.Only, Bracketed]
  obtain ⟨-, -, v, hv, henabled, hcount⟩ :=
    nested_sections_fail_safe Control.countsUnmaskings s plain hplain
  obtain ⟨-, -, v', hv', henabled', hcount'⟩ :=
    nested_sections_fail_safe Control.countsUnmaskings s nesting hnesting
  have hplainMoments : sectionMoments plain s = [.began 1 .free _, .entered 1 () _, .began 2 .ask _,
    .returned 2 .ask _ _, .left 1 () _, .returned 1 .free () _] := rfl
  have hnestingMoments : ∃ u rest, sectionMoments nesting s =
    .began 1 .free s :: .entered 1 () s.disable :: .began 2 .free u :: rest := ⟨_, _, rfl⟩
  have hon : v.isEnabled = true := henabled.2 ⟨rfl, by simp [hplainMoments]⟩
  have hoff : v'.isEnabled = false := by
    obtain ⟨u, rest, hmoments⟩ := hnestingMoments
    rw [Bool.eq_false_iff, ne_eq, henabled']
    rintro ⟨-, honly⟩
    have := honly 2 u (by simp [hmoments])
    omega
  rw [hon] at hcount
  rw [hoff] at hcount'
  exact ⟨Control.countsUnmaskings, hplain, hnesting, ⟨v, (hv v).2 rfl, hon, hcount⟩,
    v', (hv' v').2 rfl, hoff, hcount'⟩

end AtomicSection

end SerialGateway
