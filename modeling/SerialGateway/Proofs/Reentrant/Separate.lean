import SerialGateway.Proofs.Reentrant.Linear
import SerialGateway.Proofs.Reentrant.Remembered

/-!
# Parts that do not interfere

Some of the requests to a component are mine, and some of its world is mine to view. The component
keeps the two `Separate` if my requests read and change nothing but my view, and all others leave it
alone. Then all others can be struck out of a run: my calls answer as they do in the flat run of my
requests alone, from any world with the same view (`Separate.purge`). Two runs with the same
requests of mine therefore give me the same answers (`Separate.agree`).

My calls may enter hooks, in which nothing must happen (`CallTree.Quiet`). The hooks of the others
may do what they like, also make requests of mine.
-/

set_option autoImplicit false

namespace SerialGateway

variable {I : Interface} {E W V : Type}

open History

/-! ## Quiet trees -/

/-- Nothing happens in the silent hooks, throughout the tree. -/
def CallTree.Quiet (silent : I.Hook → Prop) : CallTree I E W → Prop
  | .done => True
  | .call _ hook next =>
      (∀ h, silent h → hook h = .done) ∧ (∀ h, (hook h).Quiet silent) ∧ ∀ a, (next a).Quiet silent
  | .act _ next => ∀ w, (next w).Quiet silent

/-- In a flat run nothing happens in any hook. -/
theorem CallTree.quiet_flat (silent : I.Hook → Prop) (reqs : List (Request I E)) :
    (CallTree.flat reqs : CallTree I E W).Quiet silent := by
  induction reqs with
  | nil => trivial
  | cons req reqs ih =>
      cases req with
      | call c => exact ⟨fun _ _ => rfl, fun _ => trivial, fun _ => ih⟩
      | act e => exact fun _ => ih

/-! ## My answers -/

/-- The call that a request makes. -/
def Request.call? : Request I E → Option I.Call
  | .call c => some c
  | .act _ => none

namespace History

/-- My calls with their answers, in the order in which they returned. -/
def answers (mine : Request I E → Bool) (history : History I E W) :
    List ((c : I.Call) × I.Answer c) :=
  (history.outcomes.map Prod.snd).filter fun returned => mine (.call returned.1)

/-- My requests, in the order in which they began. -/
def requestsOf (mine : Request I E → Bool) (history : History I E W) : List (Request I E) :=
  history.requests.filter mine

variable (mine : Request I E → Bool) (a b : History I E W)

@[simp] theorem answers_append : answers mine (a ++ b) = answers mine a ++ answers mine b := by
  simp [answers]

@[simp] theorem requestsOf_append :
    requestsOf mine (a ++ b) = requestsOf mine a ++ requestsOf mine b := by
  simp [requestsOf]

end History

/-! ## Separate components -/

/-- The steps answer the same and leave the same view, if nothing happens in their hooks. -/
def Step.Alike {Hook A : Type} (view : W → V) (s s' : Step Hook W A) : Prop :=
  s.uneventful.1 = s'.uneventful.1 ∧ view s.uneventful.2 = view s'.uneventful.2

/-- My requests read and change nothing but what `view` shows, with hooks that are silent, and all
others leave alone what it shows. -/
structure Separate (C : Component I W E) (silent : I.Hook → Prop) (view : W → V)
    (mine : Request I E → Bool) : Prop where
  running : ∀ w, C.halted w = false
  act : ∀ e {w u}, mine (.act e) = true → view w = view u → view (C.act e w) = view (C.act e u)
  call : ∀ c {w u}, mine (.call c) = true → view w = view u →
    (C.start c w).Alike view (C.start c u)
  silent : ∀ {c w h w' resume}, mine (.call c) = true → C.start c w = .entering h w' resume →
    silent h
  others_act : ∀ e w, mine (.act e) = false → view (C.act e w) = view w
  others_call : ∀ c w, mine (.call c) = false → (C.start c w).Shows view (view w)

/-- A history that ends in `v` gives me what the flat run of my requests from `u` gives me. -/
structure PurgesTo (C : Component I W E) (view : W → V) (mine : Request I E → Bool)
    (history : History I E W) (v u : W) : Prop where
  view_eq : view v = view ((CallTree.flat (history.requestsOf mine)).run C u)
  answers_eq : ∀ j, history.answers mine =
    answers mine ((CallTree.flat (history.requestsOf mine)).momentsFrom C j u)

variable {C : Component I W E} {silent : I.Hook → Prop} {view : W → V} {mine : Request I E → Bool}

namespace PurgesTo

/-- What is not mine can be struck out. -/
theorem others {history : History I E W} {v u : W} (hv : view v = view u)
    (hrequests : history.requestsOf mine = []) (hanswers : history.answers mine = []) :
    PurgesTo C view mine history v u where
  view_eq := by
    rw [hrequests]
    exact hv
  answers_eq := by
    intro j
    rw [hrequests, hanswers]
    rfl

/-- One piece of a history after another. -/
theorem append (hC : ∀ w, C.halted w = false) {a b : History I E W} {w v u : W}
    (ha : PurgesTo C view mine a w u)
    (hb : ∀ u', view w = view u' → PurgesTo C view mine b v u') :
    PurgesTo C view mine (a ++ b) v u := by
  obtain ⟨hend, hrest⟩ := hb _ ha.view_eq
  constructor
  · rw [requestsOf_append, run_flat_append hC]
    exact hend
  · intro j
    rw [requestsOf_append, momentsFrom_flat_append hC, answers_append, answers_append,
      ha.answers_eq j, hrest]

end PurgesTo

namespace Separate

variable (hC : Separate C silent view mine)

include hC

/-- A call of mine, from its beginning to its return. -/
theorem purge_call {c : I.Call} (hmine : mine (.call c) = true) (k : Nat) {w u : W}
    (hu : view w = view u) :
    PurgesTo C view mine (.began k c w :: ((C.start c w).visit k ++
        [.returned k c (C.start c w).uneventful.1 (C.start c w).uneventful.2]))
      (C.start c w).uneventful.2 u := by
  obtain ⟨hanswer, hview⟩ := hC.call c hmine hu
  have hrequests : requestsOf mine (.began k c w :: ((C.start c w).visit k ++
      [.returned k c (C.start c w).uneventful.1 (C.start c w).uneventful.2])) = [.call c] := by
    simp [requestsOf, hmine]
  constructor
  · rw [hrequests, run_flat_call hC.running]
    exact hview
  · intro j
    rw [hrequests, momentsFrom_flat_call hC.running]
    simp [answers, hmine, hanswer, CallTree.flat, CallTree.momentsFrom]

/-- A doing of the surroundings. -/
theorem purge_act (e : E) {w u : W} (hu : view w = view u) :
    PurgesTo C view mine [.acted e (C.act e w)] (C.act e w) u := by
  cases hmine : mine (.act e) with
  | true =>
      have hrequests : requestsOf mine [.acted e (C.act e w)] = [.act e] := by
        simp [requestsOf, hmine]
      constructor
      · rw [hrequests, run_flat_act hC.running]
        exact hC.act e hmine hu
      · intro j
        rw [hrequests, momentsFrom_flat_act hC.running]
        rfl
  | false =>
      apply PurgesTo.others
      · exact (hC.others_act e w hmine).trans hu
      · simp [requestsOf, hmine]
      · rfl

/-- The requests of others can be struck out of a run. -/
theorem purge {t : CallTree I E W} (ht : t.Quiet silent) (k : Nat) {w u : W}
    (hu : view w = view u) :
    PurgesTo C view mine (t.momentsFrom C k w) (t.run C w) u := by
  -- the history falls into the pieces of the single requests, and each is purged by itself
  induction t generalizing k w u with
  | done => exact .others hu rfl rfl
  | call c hook next ihHook ihNext =>
      obtain ⟨hdone, hhook, hnext⟩ := ht
      cases hmine : mine (.call c) with
      | true =>
          have hquiet : ∀ {h w' resume}, C.start c w = .entering h w' resume → hook h = .done :=
            fun hs => hdone _ (hC.silent hmine hs)
          rw [run_call_of_done hC.running hquiet, momentsFrom_call_of_done hC.running hquiet]
          have hall := (hC.purge_call hmine k hu).append hC.running
            fun u' hu' => ihNext (C.start c w).uneventful.1 (hnext _) (k + 1) hu'
          simpa using hall
      | false =>
          have hshows := hC.others_call c w hmine
          simp only [CallTree.momentsFrom, CallTree.run, hC.running, Bool.false_eq_true, if_false]
          cases hs : C.start c w with
          | finished a w' =>
              rw [hs] at hshows
              have hnow : PurgesTo C view mine [.began k c w, .returned k c a w'] w' u := by
                apply PurgesTo.others (hshows.trans hu)
                · simp [requestsOf, hmine]
                · simp [answers, hmine]
              exact hnow.append hC.running fun u' hu' => ihNext a (hnext a) (k + 1) hu'
          | entering h w' resume =>
              rw [hs] at hshows
              obtain ⟨hentered, hresume⟩ := hshows
              have hbefore : PurgesTo C view mine [.began k c w, .entered k h w'] w' u := by
                apply PurgesTo.others (hentered.trans hu)
                · simp [requestsOf, hmine]
                · rfl
              have hafter : ∀ inside u', view inside = view u' → PurgesTo C view mine
                  [.left k h inside, .returned k c (resume inside).1 (resume inside).2]
                  (resume inside).2 u' := by
                intro inside u' hu'
                apply PurgesTo.others ((hresume inside).trans hu')
                · rfl
                · simp [answers, hmine]
              -- before the hook, inside it, and after it
              apply hbefore.append hC.running
              intro u₁ h₁
              apply (ihHook h (hhook h) (k + 1) h₁).append hC.running
              intro u₂ h₂
              apply (hafter _ u₂ h₂).append hC.running
              intro u₃ h₃
              exact ihNext _ (hnext _) _ h₃
  | act e next ih =>
      simp only [CallTree.momentsFrom, CallTree.run, hC.running, Bool.false_eq_true, if_false]
      apply (hC.purge_act e hu).append hC.running
      intro u' hu'
      exact ih _ (ht _) k hu'

/-- All my calls answer, in the order in which they began. -/
theorem map_fst_answers {t : CallTree I E W} (ht : t.Quiet silent) (w : W) :
    (answers mine (t.moments C w)).map Sigma.fst =
      (requestsOf mine (t.moments C w)).filterMap Request.call? := by
  have hpurged := (hC.purge ht 1 (rfl : view w = view w)).answers_eq 1
  rw [CallTree.moments, hpurged]
  have hmine : ∀ req ∈ requestsOf mine (t.momentsFrom C 1 w), mine req = true :=
    fun req hreq => (List.mem_filter.1 hreq).2
  generalize requestsOf mine (t.momentsFrom C 1 w) = reqs at hmine
  clear hpurged
  generalize 1 = k
  -- a flat run answers request by request
  induction reqs generalizing k w with
  | nil => rfl
  | cons req reqs ih =>
      obtain ⟨hreq, hreqs⟩ := List.forall_mem_cons.1 hmine
      cases req with
      | call c =>
          rw [momentsFrom_flat_call hC.running]
          have hrest := ih (C.start c w).uneventful.2 hreqs (k + 1)
          simpa [answers, hreq, Request.call?] using hrest
      | act e =>
          rw [momentsFrom_flat_act hC.running]
          exact ih _ hreqs k

/-- Two runs with the same requests of mine give me the same answers, and leave me the same view. -/
theorem agree {t₁ t₂ : CallTree I E W} (ht₁ : t₁.Quiet silent) (ht₂ : t₂.Quiet silent) {w₁ w₂ : W}
    (hw : view w₁ = view w₂)
    (hsame : requestsOf mine (t₁.moments C w₁) = requestsOf mine (t₂.moments C w₂)) :
    answers mine (t₁.moments C w₁) = answers mine (t₂.moments C w₂) ∧
      view (t₁.run C w₁) = view (t₂.run C w₂) := by
  -- both are purged to the flat run of the same requests
  have h₁ : PurgesTo C view mine (t₁.moments C w₁) (t₁.run C w₁) w₂ := hC.purge ht₁ 1 hw
  have h₂ : PurgesTo C view mine (t₂.moments C w₂) (t₂.run C w₂) w₂ := hC.purge ht₂ 1 rfl
  constructor
  · rw [h₁.answers_eq 1, h₂.answers_eq 1, hsame]
  · rw [h₁.view_eq, h₂.view_eq, hsame]

end Separate

end SerialGateway
