import SerialGateway.Proofs.Reentrant.Runs

/-!
# Runs without nesting

The requests of a run, taken in the order in which they began, can be served one after another by
surroundings whose hooks do nothing (`CallTree.flat`). A component is `Linear` in a view of its
world if its calls do all that the view shows before they enter a hook. The nested run and the flat
one then end in the same view, and the calls that answer from the view answer alike
(`Linear.agrees_flat`).

A call that takes a value before its hook and stores it after the hook is not linear in a view that
shows the value: `Linear.resume` fails.
-/

set_option autoImplicit false

namespace SerialGateway

variable {I : Interface} {E W : Type}

/-! ## Requests -/

/-- What the surroundings do of their own accord. -/
inductive Request (I : Interface) (E : Type) where
  | call (c : I.Call)
  | act (e : E)

/-- The request is a call. -/
def Request.isCall : Request I E → Bool
  | .call _ => true
  | .act _ => false

/-- The request that begins at a moment, if one does. -/
@[simp] def Moment.request? : Moment I E W → Option (Request I E)
  | .began _ c _ => some (.call c)
  | .acted e _ => some (.act e)
  | .entered _ _ _ | .left _ _ _ | .returned _ _ _ _ => none

namespace History

/-- The requests of a history, in the order in which they began. -/
def requests (history : History I E W) : List (Request I E) :=
  history.filterMap Moment.request?

@[simp] theorem requests_nil : requests ([] : History I E W) = [] := rfl

@[simp] theorem requests_cons (m : Moment I E W) (rest : History I E W) :
    requests (m :: rest) = m.request?.toList ++ requests rest := by
  cases m <;> rfl

@[simp] theorem requests_append (a b : History I E W) :
    requests (a ++ b) = requests a ++ requests b :=
  List.filterMap_append

theorem calls_eq_countP (history : History I E W) :
    history.calls = history.requests.countP Request.isCall := by
  induction history with
  | nil => rfl
  | cons m rest ih =>
      rw [calls_cons, requests_cons, List.countP_append, ih, Nat.add_comm]
      cases m <;> rfl

end History

open History

/-- Make requests one after another, and do nothing inside hooks. -/
def CallTree.flat : List (Request I E) → CallTree I E W
  | [] => .done
  | .call c :: rest => .call c (fun _ => .done) fun _ => flat rest
  | .act e :: rest => .act e fun _ => flat rest

namespace Step

variable {Hook A : Type}

/-- The whole call, when its hook does nothing. -/
def uneventful (s : Step Hook W A) : A × W := s.complete fun _ w => w

/-- What happens between the beginning and the return of call `k`, when its hook does nothing. -/
def visit (k : Nat) : Step I.Hook W A → History I E W
  | .finished _ _ => []
  | .entering h w _ => [.entered k h w, .left k h w]

variable (k : Nat) (s : Step I.Hook W A)

@[simp] theorem requests_visit : requests (visit k s : History I E W) = [] := by
  cases s <;> rfl

@[simp] theorem outcomes_visit : outcomes (visit k s : History I E W) = [] := by
  cases s <;> rfl

theorem uneventful_within {V : Type} (part : Part W V) (w : W) (step : Step Hook V A) :
    (step.within part w).uneventful = (step.uneventful.1, part.put step.uneventful.2 w) := by
  cases step with
  | finished a v => rfl
  | entering h v resume =>
      show ((resume (part.get (part.put v w))).1,
        part.put (resume (part.get (part.put v w))).2 (part.put v w)) = _
      rw [part.get_put, part.put_put]
      rfl

theorem uneventful_route {Hook' : Type} (f : Hook → Option Hook') (step : Step Hook W A) :
    (step.route f).uneventful = step.uneventful := by
  cases step with
  | finished a w => rfl
  | entering h w resume =>
      rw [route]
      cases f h <;> rfl

end Step

/-! ## Calls in whose hook nothing happens -/

section Uneventful

variable {C : Component I W E} (hC : ∀ w, C.halted w = false) {c : I.Call}
  {hook : I.Hook → CallTree I E W} {next : I.Answer c → CallTree I E W} {w : W}
  (hdone : ∀ {h w' resume}, C.start c w = .entering h w' resume → hook h = .done)

include hC hdone

theorem run_call_of_done :
    (CallTree.call c hook next).run C w =
      (next (C.start c w).uneventful.1).run C (C.start c w).uneventful.2 := by
  simp only [CallTree.run, hC, Bool.false_eq_true, if_false]
  cases hs : C.start c w with
  | finished a w' => rfl
  | entering h w' resume =>
      simp only [hdone hs, CallTree.run]
      rfl

/-- A call in whose hook nothing happens. -/
theorem momentsFrom_call_of_done (k : Nat) :
    (CallTree.call c hook next).momentsFrom C k w =
      .began k c w :: ((C.start c w).visit k ++
        .returned k c (C.start c w).uneventful.1 (C.start c w).uneventful.2 ::
          (next (C.start c w).uneventful.1).momentsFrom C (k + 1) (C.start c w).uneventful.2) := by
  simp only [CallTree.momentsFrom, hC, Bool.false_eq_true, if_false]
  cases hs : C.start c w with
  | finished a w' => rfl
  | entering h w' resume =>
      simp only [hdone hs, CallTree.run, CallTree.momentsFrom]
      rfl

end Uneventful

/-! ## Flat runs -/

section Flat

variable {C : Component I W E} (hC : ∀ w, C.halted w = false)

include hC

theorem run_flat_call (c : I.Call) (reqs : List (Request I E)) (w : W) :
    (CallTree.flat (.call c :: reqs)).run C w =
      (CallTree.flat reqs).run C (C.start c w).uneventful.2 :=
  run_call_of_done hC fun _ => rfl

theorem momentsFrom_flat_call (c : I.Call) (reqs : List (Request I E)) (k : Nat) (w : W) :
    (CallTree.flat (.call c :: reqs)).momentsFrom C k w =
      .began k c w :: ((C.start c w).visit k ++
        .returned k c (C.start c w).uneventful.1 (C.start c w).uneventful.2 ::
          (CallTree.flat reqs).momentsFrom C (k + 1) (C.start c w).uneventful.2) :=
  momentsFrom_call_of_done hC (fun _ => rfl) k

theorem run_flat_act (e : E) (reqs : List (Request I E)) (w : W) :
    (CallTree.flat (.act e :: reqs)).run C w = (CallTree.flat reqs).run C (C.act e w) := by
  simp only [CallTree.flat, CallTree.run, hC, Bool.false_eq_true, if_false]

theorem momentsFrom_flat_act (e : E) (reqs : List (Request I E)) (k : Nat) (w : W) :
    (CallTree.flat (.act e :: reqs)).momentsFrom C k w =
      .acted e (C.act e w) :: (CallTree.flat reqs).momentsFrom C k (C.act e w) := by
  simp only [CallTree.flat, CallTree.momentsFrom, hC, Bool.false_eq_true, if_false]

/-- A flat run makes the requests it is given. -/
theorem requests_flat (reqs : List (Request I E)) (k : Nat) (w : W) :
    requests ((CallTree.flat reqs).momentsFrom C k w) = reqs := by
  induction reqs generalizing k w with
  | nil => rfl
  | cons req reqs ih =>
      cases req with
      | call c =>
          rw [momentsFrom_flat_call hC]
          simp [ih]
      | act e =>
          rw [momentsFrom_flat_act hC]
          simp [ih]

theorem run_flat_append (a b : List (Request I E)) (w : W) :
    (CallTree.flat (a ++ b)).run C w = (CallTree.flat b).run C ((CallTree.flat a).run C w) := by
  induction a generalizing w with
  | nil => rfl
  | cons req a ih =>
      cases req with
      | call c => rw [List.cons_append, run_flat_call hC, run_flat_call hC, ih]
      | act e => rw [List.cons_append, run_flat_act hC, run_flat_act hC, ih]

theorem momentsFrom_flat_append (a b : List (Request I E)) (k : Nat) (w : W) :
    (CallTree.flat (a ++ b)).momentsFrom C k w =
      (CallTree.flat a).momentsFrom C k w ++
        (CallTree.flat b).momentsFrom C (k + a.countP Request.isCall)
          ((CallTree.flat a).run C w) := by
  induction a generalizing k w with
  | nil => rfl
  | cons req a ih =>
      cases req with
      | call c =>
          rw [List.cons_append, momentsFrom_flat_call hC, momentsFrom_flat_call hC,
            run_flat_call hC, ih, List.countP_cons_of_pos rfl]
          simp [Nat.add_comm, Nat.add_assoc]
      | act e =>
          rw [List.cons_append, momentsFrom_flat_act hC, momentsFrom_flat_act hC,
            run_flat_act hC, ih, List.countP_cons_of_neg Bool.false_ne_true]
          rfl

end Flat

/-! ## Linear components -/

/-- The calls of `C` do all that `view` shows before they enter a hook. Those in `observed` answer
from the view, whatever their hook does. -/
structure Linear {V : Type} (C : Component I W E) (view : W → V) (observed : I.Call → Prop) :
    Prop where
  running : ∀ w, C.halted w = false
  act : ∀ e {w u}, view w = view u → view (C.act e w) = view (C.act e u)
  start : ∀ c {w u}, view w = view u → view (C.start c w).reached = view (C.start c u).reached
  resume : ∀ {c w h w' resume}, C.start c w = .entering h w' resume →
    ∀ inside, view (resume inside).2 = view inside
  answer : ∀ c {w u}, observed c → view w = view u → ∀ f g,
    ((C.start c w).complete f).1 = ((C.start c u).complete g).1

/-- A run from `w` to `v` and the flat run of its requests from `u` end in the same view, and the
observed calls, told by their numbers, answer alike. -/
structure AgreesFlat {V : Type} (C : Component I W E) (view : W → V) (observed : I.Call → Prop)
    (k : Nat) (history : History I E W) (v u : W) : Prop where
  view_eq : view v = view ((CallTree.flat history.requests).run C u)
  outcomes_iff : ∀ j c a, observed c →
    ((j, ⟨c, a⟩) ∈ history.outcomes ↔
      (j, ⟨c, a⟩) ∈ outcomes ((CallTree.flat history.requests).momentsFrom C k u))

namespace Linear

variable {V : Type} {C : Component I W E} {view : W → V} {observed : I.Call → Prop}

/-- A call whose hook does nothing leaves what it had reached when it entered the hook. -/
theorem view_uneventful (hC : Linear C view observed) (c : I.Call) (u : W) :
    view (C.start c u).uneventful.2 = view (C.start c u).reached := by
  cases hs : C.start c u with
  | finished a u' => rfl
  | entering h u' resume => exact hC.resume hs u'

/-- An observed call answers the same from worlds with the same view. -/
theorem outcome_iff (hC : Linear C view observed) (c : I.Call) {w u : W} (hu : view w = view u)
    (f : I.Hook → W → W) {d : I.Call} (hd : observed d) (j k : Nat) (b : I.Answer d) :
    (j, (⟨d, b⟩ : (c : I.Call) × I.Answer c)) = (k, ⟨c, ((C.start c w).complete f).1⟩) ↔
      (j, (⟨d, b⟩ : (c : I.Call) × I.Answer c)) = (k, ⟨c, (C.start c u).uneventful.1⟩) := by
  constructor
  · intro h
    cases h
    rw [hC.answer c hd hu f fun _ w => w]
    rfl
  · intro h
    cases h
    rw [hC.answer c hd hu f fun _ w => w]
    rfl

/-- Requests can be served without nesting. -/
theorem agrees_flat (hC : Linear C view observed) {k : Nat} {w v : W} {history : History I E W}
    (h : Runs C k w history v) :
    ∀ u, view w = view u → AgreesFlat C view observed k history v u := by
  -- on the run, for every world `u` that looks like its start: the flat run of a nested part begins
  -- where the call has returned, which looks like the world in which its hook was entered
  induction h with
  | done k w => exact fun u hu => ⟨hu, fun j c a _ => Iff.rfl⟩
  | @finished k c w w' v a rest hs _ ih =>
      intro u hu
      have hnext : view w' = view (C.start c u).uneventful.2 := by
        rw [hC.view_uneventful, ← hC.start c hu, hs]
        rfl
      obtain ⟨hview, hout⟩ := ih _ hnext
      refine ⟨?_, fun j d b hd => ?_⟩
      · simpa [run_flat_call hC.running] using hview
      · have hnow := hC.outcome_iff c hu (fun _ w => w) hd j k b
        rw [hs] at hnow
        simp only [outcomes_cons, requests_cons, Moment.outcome?, Moment.request?,
          Option.toList_none, Option.toList_some, List.nil_append, List.cons_append, List.mem_cons,
          momentsFrom_flat_call hC.running, outcomes_append, Step.outcomes_visit, hout j d b hd]
        exact or_congr_left hnow
  | halted _ _ hin => rw [hC.running] at hin; cases hin
  | @entering k c w w' inside v h resume nested rest hs hnested hrest ihNested ihRest =>
      intro u hu
      have hinside : view w' = view (C.start c u).uneventful.2 := by
        rw [hC.view_uneventful, ← hC.start c hu, hs]
        rfl
      obtain ⟨hviewNested, houtNested⟩ := ihNested _ hinside
      -- what is left to do after the hook does not show
      have hafter := (hC.resume hs inside).trans hviewNested
      obtain ⟨hview, hout⟩ := ihRest _ hafter
      refine ⟨?_, fun j d b hd => ?_⟩
      · simpa [run_flat_call hC.running, run_flat_append hC.running] using hview
      · have hnow := hC.outcome_iff c hu (fun _ _ => inside) hd j k b
        rw [hs] at hnow
        rw [calls_eq_countP] at hout
        simp only [outcomes_cons, requests_cons, Moment.outcome?, Moment.request?,
          Option.toList_none, Option.toList_some, List.nil_append, List.cons_append, List.mem_cons,
          momentsFrom_flat_call hC.running, momentsFrom_flat_append hC.running, outcomes_append,
          requests_append, Step.outcomes_visit, List.mem_append, houtNested j d b hd, hout j d b hd]
        -- the call itself returns after the calls of its hook, or before them
        rw [or_left_comm]
        exact or_congr_left hnow
  | @acted k e w v rest _ ih =>
      intro u hu
      obtain ⟨hview, hout⟩ := ih _ (hC.act e hu)
      refine ⟨?_, fun j d b hd => ?_⟩
      · simpa [run_flat_act hC.running] using hview
      · simpa [momentsFrom_flat_act hC.running] using hout j d b hd

end Linear

end SerialGateway
