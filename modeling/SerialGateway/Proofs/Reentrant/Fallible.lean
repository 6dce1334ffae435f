import SerialGateway.Reentrant.CallTree

/-!
# Calls that may fail

An interface can be widened so that every call may answer with a fault instead
(`Interface.fallible`). A component with such calls may still be one that never answers so. It is
then another component, which cannot fail, in a larger world: each world of the one stands for a
world of the other, and from the worlds that stand for something all calls succeed and lead to such
worlds again (`Component.NeverFails`). That is a statement about one call. From it follows that any
tree of calls, in whatever hooks, runs through the moments of the component that cannot fail
(`NeverFails.moments_eq`).
-/

set_option autoImplicit false

namespace SerialGateway

variable {I : Interface} {F E W V : Type}

/-- What the tree does when every call succeeds and every world is the image of one. -/
def CallTree.unfailing (image : V → W) : CallTree (I.fallible F) E W → CallTree I E V
  | .done => .done
  | .call c hook next =>
      .call c (fun h => (hook h).unfailing image) fun a => (next (.ok a)).unfailing image
  | .act e next => .act e fun v => (next (image v)).unfailing image

/-- The moment in which a call that returns has succeeded, and the world is the image of one. -/
def Moment.succeeding (F : Type) (image : V → W) : Moment I E V → Moment (I.fallible F) E W
  | .began k c v => .began k c (image v)
  | .entered k h v => .entered k h (image v)
  | .left k h v => .left k h (image v)
  | .returned k c a v => .returned k c (.ok a) (image v)
  | .acted e v => .acted e (image v)

/-- A step succeeds where another one answers, enters the hook that the other one enters, and stays
within the images. -/
inductive Step.Succeeds {Hook A : Type} (image : V → W) :
    Step Hook V A → Step Hook W (Except F A) → Prop where
  | finished (a : A) (v : V) :
      Succeeds image (.finished a v) (.finished (.ok a) (image v))
  | entering (h : Hook) (v : V) {resume : V → A × V} {resume' : W → Except F A × W}
      (resumes : ∀ inside, resume' (image inside) =
        (.ok (resume inside).1, image (resume inside).2)) :
      Succeeds image (.entering h v resume) (.entering h (image v) resume')

/-- From the images on, `C` does what `K` does, and never fails. -/
structure Component.NeverFails (K : Component I V E) (C : Component (I.fallible F) W E)
    (image : V → W) : Prop where
  halted : ∀ v, C.halted (image v) = K.halted v
  act : ∀ e v, C.act e (image v) = image (K.act e v)
  start : ∀ c v, Step.Succeeds image (K.start c v) (C.start c (image v))

namespace Component.NeverFails

variable {K : Component I V E} {C : Component (I.fallible F) W E} {image : V → W}

theorem run_eq (h : NeverFails K C image) (t : CallTree (I.fallible F) E W) (v : V) :
    CallTree.run C t (image v) = image (CallTree.run K (t.unfailing image) v) := by
  induction t generalizing v with
  | done => rfl
  | call c hook next ihHook ihNext =>
      -- the two calls take the same step, so one split serves both runs
      have hstart := h.start c v
      simp only [CallTree.run, CallTree.unfailing, h.halted]
      by_cases hv : K.halted v = true
      · rw [if_pos hv, if_pos hv]
      · rw [if_neg hv, if_neg hv]
        generalize K.start c v = step, C.start c (image v) = step' at hstart
        cases hstart with
        | finished a v' => exact ihNext (.ok a) v'
        | entering hk v' resumes =>
            simp only [ihHook hk v', h.halted]
            by_cases hin : K.halted (CallTree.run K ((hook hk).unfailing image) v') = true
            · rw [if_pos hin, if_pos hin]
            · rw [if_neg hin, if_neg hin, resumes]
              exact ihNext _ _
  | act e next ih =>
      simp only [CallTree.run, CallTree.unfailing, h.halted, h.act]
      by_cases hv : K.halted v = true
      · rw [if_pos hv, if_pos hv]
      · rw [if_neg hv, if_neg hv]
        exact ih _ _

theorem beginnings_succeeding (ms : List (Moment I E V)) :
    Moment.beginnings (ms.map (Moment.succeeding F image)) = Moment.beginnings ms := by
  have hbeginning : ∀ m : Moment I E V, (m.succeeding F image).beginning? = m.beginning? := by
    intro m
    cases m <;> rfl
  simp only [Moment.beginnings, List.filterMap_map, Function.comp_def, hbeginning]

theorem momentsFrom_eq (h : NeverFails K C image) (t : CallTree (I.fallible F) E W) (k : Nat)
    (v : V) :
    CallTree.momentsFrom C t k (image v) =
      (CallTree.momentsFrom K (t.unfailing image) k v).map (Moment.succeeding F image) := by
  induction t generalizing k v with
  | done => rfl
  | call c hook next ihHook ihNext =>
      have hstart := h.start c v
      simp only [CallTree.momentsFrom, CallTree.unfailing, h.halted]
      by_cases hv : K.halted v = true
      · rw [if_pos hv, if_pos hv]
        rfl
      · rw [if_neg hv, if_neg hv, List.map_cons]
        congr 1
        generalize K.start c v = step, C.start c (image v) = step' at hstart
        cases hstart with
        | finished a v' =>
            rw [List.map_cons, ← ihNext]
            rfl
        | entering hk v' resumes =>
            -- what is nested shifts the numbers of all later calls, by as many on either side
            simp only [ihHook hk, h.run_eq, h.halted, beginnings_succeeding, List.map_append,
              List.map_cons]
            congr 2
            by_cases hin : K.halted (CallTree.run K ((hook hk).unfailing image) v') = true
            · rw [if_pos hin, if_pos hin]
              rfl
            · rw [if_neg hin, if_neg hin, List.map_cons, List.map_cons, resumes, ← ihNext]
              rfl
  | act e next ih =>
      simp only [CallTree.momentsFrom, CallTree.unfailing, h.halted, h.act]
      by_cases hv : K.halted v = true
      · rw [if_pos hv, if_pos hv]
        rfl
      · rw [if_neg hv, if_neg hv, List.map_cons, ih]
        rfl

/-- Any tree of calls runs through the moments of the component that cannot fail. -/
theorem moments_eq (h : NeverFails K C image) (t : CallTree (I.fallible F) E W) (v : V) :
    CallTree.moments C t (image v) =
      (CallTree.moments K (t.unfailing image) v).map (Moment.succeeding F image) :=
  h.momentsFrom_eq t 1 v

end Component.NeverFails

end SerialGateway
