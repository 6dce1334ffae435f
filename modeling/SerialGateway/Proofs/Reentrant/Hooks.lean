import SerialGateway.Proofs.Reentrant.Runs

/-!
# Calls and their hooks

A hook is entered at once by the call that enters it, with nothing in between
(`Runs.entered_after_began`). What the calls of a run ask for and what the hooks of the run are told
are therefore the same list, if each single call passes on what it was asked for
(`Runs.filterMap_hooking?`). A call that returns does so from its beginning or from its hook
(`Runs.returnFrom`), which has returned once and to this call alone (`Runs.leftBy_eq_of_returned`).
When a call begins, every call that has not returned is in its hook (`Runs.inHook_of_open`).
-/

set_option autoImplicit false

namespace SerialGateway

variable {I : Interface} {E W α : Type}

open History

namespace Moment

/-- What `f` reads off a call that begins. -/
@[simp] def calling? (f : Nat → I.Call → W → Option α) : Moment I E W → Option α
  | began k c w => f k c w
  | entered _ _ _ | left _ _ _ | returned _ _ _ _ | acted _ _ => none

/-- What `f` reads off a hook that is entered. -/
@[simp] def hooking? (f : Nat → I.Hook → W → Option α) : Moment I E W → Option α
  | entered k h w => f k h w
  | began _ _ _ | left _ _ _ | returned _ _ _ _ | acted _ _ => none

/-- The world in which a hook of call `n` returns. -/
@[simp] def leftBy? (n : Nat) : Moment I E W → Option W
  | left k _ w => if k = n then some w else none
  | began _ _ _ | entered _ _ _ | returned _ _ _ _ | acted _ _ => none

end Moment

namespace Step

/-- The hook that a step enters, if it enters one. -/
def hook? {Hook A : Type} : Step Hook W A → Option Hook
  | finished _ _ => none
  | entering hook _ _ => some hook

end Step

namespace History

/-- The hooks that call `n` has entered, in order. -/
def hooksOf (n : Nat) (history : History I E W) : List I.Hook :=
  history.filterMap (Moment.hooking? fun k hook _ => if k = n then some hook else none)

theorem filterMap_calling?_of_notMem {n : Nat} {history : History I E W} (hn : n ∉ history.begun)
    (f : I.Call → W → Option α) :
    history.filterMap (Moment.calling? fun k c w => if k = n then f c w else none) = [] := by
  rw [List.filterMap_eq_nil_iff]
  intro m hm
  cases m with
  | began k c w =>
      have hk : k ≠ n := by
        rintro rfl
        exact hn (mem_begun hm)
      simp [hk]
  | entered | left | returned | acted => rfl

/-- Of all calls, one has a given number. -/
theorem Numbered.filterMap_calling? {n : Nat} {history past future : History I E W} {c : I.Call}
    {w : W} (h : Numbered history) (hsplit : history = past ++ .began n c w :: future)
    (f : I.Call → W → Option α) :
    history.filterMap (Moment.calling? fun k c w => if k = n then f c w else none) =
      (f c w).toList := by
  obtain ⟨hpast, hfuture⟩ := h.number_notMem hsplit
  rw [hsplit, List.filterMap_append, List.filterMap_cons, filterMap_calling?_of_notMem hpast,
    filterMap_calling?_of_notMem hfuture]
  cases hf : f c w <;> simp [hf]

/-- The worlds in which the hooks of call `n` have returned, in order. -/
def leftBy (n : Nat) (history : History I E W) : List W := history.filterMap (Moment.leftBy? n)

section Readers

variable (n : Nat) (m : Moment I E W) (a b rest : History I E W)

@[simp] theorem hooksOf_cons :
    hooksOf n (m :: rest) =
      (m.hooking? fun k hook _ => if k = n then some hook else none).toList ++ hooksOf n rest :=
  filterMap_cons_toList ..

@[simp] theorem hooksOf_append : hooksOf n (a ++ b) = hooksOf n a ++ hooksOf n b :=
  List.filterMap_append

@[simp] theorem leftBy_cons : leftBy n (m :: rest) = (m.leftBy? n).toList ++ leftBy n rest :=
  filterMap_cons_toList ..

@[simp] theorem leftBy_append : leftBy n (a ++ b) = leftBy n a ++ leftBy n b :=
  List.filterMap_append

end Readers

theorem mem_leftBy_iff {n : Nat} {history : History I E W} {w : W} :
    w ∈ history.leftBy n ↔ ∃ hook, .left n hook w ∈ history := by
  rw [leftBy, List.mem_filterMap]
  constructor
  · rintro ⟨m, hm, hleft⟩
    cases m with
    | left k hook u =>
        obtain ⟨rfl, rfl⟩ : k = n ∧ u = w := by simpa using hleft
        exact ⟨hook, hm⟩
    | began | entered | returned | acted => cases hleft
  · rintro ⟨hook, hm⟩
    exact ⟨_, hm, if_pos rfl⟩

/-- Every call that has not returned is in its hook. -/
def AllInHook (history : History I E W) : Prop := ∀ i, Open i history → InHook i history

namespace AllInHook

variable {past : History I E W} (hall : past.AllInHook)

include hall

theorem finished (hpast : Numbered past) (c : I.Call) (a : I.Answer c) (w w' : W) :
    AllInHook (past ++ [.began (past.calls + 1) c w, .returned (past.calls + 1) c a w']) := by
  intro i hi
  have hin := hall i ((hpast.open_finished_iff ..).1 hi)
  simpa [InHook] using hin

theorem entered (hpast : Numbered past) (c : I.Call) (hook : I.Hook) (w w' : W) :
    AllInHook (past ++ [.began (past.calls + 1) c w, .entered (past.calls + 1) hook w']) := by
  intro i hi
  rcases (hpast.open_entered_iff ..).1 hi with hi | rfl
  · have hin := hall i hi
    simp [InHook, hin.1, hin.2]
  · -- no earlier hook that has returned bears the new number
    have hnew : past.calls + 1 ∉ past.exits := by
      intro hexit
      have := (hpast.le_of_mem_exits hexit).2
      omega
    simp [InHook, hnew]

theorem returned (k : Nat) (c : I.Call) (a : I.Answer c) (hook : I.Hook) (w w' : W) :
    AllInHook (past ++ [.left k hook w, .returned k c a w']) := by
  intro i hi
  obtain ⟨hi, hne⟩ := (open_returned_iff ..).1 hi
  have hin := hall i hi
  simpa [InHook, hne] using hin

theorem acted (e : E) (w : W) : AllInHook (past ++ [.acted e w]) := by
  intro i hi
  have hin := hall i ((open_acted_iff ..).1 hi)
  simpa [InHook] using hin

end AllInHook

end History

/-- Where the answer of call `j` comes from: the call answered at once, or after its hook. -/
inductive AnswerFrom (C : Component I W E) (history : History I E W) (j : Nat) (c : I.Call) :
    I.Answer c → Prop
  | finished {u u' : W} {a : I.Answer c} :
      .began j c u ∈ history → C.start c u = .finished a u' → AnswerFrom C history j c a
  | resumed {u u' : W} {hook : I.Hook} {resume : W → I.Answer c × W} (inside : W) :
      .began j c u ∈ history → .entered j hook u' ∈ history →
      C.start c u = .entering hook u' resume → AnswerFrom C history j c (resume inside).1

/-- Where the return of call `j` comes from: the call answered at once, or it went on when its hook
had returned. -/
inductive ReturnFrom (C : Component I W E) (history : History I E W) (j : Nat) (c : I.Call) :
    I.Answer c → W → Prop
  | finished {u u' : W} {a : I.Answer c} :
      .began j c u ∈ history → C.start c u = .finished a u' → ReturnFrom C history j c a u'
  | resumed {u u' inside : W} {hook : I.Hook} {resume : W → I.Answer c × W} :
      .began j c u ∈ history → .entered j hook u' ∈ history → .left j hook inside ∈ history →
      C.start c u = .entering hook u' resume →
      ReturnFrom C history j c (resume inside).1 (resume inside).2

theorem ReturnFrom.mono {C : Component I W E} {history more : History I E W} {j : Nat} {c : I.Call}
    {a : I.Answer c} {v : W} (h : ReturnFrom C history j c a v) (hsub : ∀ m ∈ history, m ∈ more) :
    ReturnFrom C more j c a v := by
  cases h with
  | finished hbegan hs => exact .finished (hsub _ hbegan) hs
  | resumed hbegan hentered hleft hs =>
      exact .resumed (hsub _ hbegan) (hsub _ hentered) (hsub _ hleft) hs

/-- The last thing that happened is the beginning of call `j`, which enters `hook` in the world
`u`. -/
def JustBegan (C : Component I W E) (past : History I E W) (j : Nat) (hook : I.Hook) (u : W) :
    Prop :=
  ∃ earlier c begun resume, past = earlier ++ [.began j c begun] ∧
    C.start c begun = .entering hook u resume

namespace Runs

variable {C : Component I W E} {k : Nat} {w v : W} {history : History I E W}

theorem along_justBegan (h : Runs C k w history v) :
    ∀ past, Along (fun past m => ∀ j hook u, m = .entered j hook u → JustBegan C past j hook u)
      past history := by
  induction h with
  | done => exact fun _ => trivial
  | finished _ _ ih => exact fun past => ⟨nofun, nofun, ih _⟩
  | halted hs _ _ ih =>
      refine fun past => ⟨nofun, ?_, ih _⟩
      rintro _ _ _ ⟨⟩
      exact ⟨past, _, _, _, rfl, hs⟩
  | entering hs _ _ ihNested ihRest =>
      refine fun past => ⟨nofun, ?_, (along_append ..).2 ⟨ihNested _, nofun, nofun, ihRest _⟩⟩
      rintro _ _ _ ⟨⟩
      exact ⟨past, _, _, _, rfl, hs⟩
  | acted _ ih => exact fun past => ⟨nofun, ih _⟩

/-- A hook is entered right after its call began. -/
theorem entered_after_began {past future : History I E W} (h : Runs C k w history v) {j : Nat}
    {hook : I.Hook} {u : W} (hsplit : history = past ++ .entered j hook u :: future) :
    JustBegan C past j hook u := by
  have hall := h.along_justBegan []
  rw [hsplit] at hall
  exact hall.at_moment j hook u rfl

/-- A call that returns has begun, and returns from there or from its hook. -/
theorem returnFrom (h : Runs C k w history v) {j : Nat} {c : I.Call} {a : I.Answer c} {u : W}
    (hj : .returned j c a u ∈ history) : ReturnFrom C history j c a u := by
  induction h with
  | done => exact absurd hj List.not_mem_nil
  | finished hs _ ih =>
      simp only [List.mem_cons, reduceCtorEq, false_or] at hj
      rcases hj with hj | hj
      · cases hj
        exact .finished (.head _) hs
      · apply (ih hj).mono
        exact fun m hm => by simp [hm]
  | halted _ _ _ ih =>
      simp only [List.mem_cons, reduceCtorEq, false_or] at hj
      apply (ih hj).mono
      exact fun m hm => by simp [hm]
  | entering hs _ _ ihNested ihRest =>
      simp only [List.mem_cons, List.mem_append, reduceCtorEq, false_or] at hj
      rcases hj with hj | hj | hj
      · apply (ihNested hj).mono
        exact fun m hm => by simp [hm]
      · cases hj
        exact .resumed (.head _) (.tail _ (.head _)) (by simp) hs
      · apply (ihRest hj).mono
        exact fun m hm => by simp [hm]
  | acted _ ih =>
      simp only [List.mem_cons, reduceCtorEq, false_or] at hj
      apply (ih hj).mono
      exact fun m hm => by simp [hm]

/-- The answer of a call comes from where it returns. -/
theorem answered (h : Runs C k w history v) {j : Nat} {c : I.Call} {a : I.Answer c}
    (hj : (j, ⟨c, a⟩) ∈ history.outcomes) : AnswerFrom C history j c a := by
  obtain ⟨m, hm, hmoutcome⟩ := List.mem_filterMap.1 hj
  cases m with
  | returned =>
      cases hmoutcome
      cases h.returnFrom hm with
      | finished hbegan hs => exact .finished hbegan hs
      | resumed hbegan hentered _ hs => exact .resumed _ hbegan hentered hs
  | began | entered | left | acted => cases hmoutcome

/-- Unless the component halts, a call that enters a hook answers after it. -/
theorem resumed (h : Runs C k w history v) (hC : ∀ u, C.halted u = false) {j : Nat} {hook : I.Hook}
    {u' : W} (hj : .entered j hook u' ∈ history) :
    ∃ c u resume inside, .began j c u ∈ history ∧ C.start c u = .entering hook u' resume ∧
      (j, ⟨c, (resume inside).1⟩) ∈ history.outcomes := by
  induction h with
  | done => simp at hj
  | finished _ _ ih =>
      simp only [List.mem_cons, reduceCtorEq, false_or] at hj
      obtain ⟨c, u, resume, inside, hbegan, hu, hout⟩ := ih hj
      exact ⟨c, u, resume, inside, by simp [hbegan], hu, by simp [hout]⟩
  | halted _ _ hin => simp [hC] at hin
  | @entering _ _ _ _ inside _ _ resume _ _ hs _ _ ihNested ihRest =>
      simp only [List.mem_cons, List.mem_append, reduceCtorEq, false_or] at hj
      rcases hj with hj | hj | hj
      · cases hj
        exact ⟨_, _, resume, inside, .head _, hs, by simp⟩
      · obtain ⟨c, u, resume, inside, hbegan, hu, hout⟩ := ihNested hj
        exact ⟨c, u, resume, inside, by simp [hbegan], hu, by simp [hout]⟩
      · obtain ⟨c, u, resume, inside, hbegan, hu, hout⟩ := ihRest hj
        exact ⟨c, u, resume, inside, by simp [hbegan], hu, by simp [hout]⟩
  | acted _ ih =>
      simp only [List.mem_cons, reduceCtorEq, false_or] at hj
      obtain ⟨c, u, resume, inside, hbegan, hu, hout⟩ := ih hj
      exact ⟨c, u, resume, inside, by simp [hbegan], hu, by simp [hout]⟩

/-- The hooks of a run are told what its calls ask for: once for each call, in the order of the
calls. -/
theorem filterMap_hooking? (h : Runs C k w history v) {asked : Nat → I.Call → W → Option α}
    {told : Nat → I.Hook → W → Option α}
    (hfinished : ∀ {k c w a w'}, C.start c w = .finished a w' → asked k c w = none)
    (hentering : ∀ {k c w h w' resume}, C.start c w = .entering h w' resume →
      told k h w' = asked k c w) :
    history.filterMap (Moment.hooking? told) = history.filterMap (Moment.calling? asked) := by
  induction h with
  | done => rfl
  | finished hs _ ih =>
      simp only [List.filterMap_cons, Moment.hooking?, Moment.calling?, hfinished hs, ih]
  | halted hs _ _ ih =>
      simp only [List.filterMap_cons, Moment.hooking?, Moment.calling?, hentering hs, ih]
  | entering hs _ _ ihNested ihRest =>
      simp only [List.filterMap_cons, List.filterMap_append, Moment.hooking?, Moment.calling?,
        hentering hs, ihNested, ihRest]
  | acted _ ih => simp only [List.filterMap_cons, Moment.hooking?, Moment.calling?, ih]

/-- The hooks of a call are those that its step enters, so there is at most one. -/
theorem hooksOf_eq (h : Runs C 1 w history v) {n : Nat} {past future : History I E W} {c : I.Call}
    {u : W} (hsplit : history = past ++ .began n c u :: future) :
    history.hooksOf n = (C.start c u).hook?.toList := by
  have hnumbered : Numbered history := h.numbered_append numbered_nil
  have hcalls : history.hooksOf n = history.filterMap
      (Moment.calling? fun k c w => if k = n then (C.start c w).hook? else none) :=
    h.filterMap_hooking? (fun hs => by simp [hs, Step.hook?]) (fun hs => by simp [hs, Step.hook?])
  rw [hcalls]
  exact hnumbered.filterMap_calling? hsplit fun c w => (C.start c w).hook?

/-- Only a hook that was entered returns. -/
theorem length_leftBy_le (h : Runs C k w history v) (n : Nat) :
    (history.leftBy n).length ≤ (history.hooksOf n).length := by
  induction h with
  | done => exact Nat.le_refl 0
  | finished _ _ ih => simpa using ih
  | halted _ _ _ ih =>
      -- the hook that was entered last stays open
      simp only [leftBy_cons, hooksOf_cons, Moment.leftBy?, Moment.hooking?, Option.toList_none,
        List.length_append, List.length_nil]
      omega
  | entering _ _ _ ihNested ihRest =>
      simp only [leftBy_cons, leftBy_append, hooksOf_cons, hooksOf_append, Moment.leftBy?,
        Moment.hooking?, Option.toList_none, List.length_append, List.length_nil]
      split
      · simp only [Option.toList_some, List.length_singleton]
        omega
      · simp only [Option.toList_none, List.length_nil]
        omega
  | acted _ ih => simpa using ih

/-- What a call has returned is what its step answers: at once, or from the one world in which its
hook has returned. -/
theorem leftBy_eq_of_returned (h : Runs C 1 w history v) {n : Nat} {c : I.Call} {begun u : W}
    {a : I.Answer c} (hbegan : .began n c begun ∈ history) (hreturned : .returned n c a u ∈ history) :
    (C.start c begun = .finished a u ∧ history.leftBy n = []) ∨
      ∃ hook reached resume inside, C.start c begun = .entering hook reached resume ∧
        resume inside = (a, u) ∧ history.leftBy n = [inside] := by
  have hnumbered : Numbered history := h.numbered_append numbered_nil
  have hle := h.length_leftBy_le n
  obtain ⟨past, future, hsplit⟩ := List.append_of_mem hbegan
  rw [h.hooksOf_eq hsplit] at hle
  cases h.returnFrom hreturned with
  | finished hbegan' hs =>
      obtain ⟨-, rfl⟩ := hnumbered.began_eq hbegan hbegan'
      rw [hs] at hle
      exact .inl ⟨hs, List.length_eq_zero_iff.1 (Nat.le_zero.1 hle)⟩
  | @resumed _ reached inside hook resume hbegan' _ hleft hs =>
      obtain ⟨-, rfl⟩ := hnumbered.began_eq hbegan hbegan'
      have hmem : inside ∈ history.leftBy n := mem_leftBy_iff.2 ⟨hook, hleft⟩
      rw [hs] at hle
      obtain ⟨first, hone⟩ := List.length_eq_one_iff.1
        (Nat.le_antisymm hle (List.length_pos_of_mem hmem))
      rw [hone, List.mem_singleton] at hmem
      subst hmem
      exact .inr ⟨hook, reached, resume, inside, hs, rfl, hone⟩

/-- While calls begin, and after the run, every call that has not returned is in its hook. -/
theorem along_allInHook (h : Runs C k w history v) (hC : ∀ u, C.halted u = false) :
    ∀ past, Numbered past → k = past.calls + 1 → past.AllInHook →
      Along (fun past m => ∀ j c u, m = .began j c u → past.AllInHook) past history ∧
        (past ++ history).AllInHook := by
  induction h with
  | done => exact fun past _ _ hall => ⟨trivial, by simpa using hall⟩
  | @finished k c w w' v a rest hs _ ih =>
      rintro past hpast rfl hall
      obtain ⟨hrest, hend⟩ := ih (past ++ [.began (past.calls + 1) c w, .returned _ c a w'])
        ((Runs.finished hs (.done _ _)).numbered_append hpast) (by simp)
        (hall.finished hpast c a w w')
      exact ⟨⟨fun _ _ _ _ => hall, nofun, by simpa using hrest⟩, by simpa using hend⟩
  | halted _ _ hin => simp [hC] at hin
  | @entering k c w w' inside v hook resume nested rest hs hnested _ ihNested ihRest =>
      rintro past hpast rfl hall
      obtain ⟨hinner, hinside⟩ := ihNested _ (numbered_entered hpast c hook w w') (by simp)
        (hall.entered hpast c hook w w')
      rw [List.append_assoc] at hinside
      -- the hook and its call return together, as far as a later call can tell
      have hreturned :=
        hinside.returned (past.calls + 1) c (resume inside).1 hook inside (resume inside).2
      obtain ⟨hrest, hend⟩ := ihRest _
        ((Runs.entering hs hnested (.done _ _)).numbered_append hpast) (by simp; omega)
        (by simpa using hreturned)
      refine ⟨⟨fun _ _ _ _ => hall, nofun, ?_⟩, by simpa using hend⟩
      rw [along_append]
      exact ⟨by simpa using hinner, nofun, nofun, by simpa using hrest⟩
  | @acted k e w v rest _ ih =>
      rintro past hpast rfl hall
      obtain ⟨hrest, hend⟩ := ih (past ++ [.acted e (C.act e w)])
        ((Runs.acted (.done _ _)).numbered_append hpast) (by simp) (hall.acted e _)
      exact ⟨⟨nofun, by simpa using hrest⟩, by simpa using hend⟩

/-- When a call begins, every call that has not returned is in its hook. -/
theorem inHook_of_open (h : Runs C 1 w history v) (hC : ∀ u, C.halted u = false) {j i : Nat}
    {past future : History I E W} {c : I.Call} {u : W}
    (hsplit : history = past ++ .began j c u :: future) (hi : Open i past) : InHook i past := by
  obtain ⟨halong, -⟩ := h.along_allInHook hC [] numbered_nil rfl (by simp [AllInHook, Open])
  rw [hsplit] at halong
  exact halong.at_moment j c u rfl i hi

end Runs

end SerialGateway
