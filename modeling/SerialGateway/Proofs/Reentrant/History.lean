import SerialGateway.Reentrant.CallTree

/-!
# Histories

The moments of a run, oldest first, are its history. This module reads it: which calls have begun
and returned, with which answers, which of them are `Open` or in their hook, and what happened
`before` a call began. In a history that is `Numbered` a call is told by its number.
-/

set_option autoImplicit false

namespace SerialGateway

variable {I : Interface} {E W : Type}

/-- What has happened so far, oldest moment first. -/
abbrev History (I : Interface) (E W : Type) : Type := List (Moment I E W)

namespace Moment

/-- The number of the call that a moment belongs to. -/
@[simp] def number? : Moment I E W → Option Nat
  | began k _ _ | entered k _ _ | left k _ _ | returned k _ _ _ => some k
  | acted _ _ => none

/-- The number of the call that enters a hook, if one does. -/
@[simp] def entering? : Moment I E W → Option Nat
  | entered k _ _ => some k
  | began _ _ _ | left _ _ _ | returned _ _ _ _ | acted _ _ => none

/-- The number of the call whose hook has returned, if one has. -/
@[simp] def leaving? : Moment I E W → Option Nat
  | left k _ _ => some k
  | began _ _ _ | entered _ _ _ | returned _ _ _ _ | acted _ _ => none

/-- The number and the answer of the call that returns, if one does. -/
@[simp] def outcome? : Moment I E W → Option (Nat × (c : I.Call) × I.Answer c)
  | returned k c a _ => some (k, ⟨c, a⟩)
  | began _ _ _ | entered _ _ _ | left _ _ _ | acted _ _ => none

attribute [simp] beginning? world

theorem number?_of_beginning? {m : Moment I E W} {k : Nat} (h : m.beginning? = some k) :
    m.number? = some k := by
  cases m <;> simp_all

theorem number?_of_entering? {m : Moment I E W} {k : Nat} (h : m.entering? = some k) :
    m.number? = some k := by
  cases m <;> simp_all

theorem number?_of_outcome? {m : Moment I E W} {k : Nat} {o : (c : I.Call) × I.Answer c}
    (h : m.outcome? = some (k, o)) : m.number? = some k := by
  cases m <;> simp_all

theorem number?_of_leaving? {m : Moment I E W} {k : Nat} (h : m.leaving? = some k) :
    m.number? = some k := by
  cases m <;> simp_all

end Moment

namespace History

/-- How many calls have begun. -/
abbrev calls (history : History I E W) : Nat := Moment.beginnings history

/-- The numbers of the calls that have begun. -/
def begun (history : History I E W) : List Nat := history.filterMap Moment.beginning?

/-- The calls that have entered a hook. -/
def entries (history : History I E W) : List Nat := history.filterMap Moment.entering?

/-- The calls whose hook has returned. -/
def exits (history : History I E W) : List Nat := history.filterMap Moment.leaving?

/-- The calls that have returned, with their numbers and answers. -/
def outcomes (history : History I E W) : List (Nat × (c : I.Call) × I.Answer c) :=
  history.filterMap Moment.outcome?

/-- The calls that have returned. -/
def returns (history : History I E W) : List Nat := history.outcomes.map Prod.fst

/-- What happened before call `k` began. -/
def before (k : Nat) (history : History I E W) : History I E W :=
  history.takeWhile fun m => m.beginning? != some k

/-- Call `k` has entered a hook, and has not returned. -/
def Open (k : Nat) (history : History I E W) : Prop :=
  k ∈ history.entries ∧ k ∉ history.returns

/-- The hook that call `k` entered has not returned. -/
def InHook (k : Nat) (history : History I E W) : Prop :=
  k ∈ history.entries ∧ k ∉ history.exits

/-- The calls of a history are numbered from one in the order in which they began, and no other
numbers occur. -/
structure Numbered (history : History I E W) : Prop where
  inOrder : history.begun = List.range' 1 history.calls
  known : ∀ m ∈ history, ∀ k, m.number? = some k → 1 ≤ k ∧ k ≤ history.calls

/-! ## Readers of a history, moment by moment -/

theorem filterMap_cons_toList {α β : Type} (f : α → Option β) (a : α) (rest : List α) :
    (a :: rest).filterMap f = (f a).toList ++ rest.filterMap f := by
  rw [List.filterMap_cons]
  cases f a <;> rfl

section Readers

variable (m : Moment I E W) (a b rest : History I E W)

@[simp] theorem calls_nil : calls ([] : History I E W) = 0 := rfl

@[simp] theorem calls_cons : calls (m :: rest) = calls rest + m.beginning?.toList.length := by
  cases m <;> rfl

@[simp] theorem calls_append : calls (a ++ b) = calls a + calls b := by
  simp [calls, Moment.beginnings, List.filterMap_append]

@[simp] theorem begun_nil : begun ([] : History I E W) = [] := rfl

@[simp] theorem begun_cons : begun (m :: rest) = m.beginning?.toList ++ begun rest := by
  cases m <;> rfl

@[simp] theorem begun_append : begun (a ++ b) = begun a ++ begun b :=
  List.filterMap_append

@[simp] theorem entries_nil : entries ([] : History I E W) = [] := rfl

@[simp] theorem entries_cons : entries (m :: rest) = m.entering?.toList ++ entries rest := by
  cases m <;> rfl

@[simp] theorem entries_append : entries (a ++ b) = entries a ++ entries b :=
  List.filterMap_append

@[simp] theorem exits_nil : exits ([] : History I E W) = [] := rfl

@[simp] theorem exits_cons : exits (m :: rest) = m.leaving?.toList ++ exits rest := by
  cases m <;> rfl

@[simp] theorem exits_append : exits (a ++ b) = exits a ++ exits b :=
  List.filterMap_append

@[simp] theorem outcomes_nil : outcomes ([] : History I E W) = [] := rfl

@[simp] theorem outcomes_cons : outcomes (m :: rest) = m.outcome?.toList ++ outcomes rest := by
  cases m <;> rfl

@[simp] theorem outcomes_append : outcomes (a ++ b) = outcomes a ++ outcomes b :=
  List.filterMap_append

@[simp] theorem returns_nil : returns ([] : History I E W) = [] := rfl

@[simp] theorem returns_cons :
    returns (m :: rest) = (m.outcome?.map Prod.fst).toList ++ returns rest := by
  cases m <;> rfl

@[simp] theorem returns_append : returns (a ++ b) = returns a ++ returns b := by
  simp [returns]

end Readers

end History

open History

/-! ## Numbers -/

theorem mem_begun {history : History I E W} {k : Nat} {c : I.Call} {w : W}
    (h : .began k c w ∈ history) : k ∈ history.begun :=
  List.mem_filterMap.2 ⟨_, h, rfl⟩

theorem numbered_nil : Numbered ([] : History I E W) where
  inOrder := rfl
  known := by simp

/-- A call that enters its hook has the next number. -/
theorem numbered_entered {past : History I E W} (hpast : Numbered past) (c : I.Call) (h : I.Hook)
    (w w' : W) :
    Numbered (past ++ [.began (past.calls + 1) c w, .entered (past.calls + 1) h w']) := by
  have hcalls : calls (past ++ [.began (past.calls + 1) c w, .entered (past.calls + 1) h w']) =
      past.calls + 1 := by simp
  constructor
  · rw [hcalls, List.range'_concat, ← hpast.inOrder]
    simp [Nat.add_comm]
  · intro m hm k hk
    rw [hcalls]
    simp only [List.mem_append, List.mem_cons, List.not_mem_nil, or_false] at hm
    rcases hm with hm | rfl | rfl
    · have := hpast.known m hm k hk
      omega
    · cases hk
      omega
    · cases hk
      omega

namespace History.Numbered

variable {past : History I E W} (hpast : Numbered past)

include hpast

theorem mem_begun_iff (j : Nat) : j ∈ past.begun ↔ 1 ≤ j ∧ j ≤ past.calls := by
  rw [hpast.inOrder, List.mem_range'_1]
  omega

theorem le_of_mem_entries {j : Nat} (hj : j ∈ past.entries) : 1 ≤ j ∧ j ≤ past.calls := by
  obtain ⟨m, hm, hmj⟩ := List.mem_filterMap.1 hj
  exact hpast.known m hm j (Moment.number?_of_entering? hmj)

theorem le_of_mem_exits {j : Nat} (hj : j ∈ past.exits) : 1 ≤ j ∧ j ≤ past.calls := by
  obtain ⟨m, hm, hmj⟩ := List.mem_filterMap.1 hj
  exact hpast.known m hm j (Moment.number?_of_leaving? hmj)

theorem le_of_mem_outcomes {j : Nat} {o : (c : I.Call) × I.Answer c}
    (hj : (j, o) ∈ past.outcomes) : 1 ≤ j ∧ j ≤ past.calls := by
  obtain ⟨m, hm, hmj⟩ := List.mem_filterMap.1 hj
  exact hpast.known m hm j (Moment.number?_of_outcome? hmj)

theorem le_of_mem_returns {j : Nat} (hj : j ∈ past.returns) : 1 ≤ j ∧ j ≤ past.calls := by
  obtain ⟨o, ho, rfl⟩ := List.mem_map.1 hj
  exact hpast.le_of_mem_outcomes ho

/-- What happened before a call that has begun does not change any more. -/
theorem before_append {j : Nat} (hj : 1 ≤ j ∧ j ≤ past.calls) (rest : History I E W) :
    before j (past ++ rest) = before j past := by
  obtain ⟨m, hm, hmj⟩ := List.mem_filterMap.1 ((hpast.mem_begun_iff j).2 hj)
  have hstop : (m.beginning? != some j) = false := bne_eq_false_iff_eq.2 hmj
  clear hpast hj hmj
  -- induction up to the moment that stops the search in both histories
  simp only [before]
  induction past with
  | nil => simp at hm
  | cons first past ih =>
      cases hfirst : first.beginning? != some j with
      | false =>
          simp only [List.cons_append, List.takeWhile_cons, hfirst, Bool.false_eq_true, if_false]
      | true =>
          rcases List.mem_cons.1 hm with rfl | hm
          · rw [hfirst] at hstop
            cases hstop
          · simp only [List.cons_append, List.takeWhile_cons, hfirst, if_true, ih hm]

/-- Before the next call begins, all that has happened so far has happened. -/
theorem before_next (c : I.Call) (w : W) (rest : History I E W) :
    before (past.calls + 1) (past ++ .began (past.calls + 1) c w :: rest) = past := by
  have hall : ∀ m ∈ past, (m.beginning? != some (past.calls + 1)) = true := by
    intro m hm
    rw [bne_iff_ne]
    intro hmk
    have := hpast.known m hm (past.calls + 1) (Moment.number?_of_beginning? hmk)
    omega
  rw [before, List.takeWhile_append_of_pos hall]
  simp

/-- The number of a call counts the calls that began before it, and itself. -/
theorem number_eq {earlier future : History I E W} {k : Nat} {c : I.Call} {w : W}
    (hsplit : past = earlier ++ .began k c w :: future) : k = earlier.calls + 1 := by
  have horder := hpast.inOrder
  rw [hsplit, begun_append, begun_cons] at horder
  have hlength : earlier.begun.length = earlier.calls := rfl
  have hk := congrArg (fun numbers => numbers[earlier.calls]?) horder
  rw [List.getElem?_append_right (Nat.le_of_eq hlength), hlength, Nat.sub_self] at hk
  simp only [Moment.beginning?, Option.toList_some, List.cons_append, List.getElem?_cons_zero,
    calls_append, calls_cons] at hk
  rw [List.getElem?_range' (by simp)] at hk
  simp only [Option.some.injEq] at hk
  omega

/-- No other call has the number of a call. -/
theorem number_notMem {earlier future : History I E W} {k : Nat} {c : I.Call} {w : W}
    (hsplit : past = earlier ++ .began k c w :: future) : k ∉ earlier.begun ∧ k ∉ future.begun := by
  have hnodup : past.begun.Nodup := by
    rw [hpast.inOrder]
    exact List.nodup_range'
  rw [hsplit, begun_append, begun_cons, List.nodup_append] at hnodup
  obtain ⟨-, hrest, hapart⟩ := hnodup
  exact ⟨fun hk => hapart k hk k (by simp) rfl, (List.nodup_cons.1 hrest).1⟩

/-- A call begins once. -/
theorem began_eq {k : Nat} {c d : I.Call} {w u : W} (hc : .began k c w ∈ past)
    (hd : .began k d u ∈ past) : d = c ∧ u = w := by
  obtain ⟨earlier, future, hsplit⟩ := List.append_of_mem hc
  obtain ⟨hearlier, hfuture⟩ := hpast.number_notMem hsplit
  rw [hsplit, List.mem_append, List.mem_cons] at hd
  rcases hd with hd | hd | hd
  · exact absurd (mem_begun hd) hearlier
  · cases hd
    exact ⟨rfl, rfl⟩
  · exact absurd (mem_begun hd) hfuture

/-- What happened before a call is what stands before its beginning. -/
theorem before_eq {earlier future : History I E W} {k : Nat} {c : I.Call} {w : W}
    (hsplit : past = earlier ++ .began k c w :: future) : before k past = earlier := by
  have hall : ∀ m ∈ earlier, (m.beginning? != some k) = true := by
    intro m hm
    rw [bne_iff_ne]
    intro hmk
    exact (hpast.number_notMem hsplit).1 (List.mem_filterMap.2 ⟨m, hm, hmk⟩)
  rw [before, hsplit, List.takeWhile_append_of_pos hall]
  simp

/-- A call that answers at once leaves the same calls open. -/
theorem open_finished_iff (j : Nat) (c : I.Call) (a : I.Answer c) (w w' : W) :
    Open j (past ++ [.began (past.calls + 1) c w, .returned (past.calls + 1) c a w']) ↔
      Open j past := by
  have hopen : Open j (past ++ [.began (past.calls + 1) c w, .returned (past.calls + 1) c a w']) ↔
      j ∈ past.entries ∧ j ∉ past.returns ∧ j ≠ past.calls + 1 := by simp [Open]
  rw [hopen]
  constructor
  · rintro ⟨hentered, hreturned, -⟩
    exact ⟨hentered, hreturned⟩
  · rintro ⟨hentered, hreturned⟩
    have := (hpast.le_of_mem_entries hentered).2
    exact ⟨hentered, hreturned, by omega⟩

/-- A call that enters its hook is open from then on. -/
theorem open_entered_iff (j : Nat) (c : I.Call) (h : I.Hook) (w w' : W) :
    Open j (past ++ [.began (past.calls + 1) c w, .entered (past.calls + 1) h w']) ↔
      Open j past ∨ j = past.calls + 1 := by
  have hopen : Open j (past ++ [.began (past.calls + 1) c w, .entered (past.calls + 1) h w']) ↔
      (j ∈ past.entries ∨ j = past.calls + 1) ∧ j ∉ past.returns := by simp [Open]
  rw [hopen]
  constructor
  · rintro ⟨hentered | rfl, hreturned⟩
    · exact .inl ⟨hentered, hreturned⟩
    · exact .inr rfl
  · rintro (⟨hentered, hreturned⟩ | rfl)
    · exact ⟨.inl hentered, hreturned⟩
    · refine ⟨.inr rfl, fun hreturned => ?_⟩
      have := (hpast.le_of_mem_returns hreturned).2
      omega

end History.Numbered

namespace History

variable (j k : Nat) (history : History I E W)

theorem open_left_iff (h : I.Hook) (w : W) :
    Open j (history ++ [.left k h w]) ↔ Open j history := by
  simp [Open]

theorem open_returned_iff (c : I.Call) (a : I.Answer c) (h : I.Hook) (w w' : W) :
    Open j (history ++ [.left k h w, .returned k c a w']) ↔ Open j history ∧ j ≠ k := by
  simp [Open, and_assoc]

theorem open_acted_iff (e : E) (w : W) : Open j (history ++ [.acted e w]) ↔ Open j history := by
  simp [Open]

end History

/-! ## Moment by moment -/

/-- `P` holds of every moment of a history that happens after `past`, and of what was before it. -/
def Along (P : History I E W → Moment I E W → Prop) : History I E W → History I E W → Prop
  | _, [] => True
  | past, m :: rest => P past m ∧ Along P (past ++ [m]) rest

theorem along_append {P : History I E W → Moment I E W → Prop} (a b past : History I E W) :
    Along P past (a ++ b) ↔ Along P past a ∧ Along P (past ++ a) b := by
  induction a generalizing past with
  | nil => simp [Along]
  | cons m a ih => simp [Along, ih, and_assoc]

theorem Along.at_moment {P : History I E W → Moment I E W → Prop}
    {past earlier later : History I E W} {now : Moment I E W}
    (h : Along P past (earlier ++ now :: later)) : P (past ++ earlier) now :=
  ((along_append earlier (now :: later) past).1 h).2.1

end SerialGateway
