import SerialGateway.Bench.Control
import SerialGateway.Bench.Devices
import SerialGateway.Proofs.Events.Uses
import SerialGateway.Proofs.Node.ConsoleBooks

/-!
# Notifications over whole runs

The events of a node under any calls, from the foreground, inside callbacks and inside atomic
sections, and under surroundings that do anything to its devices. The calls that have returned are
the log of the uses (`eventUses`), and at every moment the register of the node shows that log
(`notifications_kept`). No other call touches the register (`events_reached`, `events_resume`), so
what one use leaves is what the next one finds.
-/

set_option autoImplicit false

namespace SerialGateway.Node

open History EventUse

variable {M D E : Type} {cap : Nat}

/-! ## The log of a run -/

/-- What a call that has returned did with the events. -/
def eventUse? : (c : Call) × Answer c → Option EventUse
  | ⟨.setEvent e, answer⟩ => some (.set e answer)
  | ⟨.clearEvent e, answer⟩ => some (.clear e answer)
  | ⟨.isPending e, answer⟩ => some (.poll e answer)
  | _ => none

/-- The uses of the events, in the order in which they were made. -/
def eventUses (history : History interface E (Node M D cap)) : List EventUse :=
  history.outcomes.filterMap fun returned => eventUse? returned.2

@[simp] theorem eventUses_nil :
    eventUses ([] : History interface E (Node M D cap)) = [] := rfl

@[simp] theorem eventUses_append (a b : History interface E (Node M D cap)) :
    eventUses (a ++ b) = eventUses a ++ eventUses b := by
  rw [eventUses, outcomes_append, List.filterMap_append]
  rfl

@[simp] theorem eventUses_cons (m : Moment interface E (Node M D cap))
    (rest : History interface E (Node M D cap)) :
    eventUses (m :: rest) = (m.outcome?.bind fun returned => eventUse? returned.2).toList ++
      eventUses rest := by
  rw [eventUses, outcomes_cons, List.filterMap_append]
  cases m.outcome? with
  | none => rfl
  | some returned =>
      rw [Option.toList_some, List.filterMap_cons, Option.bind_some]
      cases eventUse? returned.2 <;> rfl

variable [InterruptControl M] [Peripherals D]

/-! ## One call -/

/-- A use answers whether any of its event was pending. -/
theorem answer_of_eventUse? {c : Call} {n : Node M D cap} {use : EventUse}
    (huse : eventUse? ⟨c, n.reply c⟩ = some use) :
    use.answer = n.shared.events.isPending use.event := by
  cases c with
  | setEvent | clearEvent | isPending =>
      cases huse
      rfl
  | _ => cases huse

/-- A call that enters a hook is no use of the events. -/
theorem eventUse?_of_enters {c : Call} {hook : Hook} (h : Enters c hook) (a : Answer c) :
    eventUse? ⟨c, a⟩ = none := by
  cases h <;> rfl

/-- Only `set` and `clear` change the register. -/
theorem events_reached {c : Call} (hc : ∀ e, c ≠ .setEvent e ∧ c ≠ .clearEvent e)
    (n : Node M D cap) : (start c n).reached.shared.events = n.shared.events := by
  cases c with
  | setEvent e => exact absurd rfl (hc e).1
  | clearEvent e => exact absurd rfl (hc e).2
  | tickInterrupt =>
      obtain ⟨guard, scheduler, hreached⟩ := n.exists_reached_tickInterrupt
      show n.tickInterrupt.reached.shared.events = _
      rw [hreached]
  | consoleInterrupt =>
      obtain ⟨guard, console, reboot, hbooked⟩ := n.exists_bookConsole
      show n.consoleInterrupt.reached.shared.events = _
      rw [reached_consoleInterrupt, hbooked]
  | _ => rfl

/-- No call changes the register after its hook. -/
theorem events_resume {c : Call} {n n' : Node M D cap} {hook : Hook}
    {resume : Node M D cap → Answer c × Node M D cap} (hs : start c n = .entering hook n' resume)
    (inside : Node M D cap) : (resume inside).2.shared.events = inside.shared.events :=
  congrArg Records.events (records_resume c hs inside)

/-- A register that shows a log shows it still when a call has been made, with the use that the call
is. -/
theorem reflects_reached {uses : List EventUse} {n : Node M D cap}
    (h : n.shared.events.Reflects uses) (c : Call) :
    (start c n).reached.shared.events.Reflects (uses ++ (eventUse? ⟨c, n.reply c⟩).toList) := by
  cases c with
  | setEvent e => exact h.set e
  | clearEvent e => exact h.clear e
  | isPending e => exact h.poll e _
  | _ =>
      rw [events_reached (by simp)]
      show n.shared.events.Reflects (uses ++ [])
      rwa [List.append_nil]

/-! ## Every run -/

/-- The events of a node show their uses. -/
def Notified (past : History interface E (Node M D cap)) (n : Node M D cap) : Prop :=
  n.shared.events.Reflects (eventUses past)

/-- No call and no doing loses a notification. -/
theorem invariant_notified (apply : E → D → D) :
    Invariant (attached apply : Component interface (Node M D cap) E) Notified where
  finished := by
    intro past k c n a n' _ _ h hs
    have hreached := reflects_reached h c
    rw [reply, show start c n = .finished a n' from hs] at hreached
    have hend : n'.shared.events.Reflects (eventUses past ++ (eventUse? ⟨c, a⟩).toList) := hreached
    simpa [Notified] using hend
  entered := by
    intro past k c n hook n' resume _ _ h hs
    have hreached := reflects_reached h c
    rw [eventUse?_of_enters (enters_of_start hs),
      show start c n = .entering hook n' resume from hs] at hreached
    have hend : n'.shared.events.Reflects (eventUses past ++ []) := hreached
    simpa [Notified] using hend
  left := by
    intro past k c n hook n' resume nested inside _ _ _ hs _ hin
    have hnone := eventUse?_of_enters (enters_of_start hs) (resume inside).1
    have hsame := events_resume hs inside
    constructor
    · simpa [Notified] using hin
    · simpa [Notified, hnone, hsame] using hin
  acted := by
    intro past e n _ h
    have hsame : ((attached apply).act e n).shared.events = n.shared.events := rfl
    simpa [Notified, hsame] using h

/-- Where the answer of a use comes from: the register as its call has found it. -/
theorem answered_of_outcome {apply : E → D → D} {t : CallTree interface E (Node M D cap)}
    {n₀ : Node M D cap} {k : Nat} {returned : (c : Call) × Answer c}
    (hout : (k, returned) ∈ outcomes (t.moments (attached apply) n₀)) {use : EventUse}
    (huse : eventUse? returned = some use) :
    ∃ n, .began k returned.1 n ∈ t.moments (attached apply) n₀ ∧
      use.answer = n.shared.events.isPending use.event := by
  obtain ⟨c, a⟩ := returned
  rcases (runs_moments (attached apply) t n₀).answered hout with
    @⟨n, n', a, hbegan, hs⟩ | ⟨inside, hbegan, hentered, hs⟩
  · have hreply : n.reply c = a := by
      rw [reply, show start c n = .finished a n' from hs]
      rfl
    rw [← hreply] at huse
    exact ⟨n, hbegan, answer_of_eventUse? huse⟩
  · rw [eventUse?_of_enters (enters_of_start hs)] at huse
    cases huse

/-- The events of a node over a whole run from its start. At every moment and at the end the
register shows the uses so far: a bit is pending if it was set last, and notifications that are
never joined with others are used up once each. Every call returns, and a use answers whether any
bit of its event was pending when it began. No other call changes the register. -/
theorem notifications_kept (timing : ChannelTiming) (controller : M) (hcap : 0 < cap) (devices : D)
    (apply : E → D → D) (t : CallTree interface E (Node M D cap)) :
    let n₀ := Node.new controller timing devices cap hcap
    let history : History interface E (Node M D cap) := t.moments (attached apply) n₀
    (∀ past now future, history = past ++ now :: future →
        now.At (fun past n => n.shared.events.Reflects (eventUses past)) past) ∧
      (t.run (attached apply) n₀).shared.events.Reflects (eventUses history) ∧
      (∀ k c n, .began k c n ∈ history → ∃ a, (k, ⟨c, a⟩) ∈ history.outcomes) ∧
      (∀ k returned use, (k, returned) ∈ history.outcomes → eventUse? returned = some use →
        ∃ n, .began k returned.1 n ∈ history ∧
          (use.answer = true ↔
            ∃ bit, use.event.has bit = true ∧ n.shared.events.has bit = true)) ∧
      ∀ c, (∀ e, c ≠ .setEvent e ∧ c ≠ .clearEvent e) → ∀ n : Node M D cap,
        (start c n).reached.shared.events = n.shared.events ∧
          ∀ hook n' resume, start c n = .entering hook n' resume →
            ∀ inside, (resume inside).2.shared.events = inside.shared.events := by
  intro n₀ history
  have hrun : Runs (attached apply) 1 n₀ history (t.run (attached apply) n₀) :=
    runs_moments (attached apply) t n₀
  obtain ⟨hmoments, hend⟩ := (invariant_notified apply).of_tree t
    (show Notified [] n₀ from EventRegister.Reflects.start)
  refine ⟨hmoments, hend, hrun.returns fun _ => rfl, ?_, ?_⟩
  · intro k returned use hout huse
    obtain ⟨n, hbegan, hanswer⟩ := answered_of_outcome hout huse
    refine ⟨n, hbegan, ?_⟩
    rw [hanswer, EventRegister.isPending_iff]
  · intro c hc n
    refine ⟨events_reached hc n, ?_⟩
    intro hook n' resume hs inside
    exact events_resume hs inside

open Bench in
/-- Condition 0 is set by the foreground, used up inside an atomic section that also sets two other
conditions at once, and set again by a callback. -/
theorem notifications_kept_set_again :
    let single : Event := ⟨1⟩
    let pair : Event := ⟨6⟩
    let t : CallTree interface (Devices → Devices) (Node Control Devices 4) :=
      .call (.setEvent single) (fun _ => .done) fun _ =>
        .call .atomic
          (fun _ => .call (.setEvent pair) (fun _ => .done) fun _ =>
            .call (.clearEvent single) (fun _ => .done) fun _ => .done)
          fun _ =>
            .call .consoleInterrupt
              (fun _ => .call (.setEvent single) (fun _ => .done) fun _ => .done) fun _ => .done
    let n : Node Control Devices 4 :=
      Node.new { enabled := true } Settings.busTiming { console := [(65, .clean)] } 4 (by decide)
    let history := t.moments (attached fun f d => f d) n
    0 < 4 ∧ Event.ofBit 0 = .ok single ∧ Alone 0 (eventUses history) ∧
      eventUses history =
        [.set single false, .set pair false, .clear single true, .set single false] ∧
      (eventUses history).count (.set single false) =
        (eventUses history).count (.clear single true) + 1 := by
  intro single pair t n history
  have huses : eventUses history =
      [.set single false, .set pair false, .clear single true, .set single false] := by
    decide +kernel
  have halone : Alone 0 (eventUses history) := by
    rw [huses, Alone]
    decide
  obtain ⟨-, hend, -⟩ := notifications_kept Settings.busTiming (M := Control) { enabled := true }
    (show 0 < 4 by decide) { console := [(65, .clean)] } (fun f d => f d) t
  have hpending : (t.run (attached fun f d => f d) n).shared.events.has 0 = true := by
    decide +kernel
  have hbalanced := hend.balanced 0 single rfl halone
  rw [hpending] at hbalanced
  exact ⟨by decide, rfl, halone, huses, hbalanced⟩

end SerialGateway.Node
