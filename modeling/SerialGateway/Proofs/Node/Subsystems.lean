import SerialGateway.Bench.Control
import SerialGateway.Bench.Devices
import SerialGateway.Proofs.Device.Wiring
import SerialGateway.Proofs.Node.Calls
import SerialGateway.Proofs.Reentrant.Separate

/-!
# The subsystems of a node

The calls of a node fall into four groups: console, bus, events and scheduler. They share one guard,
one record and one set of devices, but each of them touches the guard and its own part only
(`touches_reached`, `touches_resume`), and answers from its own part only (`alike`), whatever the
guard and the interrupts are. With an application whose callbacks do nothing, the calls of one group
therefore answer the same in all runs that make the same requests to the group
(`subsystems_do_not_interfere`).

The devices have to be apart as well: the console on one line, the bus with the gap timer on another
(`Wiring`). The body of an atomic section belongs to no group, and may make calls of all of them.
-/

set_option autoImplicit false

namespace SerialGateway

namespace Node

open History

variable {M D Con Bus : Type} {cap : Nat}

/-! ## Ticks -/

section Ticks

variable [InterruptControl M]

/-- What a tick answers, and what it leaves of the scheduler, does not depend on whether interrupts
are enabled. -/
theorem tick_alike (s : Scheduler) (controller controller' : M) :
    (Scheduler.tick (s, controller)).uneventful.1 =
        (Scheduler.tick (s, controller')).uneventful.1 ∧
      (Scheduler.tick (s, controller)).uneventful.2.1 =
        (Scheduler.tick (s, controller')).uneventful.2.1 := by
  simp only [Scheduler.tick]
  split
  · exact ⟨rfl, rfl⟩
  · split
    · exact ⟨rfl, rfl⟩
    · simp only [Scheduler.dispatch]
      cases Tier.ofCadence? s.stepCadence.cadence <;> exact ⟨rfl, rfl⟩

theorem uneventful_tickInterrupt (n : Node M D cap) :
    n.tickInterrupt.uneventful = ((Scheduler.tick (schedulerPart.get n)).uneventful.1,
      schedulerPart.put (Scheduler.tick (schedulerPart.get n)).uneventful.2 n) := by
  rw [tickInterrupt, Step.uneventful_route, Step.uneventful_within]

end Ticks

/-! ## Groups of requests -/

/-- The subsystems of a node. -/
inductive Group where
  | console
  | bus
  | events
  | scheduler
  deriving DecidableEq, Repr

/-- The subsystem that a call is made on. The body of a section may belong to any of them. -/
def Call.group? : Call → Option Group
  | .consoleInterrupt | .available | .read | .peek _ | .overflows | .flush | .capacity =>
      some .console
  | .busInterrupt | .silenceInterrupt | .armGapTimer | .busStats | .busTiming => some .bus
  | .setEvent _ | .clearEvent _ | .isPending _ => some .events
  | .tickInterrupt | .taskOverruns => some .scheduler
  | .atomic => none

/-- What may happen to the surroundings of a node: its console line, its bus line with the gap
timer, and the state of its interrupts. -/
inductive Doing (M Con Bus : Type) where
  | console (f : Con → Con)
  | bus (f : Bus → Bus)
  | interrupts (f : M → M)

/-- The subsystem that a doing belongs to. -/
def Doing.group? : Doing M Con Bus → Option Group
  | .console _ => some .console
  | .bus _ => some .bus
  | .interrupts _ => none

/-- The subsystem that a request belongs to. -/
def requestGroup? : Request interface (Doing M Con Bus) → Option Group
  | .call c => c.group?
  | .act e => e.group?

/-- The requests of a subsystem. -/
def Group.owns (g : Group) (req : Request interface (Doing M Con Bus)) : Bool :=
  requestGroup? req == some g

/-- What a subsystem has of the node. -/
abbrev Group.View (Con Bus : Type) (cap : Nat) : Group → Type
  | .console => Ring cap × RebootSequence × Con
  | .bus => GapDetector × Bus
  | .events => EventRegister
  | .scheduler => Scheduler

variable [Peripherals D] (wiring : Wiring D Con Bus)

/-- The subsystem's part of a node. -/
def Group.view : (g : Group) → Node M D cap → g.View Con Bus cap
  | .console, n => (n.shared.console, n.shared.reboot, wiring.console.get n.devices)
  | .bus, n => (n.shared.bus, wiring.bus.get n.devices)
  | .events, n => n.shared.events
  | .scheduler, n => n.shared.scheduler

/-- A doing changes its line, or the interrupts. -/
def Doing.apply : Doing M Con Bus → Node M D cap → Node M D cap
  | .console f => devicesPart.modify (wiring.console.modify f)
  | .bus f => devicesPart.modify (wiring.bus.modify f)
  | .interrupts f => controllerPart.modify f

/-- A node on two lines. -/
def wired [InterruptControl M] :
    Component interface (Node M D cap) (Doing M Con Bus) where
  start := start
  act e := e.apply wiring

/-! ## What a request touches -/

/-- The node `n'` differs from `n` at most in the guard and in what belongs to a subsystem. -/
inductive Touches (n : Node M D cap) : Option Group → Node M D cap → Prop
  | guard (group : Option Group) (guard : AtomicSection M) : Touches n group { n with guard }
  | console (guard : AtomicSection M) (console : Ring cap) (reboot : RebootSequence) (line : Con) :
      Touches n (some .console)
        { guard, shared := { n.shared with console, reboot },
          devices := wiring.console.put line n.devices }
  | bus (guard : AtomicSection M) (bus : GapDetector) (line : Bus) :
      Touches n (some .bus)
        { guard, shared := { n.shared with bus }, devices := wiring.bus.put line n.devices }
  | events (guard : AtomicSection M) (events : EventRegister) :
      Touches n (some .events) { n with guard, shared := { n.shared with events } }
  | scheduler (guard : AtomicSection M) (scheduler : Scheduler) :
      Touches n (some .scheduler) { n with guard, shared := { n.shared with scheduler } }

/-- What is touched is out of the view of the other subsystems. -/
theorem Touches.view_eq {n n' : Node M D cap} {group : Option Group} (h : Touches wiring n group n')
    {g : Group} (hg : group ≠ some g) : g.view wiring n' = g.view wiring n := by
  cases h with
  | guard => cases g <;> rfl
  | console guard console reboot line =>
      cases g with
      | console => exact absurd rfl hg
      | bus => exact congrArg (n.shared.bus, ·) (wiring.bus_put_console line n.devices)
      | events | scheduler => rfl
  | bus guard bus line =>
      cases g with
      | bus => exact absurd rfl hg
      | console =>
          exact congrArg (n.shared.console, n.shared.reboot, ·)
            (wiring.console_put_bus line n.devices)
      | events | scheduler => rfl
  | events =>
      cases g with
      | events => exact absurd rfl hg
      | console | bus | scheduler => rfl
  | scheduler =>
      cases g with
      | scheduler => exact absurd rfl hg
      | console | bus | events => rfl

/-! ## Doings -/

theorem touches_act (e : Doing M Con Bus) (n : Node M D cap) :
    Touches wiring n e.group? (e.apply wiring n) := by
  cases e with
  | console f => exact .console n.guard n.shared.console n.shared.reboot _
  | bus f => exact .bus n.guard n.shared.bus _
  | interrupts f => exact .guard _ _

/-- A doing of a line shows what it does to the line. -/
theorem act_alike {e : Doing M Con Bus} {g : Group} (he : e.group? = some g) {n m : Node M D cap}
    (h : g.view wiring n = g.view wiring m) :
    g.view wiring (e.apply wiring n) = g.view wiring (e.apply wiring m) := by
  cases e with
  | console f =>
      cases he
      simp only [Group.view, Prod.mk.injEq] at h
      obtain ⟨hring, hreboot, hline⟩ := h
      simp only [Group.view, Doing.apply, devicesPart, Part.modify, wiring.console.get_put, hring,
        hreboot, hline]
  | bus f =>
      cases he
      simp only [Group.view, Prod.mk.injEq] at h
      obtain ⟨hbus, hline⟩ := h
      simp only [Group.view, Doing.apply, devicesPart, Part.modify, wiring.bus.get_put, hbus, hline]
  | interrupts f => cases he

/-! ## Calls -/

variable [InterruptControl M]

/-- Up to its hook, a call touches its own subsystem only. -/
theorem touches_reached (c : Call) (n : Node M D cap) :
    Touches wiring n c.group? (start c n).reached := by
  cases c with
  | consoleInterrupt =>
      have hreached : (start .consoleInterrupt n).reached = n.bookConsole.2 :=
        n.reached_consoleInterrupt
      obtain ⟨guard, console, reboot, hbooked⟩ := n.exists_bookConsole
      rw [hreached, hbooked, wiring.take_console]
      exact .console guard console reboot _
  | read =>
      -- a read puts the line back as it was
      have hreached : (start .read n).reached =
          { guard := n.guard.disable.restore
            shared := { n.shared with console := n.shared.console.pop.2 }
            devices := wiring.console.put (wiring.console.get n.devices) n.devices } := by
        rw [wiring.console.put_get]
        rfl
      rw [hreached]
      exact .console _ _ _ _
  | flush =>
      have hreached : (start .flush n).reached =
          { guard := n.guard.disable.restore
            shared := { n.shared with
              console := (n.shared.console.flush Peripherals.console n.devices).1 }
            devices := (n.shared.console.flush Peripherals.console n.devices).2 } := rfl
      rw [hreached, wiring.flush_console]
      exact .console _ _ _ _
  | busInterrupt =>
      let errors := Peripherals.bus.errors n.devices
      let taken := (Peripherals.bus.take n.devices).2
      have hreached : (start .busInterrupt n).reached =
          { guard := n.guard.disable.restore
            shared := { n.shared with
              bus := (n.shared.bus.onByte Peripherals.gap errors taken).2.1 }
            devices := (n.shared.bus.onByte Peripherals.gap errors taken).2.2 } := rfl
      rw [hreached, wiring.onByte_take_bus]
      exact .bus _ _ _
  | silenceInterrupt =>
      have hreached : (start .silenceInterrupt n).reached =
          { guard := n.guard.disable.restore
            shared := n.shared
            devices := n.shared.bus.onTimeout Peripherals.gap n.devices } := rfl
      rw [hreached, wiring.onTimeout_bus]
      exact .bus _ n.shared.bus _
  | armGapTimer =>
      have hreached : (start .armGapTimer n).reached =
          { guard := n.guard.disable.restore
            shared := n.shared
            devices := n.shared.bus.arm Peripherals.gap n.devices } := rfl
      rw [hreached, wiring.arm_bus]
      exact .bus _ n.shared.bus _
  | tickInterrupt =>
      obtain ⟨guard, scheduler, hticked⟩ := n.exists_reached_tickInterrupt
      have hreached : (start .tickInterrupt n).reached =
          { n with guard, shared := { n.shared with scheduler } } := hticked
      rw [hreached]
      exact .scheduler guard scheduler
  | setEvent | clearEvent => exact .events _ _
  -- the others read, and touch nothing but the guard
  | available | peek | overflows | capacity | busStats | busTiming | isPending | taskOverruns
    | atomic => exact .guard _ _

/-- After its hook a call touches at most the guard, except that a tick ends its dispatch. -/
theorem touches_resume {c : Call} {n n' : Node M D cap} {hook : Hook}
    {resume : Node M D cap → Answer c × Node M D cap} (hs : start c n = .entering hook n' resume)
    (inside : Node M D cap) : Touches wiring inside c.group? (resume inside).2 := by
  cases c with
  | tickInterrupt =>
      obtain ⟨guard, scheduler, hresume⟩ := exists_resume_tickInterrupt hs inside
      rw [hresume]
      exact .scheduler guard scheduler
  | consoleInterrupt =>
      rcases n.consoleInterrupt_cases with hn | hn
      · cases hn.symm.trans hs
      · cases hn.symm.trans hs
        exact .guard _ inside.guard
  | busInterrupt | silenceInterrupt =>
      cases hs
      exact .guard _ inside.guard
  | atomic =>
      cases hs
      exact .guard _ _
  | _ => cases hs

/-! ## What a subsystem reads -/

section Alike

variable {n m : Node M D cap}

/-- When its callback does nothing, a console interrupt is its bookkeeping. -/
theorem uneventful_consoleInterrupt (n : Node M D cap) :
    n.consoleInterrupt.uneventful = n.bookConsole := by
  rcases n.consoleInterrupt_cases with h | h <;> rw [h] <;> rfl

theorem console_alike {c : Call} (hc : c.group? = some .console)
    (h : Group.console.view wiring n = Group.console.view wiring m) :
    (start c n).Alike (Group.console.view wiring) (start c m) := by
  simp only [Group.view, Prod.mk.injEq] at h
  obtain ⟨hring, hreboot, hline⟩ := h
  cases c with
  | available | peek | overflows | capacity | read =>
      simp only [Step.Alike, start, Step.answer, consult, exclusively, Step.uneventful,
        Step.complete, Group.view, hring, hreboot, hline, and_self]
  | flush =>
      -- the bytes that are discarded come from the line of the console
      simp only [Step.Alike, start, Step.answer, exclusively, Step.uneventful, Step.complete,
        Group.view, hring, hreboot, hline, wiring.flush_console, wiring.console.get_put, and_self]
  | consoleInterrupt =>
      have hbooked : ∀ n : Node M D cap, (start .consoleInterrupt n).uneventful = n.bookConsole :=
        uneventful_consoleInterrupt
      rw [Step.Alike, hbooked, hbooked]
      simp only [bookConsole, exclusively, acceptConsole, wiring.take_console, Group.view, hring,
        hreboot, hline, wiring.console.get_put]
      -- both bytes request a reboot, or none of them does
      split
      · exact ⟨rfl, rfl⟩
      · exact ⟨rfl, rfl⟩
  | _ => cases hc

theorem bus_alike {c : Call} (hc : c.group? = some .bus)
    (h : Group.bus.view wiring n = Group.bus.view wiring m) :
    (start c n).Alike (Group.bus.view wiring) (start c m) := by
  simp only [Group.view, Prod.mk.injEq] at h
  obtain ⟨hbus, hline⟩ := h
  cases c with
  | busInterrupt =>
      simp only [Step.Alike, start, busInterrupt, notify, exclusively, Step.uneventful,
        Step.complete, Group.view, hbus, hline, wiring.errors_bus, wiring.onByte_take_bus,
        wiring.bus.get_put, and_self]
  | silenceInterrupt =>
      simp only [Step.Alike, start, silenceInterrupt, notify, exclusively, Step.uneventful,
        Step.complete, Group.view, hbus, hline, wiring.onTimeout_bus, wiring.bus.get_put, and_self]
  | armGapTimer =>
      simp only [Step.Alike, start, Step.answer, exclusively, Step.uneventful, Step.complete,
        Group.view, hbus, hline, wiring.arm_bus, wiring.bus.get_put, and_self]
  | busStats | busTiming =>
      simp only [Step.Alike, start, Step.answer, consult, exclusively, Step.uneventful,
        Step.complete, Group.view, hbus, hline, and_self]
  | _ => cases hc

theorem events_alike {c : Call} (hc : c.group? = some .events)
    (h : Group.events.view wiring n = Group.events.view wiring m) :
    (start c n).Alike (Group.events.view wiring) (start c m) := by
  simp only [Group.view] at h
  cases c with
  | setEvent | clearEvent | isPending =>
      simp only [Step.Alike, start, Step.answer, exclusively, Step.uneventful, Step.complete,
        Group.view, h, and_self]
  | _ => cases hc

theorem scheduler_alike {c : Call} (hc : c.group? = some .scheduler)
    (h : Group.scheduler.view wiring n = Group.scheduler.view wiring m) :
    (start c n).Alike (Group.scheduler.view wiring) (start c m) := by
  cases c with
  | taskOverruns => exact ⟨congrArg Scheduler.overruns h, h⟩
  | tickInterrupt =>
      have htick : ∀ n : Node M D cap, (start .tickInterrupt n).uneventful =
          ((Scheduler.tick (schedulerPart.get n)).uneventful.1,
            schedulerPart.put (Scheduler.tick (schedulerPart.get n)).uneventful.2 n) :=
        uneventful_tickInterrupt
      have hpart : schedulerPart.get n = (m.shared.scheduler, n.guard.controller) :=
        congrArg (·, n.guard.controller) h
      rw [Step.Alike, htick, htick, hpart]
      exact tick_alike m.shared.scheduler n.guard.controller m.guard.controller
  | _ => cases hc

/-- A call answers from the part of its subsystem, and leaves there what depends on that part. -/
theorem alike {c : Call} {g : Group} (hc : c.group? = some g)
    (h : g.view wiring n = g.view wiring m) :
    (start c n).Alike (g.view wiring) (start c m) := by
  cases g with
  | console => exact console_alike wiring hc h
  | bus => exact bus_alike wiring hc h
  | events => exact events_alike wiring hc h
  | scheduler => exact scheduler_alike wiring hc h

end Alike

/-! ## Separation -/

/-- The hooks of a subsystem's calls are callbacks. -/
theorem callback_of_start {c : Call} {g : Group} (hc : c.group? = some g) {n n' : Node M D cap}
    {hook : Hook} {resume : Node M D cap → Answer c × Node M D cap}
    (hs : start c n = .entering hook n' resume) : hook ≠ .masked := by
  cases enters_of_start hs with
  | masked => cases hc
  | consoleByte | busByte | busSilence | task => exact nofun

theorem separate_wired (g : Group) :
    Separate (wired wiring : Component interface (Node M D cap) (Doing M Con Bus)) (· ≠ .masked)
      (g.view wiring) g.owns where
  running _ := rfl
  act e n m hmine h := act_alike wiring (beq_iff_eq.1 hmine) h
  call c n m hmine h := alike wiring (beq_iff_eq.1 hmine) h
  silent hmine hs := callback_of_start (beq_iff_eq.1 hmine) hs
  others_act e n hmine := (touches_act wiring e n).view_eq wiring (beq_eq_false_iff_ne.1 hmine)
  others_call c n hmine := by
    apply Step.shows_of_reached
    · exact (touches_reached wiring c n).view_eq wiring (beq_eq_false_iff_ne.1 hmine)
    · intro hook n' resume hs inside
      exact (touches_resume wiring hs inside).view_eq wiring (beq_eq_false_iff_ne.1 hmine)

/-- Two runs of a node whose callbacks do nothing, from the same shared state and the same devices,
but in any states of the interrupts and of the guard. If the requests of one subsystem are the same
in both, then all its calls answer the same, and its part of the node is the same at the end,
whatever else is called and done before, between and around its requests. -/
theorem subsystems_do_not_interfere (g : Group) {n₁ n₂ : Node M D cap}
    (hshared : n₁.shared = n₂.shared) (hdevices : n₁.devices = n₂.devices)
    {t₁ t₂ : CallTree interface (Doing M Con Bus) (Node M D cap)}
    (ht₁ : t₁.Quiet (· ≠ Hook.masked)) (ht₂ : t₂.Quiet (· ≠ Hook.masked)) :
    let history₁ : History interface (Doing M Con Bus) (Node M D cap) :=
      t₁.moments (wired wiring) n₁
    let history₂ : History interface (Doing M Con Bus) (Node M D cap) :=
      t₂.moments (wired wiring) n₂
    history₁.requestsOf g.owns = history₂.requestsOf g.owns →
      history₁.answers g.owns = history₂.answers g.owns ∧
        (history₁.answers g.owns).map Sigma.fst =
          (history₁.requestsOf g.owns).filterMap Request.call? ∧
        g.view wiring (t₁.run (wired wiring) n₁) = g.view wiring (t₂.run (wired wiring) n₂) := by
  intro history₁ history₂ hsame
  have hview : g.view wiring n₁ = g.view wiring n₂ := by
    cases g <;> simp only [Group.view, hshared, hdevices]
  have hseparate : Separate (wired wiring) (· ≠ Hook.masked)
      (g.view wiring : Node M D cap → g.View Con Bus cap) g.owns := separate_wired wiring g
  obtain ⟨hanswers, hend⟩ := hseparate.agree ht₁ ht₂ hview hsame
  exact ⟨hanswers, hseparate.map_fst_answers ht₁ n₁, hend⟩

end Node

/-- The two lines of the bench. -/
def Bench.Devices.wiring : Wiring Devices ByteQueue (ByteQueue × Timer) where
  console := consolePart
  bus :=
    { get := fun d => (d.bus, d.timer)
      put := fun line d => { d with bus := line.1, timer := line.2 } }
  consoleReceiver := ByteQueue.receiver
  busReceiver := ByteQueue.receiver.within (Part.first ByteQueue Timer)
  timer := Timer.gapTimer.within { get := Prod.snd, put := fun timer line => (line.1, timer) }
  console_eq := rfl
  bus_eq := rfl
  gap_eq := rfl
  console_put_bus _ _ := rfl
  bus_put_console _ _ := rfl

namespace Node

open Bench in
/-- A console byte and its read, among ticks, sections and calls of the other subsystems, and by
themselves, from another state of the interrupts and of the guard. -/
theorem subsystems_do_not_interfere_console :
    let fresh : Node Control Devices 4 :=
      Node.new { enabled := true } Settings.busTiming {} 4 (by decide)
    let n : Node Control Devices 4 :=
      { fresh with guard := { controller := { enabled := false }, wereEnabled := true } }
    let arrive : Doing Control ByteQueue (ByteQueue × Timer) :=
      .console (ByteQueue.latch 65 .clean)
    let t₁ : CallTree interface (Doing Control ByteQueue (ByteQueue × Timer))
        (Node Control Devices 4) :=
      .flat [.call (.setEvent ⟨1⟩), .act arrive, .call .tickInterrupt, .call .consoleInterrupt,
        .act (.interrupts (Control.setEnabled false)), .call .busInterrupt, .call .atomic,
        .call .read, .call .taskOverruns]
    let t₂ : CallTree interface (Doing Control ByteQueue (ByteQueue × Timer))
        (Node Control Devices 4) :=
      .flat [.act arrive, .call .consoleInterrupt, .call .read]
    let history₁ : History interface (Doing Control ByteQueue (ByteQueue × Timer))
        (Node Control Devices 4) := t₁.moments (wired Devices.wiring) fresh
    let history₂ : History interface (Doing Control ByteQueue (ByteQueue × Timer))
        (Node Control Devices 4) := t₂.moments (wired Devices.wiring) n
    fresh.shared = n.shared ∧ fresh.devices = n.devices ∧ t₁.Quiet (· ≠ Hook.masked) ∧
      t₂.Quiet (· ≠ Hook.masked) ∧
      history₁.requestsOf Group.console.owns = history₂.requestsOf Group.console.owns ∧
      history₁.answers Group.console.owns = history₂.answers Group.console.owns ∧
      (history₁.answers Group.console.owns).map Sigma.fst = [.consoleInterrupt, .read] := by
  intro fresh n arrive t₁ t₂ history₁ history₂
  have hquiet₁ : t₁.Quiet (· ≠ Hook.masked) := CallTree.quiet_flat ..
  have hquiet₂ : t₂.Quiet (· ≠ Hook.masked) := CallTree.quiet_flat ..
  have hrequests₁ : history₁.requestsOf Group.console.owns =
      [.act arrive, .call .consoleInterrupt, .call .read] :=
    congrArg (List.filter Group.console.owns) (requests_flat (fun _ => rfl) _ 1 fresh)
  have hrequests₂ : history₂.requestsOf Group.console.owns =
      [.act arrive, .call .consoleInterrupt, .call .read] :=
    congrArg (List.filter Group.console.owns) (requests_flat (fun _ => rfl) _ 1 n)
  have hsame := hrequests₁.trans hrequests₂.symm
  obtain ⟨hanswers, hcalls, -⟩ := subsystems_do_not_interfere Devices.wiring .console
    (show fresh.shared = n.shared from rfl) (show fresh.devices = n.devices from rfl) hquiet₁ hquiet₂
    hsame
  refine ⟨rfl, rfl, hquiet₁, hquiet₂, hsame, hanswers, ?_⟩
  rw [hcalls, hrequests₁]
  rfl

end Node

end SerialGateway
