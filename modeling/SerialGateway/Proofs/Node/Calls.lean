import SerialGateway.Node.Calls
import SerialGateway.Proofs.Schedule.Tick

/-!
# What a call does to a node

The `Records` of a node are what its calls keep about the world: the console ring, the reboot
detector, the events, the counts of the bus, the clock of the scheduler, and the devices with their
queues and their gap timer. Every call brings them up to date before it enters a callback
(`records_reached`) and leaves them alone afterwards (`records_resume`). `Enters` lists the hooks of
each call.

Not among the records are the interrupt flag with its guard, the mark of a running task and the
overruns: those depend on what is nested in what.
-/

set_option autoImplicit false

namespace SerialGateway.Node

variable {M D : Type} {cap : Nat}

/-! ## Records -/

/-- What a node remembers, and the devices it is attached to. -/
structure Records (D : Type) (cap : Nat) where
  console : Ring cap
  reboot : RebootSequence
  events : EventRegister
  bus : GapDetector
  subTicks : UInt8
  cadence : UInt8
  devices : D

/-- The records of a node. -/
def records (n : Node M D cap) : Records D cap where
  console := n.shared.console
  reboot := n.shared.reboot
  events := n.shared.events
  bus := n.shared.bus
  subTicks := n.shared.scheduler.subTicks
  cadence := n.shared.scheduler.cadence
  devices := n.devices

/-- The node with all that is not in its records replaced. -/
def aside (guard : AtomicSection M) (busy : Bool) (overruns : UInt8) (n : Node M D cap) :
    Node M D cap where
  guard := guard
  shared := { n.shared with scheduler := { n.shared.scheduler with busy, overruns } }
  devices := n.devices

theorem exists_aside_of_records_eq {n m : Node M D cap} (h : n.records = m.records) :
    ∃ guard busy overruns, m = n.aside guard busy overruns := by
  obtain ⟨guard, ⟨console, reboot, events, bus, ⟨subTicks, cadence, busy, overruns⟩⟩, devices⟩ := m
  cases h
  exact ⟨guard, busy, overruns, rfl⟩

theorem records_act (f : D → D) {n m : Node M D cap} (h : n.records = m.records) :
    (devicesPart.modify f n).records = (devicesPart.modify f m).records := by
  simp only [records, Records.mk.injEq] at h ⊢
  obtain ⟨h1, h2, h3, h4, h5, h6, h7⟩ := h
  exact ⟨h1, h2, h3, h4, h5, h6, congrArg f h7⟩

/-- The clock of the scheduler after a base tick. -/
def Records.tick (r : Records D cap) : Records D cap :=
  if r.subTicks + 1 < Settings.subTicksPerCadence then { r with subTicks := r.subTicks + 1 }
  else { r with subTicks := 0, cadence := r.cadence + 1 }

/-! ## One call -/

variable [InterruptControl M]

/-- A tick advances the clock before its task, and touches no other record. -/
theorem records_tickInterrupt (n : Node M D cap) :
    n.tickInterrupt.reached.records = n.records.tick := by
  have hticked := Scheduler.ticked n.shared.scheduler n.guard.controller
  -- the tick of the node is the tick of its scheduler, on a part of the node
  show ((((Scheduler.tick (n.shared.scheduler, n.guard.controller)).within schedulerPart n).route
    _).reached).records = _
  generalize Scheduler.tick (n.shared.scheduler, n.guard.controller) = step at hticked
  cases hticked with
  | pending more => exact (if_pos more).symm
  | overrun full | idle full | task full => exact (if_neg full).symm

/-- A tick changes nothing but the scheduler and the guard. -/
theorem exists_reached_tickInterrupt (n : Node M D cap) :
    ∃ guard scheduler, n.tickInterrupt.reached =
      { n with guard, shared := { n.shared with scheduler } } := by
  have hticked := Scheduler.ticked n.shared.scheduler n.guard.controller
  rw [tickInterrupt, show schedulerPart.get n = (n.shared.scheduler, n.guard.controller) from rfl]
  generalize Scheduler.tick (n.shared.scheduler, n.guard.controller) = step at hticked
  cases hticked with
  | pending | overrun | idle | task => exact ⟨_, _, rfl⟩

/-- Of the records, a tick changes the clock only. -/
theorem reached_tickInterrupt (n : Node M D cap) :
    n.tickInterrupt.reached.shared.console = n.shared.console ∧
      n.tickInterrupt.reached.shared.bus = n.shared.bus ∧
      n.tickInterrupt.reached.devices = n.devices := by
  obtain ⟨guard, scheduler, hreached⟩ := n.exists_reached_tickInterrupt
  rw [hreached]
  exact ⟨rfl, rfl, rfl⟩

/-- A tick that enters a hook enters a task, and answers that it ran it. What it does after the
task, no record shows. -/
theorem entering_tickInterrupt {n n' : Node M D cap} {h : Hook}
    {resume : Node M D cap → Dispatch × Node M D cap}
    (hs : n.tickInterrupt = .entering h n' resume) :
    ∃ tier, h = .callback (.task tier) ∧ ∀ inside, (resume inside).1 = .ran (some tier) ∧
      (resume inside).2.records = inside.records := by
  have hticked := Scheduler.ticked n.shared.scheduler n.guard.controller
  rw [tickInterrupt, show schedulerPart.get n = (n.shared.scheduler, n.guard.controller) from rfl]
    at hs
  generalize Scheduler.tick (n.shared.scheduler, n.guard.controller) = step at hticked hs
  cases hticked with
  | pending | overrun | idle => cases hs
  | @task tier =>
      cases hs
      exact ⟨tier, rfl, fun inside => ⟨rfl, rfl⟩⟩

/-- After its task a tick ends the dispatch, and changes nothing else but the guard. -/
theorem exists_resume_tickInterrupt {n n' : Node M D cap} {h : Hook}
    {resume : Node M D cap → Dispatch × Node M D cap}
    (hs : n.tickInterrupt = .entering h n' resume) (inside : Node M D cap) :
    ∃ guard scheduler, (resume inside).2 =
      { inside with guard, shared := { inside.shared with scheduler } } := by
  have hticked := Scheduler.ticked n.shared.scheduler n.guard.controller
  rw [tickInterrupt, show schedulerPart.get n = (n.shared.scheduler, n.guard.controller) from rfl]
    at hs
  generalize Scheduler.tick (n.shared.scheduler, n.guard.controller) = step at hticked hs
  cases hticked with
  | pending | overrun | idle => cases hs
  | task =>
      cases hs
      exact ⟨_, _, rfl⟩

variable [Peripherals D]

/-- The byte of a console interrupt, accounted for. -/
def bookConsole (n : Node M D cap) : ConsoleOutcome × Node M D cap :=
  let taken := Peripherals.console.take n.devices
  { n with devices := taken.2 }.exclusively fun s d =>
    let accepted := acceptConsole taken.1 s
    (accepted.1, accepted.2, d)

/-- A byte that requests a reboot enters no callback. -/
theorem consoleInterrupt_cases (n : Node M D cap) :
    n.consoleInterrupt = .answer n.bookConsole ∨
      n.consoleInterrupt = notify (.consoleByte (Peripherals.console.take n.devices).1)
        n.bookConsole.1 n.bookConsole.2 := by
  simp only [consoleInterrupt]
  split
  · exact .inl rfl
  · exact .inr rfl
  · exact .inr rfl

theorem reached_consoleInterrupt (n : Node M D cap) :
    n.consoleInterrupt.reached = n.bookConsole.2 := by
  rcases n.consoleInterrupt_cases with h | h <;> rw [h] <;> rfl

theorem complete_consoleInterrupt (n : Node M D cap) (f : Hook → Node M D cap → Node M D cap) :
    (n.consoleInterrupt.complete f).1 = n.bookConsole.1 := by
  rcases n.consoleInterrupt_cases with h | h <;> rw [h] <;> rfl

/-- Accounting for a console byte changes nothing but the ring and the reboot detector. -/
theorem exists_acceptConsole (byte : UInt8) (s : SharedState cap) :
    ∃ console reboot, (acceptConsole byte s).2 = { s with console, reboot } := by
  simp only [acceptConsole]
  split <;> exact ⟨_, _, rfl⟩

theorem acceptConsole_scheduler (byte : UInt8) (s : SharedState cap) :
    (acceptConsole byte s).2.scheduler = s.scheduler := by
  obtain ⟨console, reboot, haccept⟩ := exists_acceptConsole byte s
  rw [haccept]

theorem acceptConsole_with_scheduler (byte : UInt8) (s : SharedState cap) (scheduler : Scheduler) :
    acceptConsole byte { s with scheduler } =
      ((acceptConsole byte s).1, { (acceptConsole byte s).2 with scheduler }) := by
  simp only [acceptConsole]
  split <;> rfl

/-- A console interrupt takes a byte, and changes nothing else but the guard, the ring and the reboot
detector. -/
theorem exists_bookConsole (n : Node M D cap) :
    ∃ guard console reboot, n.bookConsole.2 =
      { guard, shared := { n.shared with console, reboot },
        devices := (Peripherals.console.take n.devices).2 } := by
  obtain ⟨console, reboot, haccept⟩ :=
    exists_acceptConsole (Peripherals.console.take n.devices).1 n.shared
  simp only [bookConsole, exclusively, haccept]
  exact ⟨_, _, _, rfl⟩

theorem bookConsole_aside (guard : AtomicSection M) (busy : Bool) (overruns : UInt8)
    (n : Node M D cap) :
    (n.aside guard busy overruns).bookConsole.1 = n.bookConsole.1 ∧
      (n.aside guard busy overruns).bookConsole.2.records = n.bookConsole.2.records := by
  have haccept := acceptConsole_with_scheduler (Peripherals.console.take n.devices).1 n.shared
    { n.shared.scheduler with busy, overruns }
  simp only [bookConsole, exclusively, aside, haccept]
  simp only [records, acceptConsole_scheduler, and_self]

/-- The bookkeeping of a call reads and writes nothing but records. -/
theorem records_reached (c : Call) {n m : Node M D cap} (h : n.records = m.records) :
    (start c n).reached.records = (start c m).reached.records := by
  obtain ⟨guard, busy, overruns, rfl⟩ := exists_aside_of_records_eq h
  cases c with
  | tickInterrupt =>
      show n.tickInterrupt.reached.records = (aside ..).tickInterrupt.reached.records
      rw [records_tickInterrupt, records_tickInterrupt, h]
  | consoleInterrupt =>
      show n.consoleInterrupt.reached.records = (aside ..).consoleInterrupt.reached.records
      rw [reached_consoleInterrupt, reached_consoleInterrupt, (bookConsole_aside ..).2]
  | _ => rfl

/-- After its hook a call changes no record. -/
theorem records_resume (c : Call) {n n' : Node M D cap} {h : Hook}
    {resume : Node M D cap → Answer c × Node M D cap} (hs : start c n = .entering h n' resume)
    (inside : Node M D cap) : (resume inside).2.records = inside.records := by
  cases c with
  | tickInterrupt =>
      obtain ⟨tier, -, hresume⟩ := entering_tickInterrupt hs
      exact (hresume inside).2
  | consoleInterrupt =>
      rcases n.consoleInterrupt_cases with hn | hn
      · cases hn.symm.trans hs
      · cases hn.symm.trans hs
        rfl
  | busInterrupt | silenceInterrupt =>
      cases hs
      rfl
  | atomic =>
      cases hs
      rfl
  | _ => cases hs

/-! ## Hooks -/

/-- The hooks that a call may enter. -/
inductive Enters : Call → Hook → Prop
  | consoleByte (byte : UInt8) : Enters .consoleInterrupt (.callback (.consoleByte byte))
  | busByte (byte : UInt8) (status : RxStatus) :
      Enters .busInterrupt (.callback (.busByte byte status))
  | busSilence : Enters .silenceInterrupt (.callback .busSilence)
  | task (tier : Tier) : Enters .tickInterrupt (.callback (.task tier))
  | masked : Enters .atomic .masked

theorem enters_of_start {c : Call} {n n' : Node M D cap} {h : Hook}
    {resume : Node M D cap → Answer c × Node M D cap} (hs : start c n = .entering h n' resume) :
    Enters c h := by
  cases c with
  | tickInterrupt =>
      obtain ⟨tier, rfl, -⟩ := entering_tickInterrupt hs
      exact .task tier
  | consoleInterrupt =>
      rcases n.consoleInterrupt_cases with hn | hn
      · cases hn.symm.trans hs
      · cases hn.symm.trans hs
        exact .consoleByte _
  | busInterrupt =>
      cases hs
      exact .busByte _ _
  | silenceInterrupt =>
      cases hs
      exact .busSilence
  | atomic =>
      cases hs
      exact .masked
  | _ => cases hs

end SerialGateway.Node
