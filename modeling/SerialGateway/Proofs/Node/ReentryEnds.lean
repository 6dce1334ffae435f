import SerialGateway.Bench.Control
import SerialGateway.Bench.Devices
import SerialGateway.Board.Setup
import SerialGateway.Proofs.Node.ConsoleBooks
import SerialGateway.Proofs.Reentrant.Completion
import SerialGateway.Proofs.Ring.Flush

/-!
# Re-entry ends

An application is given by its callbacks, and a callback may call the node again, which enters
callbacks again. This comes to an end if the callbacks of the lines do not receive, whatever the
tasks do (`reentry_ends`). Without a task running, a tick may start one; while one is running, no
tick starts another; and what a line's callback calls enters no callback of a line. So there are
four kinds of places, by the mark of a running task and by whether receptions are allowed, and every
callback that is entered is in a place of a lower kind.

At no moment is more than one task on the stack, or more than two ticks that have reached a cadence
step (`Bounded` is the invariant).

Apart from re-entry, only a flush could keep a call from returning: it goes on as long as the
console receiver holds a byte. It ends with every receiver that runs dry (`flushEnds_of_dry`), and
need not end with others (`flushEnds_memory_iff`).
-/

set_option autoImplicit false

namespace SerialGateway.Node

/-- The call takes a byte from a line or serves the silence of one. -/
def Call.isReception : Call → Bool
  | .consoleInterrupt | .busInterrupt | .silenceInterrupt => true
  | _ => false

/-- The callback is a task. -/
def Callback.isTask : Callback → Bool
  | .task _ => true
  | .consoleByte _ | .busByte _ _ | .busSilence => false

/-- The callback is a task. -/
def Hook.isTask : Hook → Bool
  | .callback c => c.isTask
  | .masked => false

variable {M D E : Type} {cap : Nat}

/-- A task is running. -/
def busy (n : Node M D cap) : Bool := n.shared.scheduler.busy

/-- The next tick is a cadence step. -/
def cadenceDue (n : Node M D cap) : Bool :=
  !decide (n.shared.scheduler.subTicks + 1 < Settings.subTicksPerCadence)

/-- What happens in the hooks of a node: the body of a section is what its call has brought along,
and each callback does what the application says. -/
def callbacks (scripts : Callback → Routine interface E (Node M D cap)) :
    Hooks interface E (Node M D cap)
  | .masked, body => body
  | .callback c, _ => scripts c

/-! ## The mark of a running task -/

section Busy

variable [InterruptControl M] [Peripherals D]

/-- Only a tick uses the scheduler. -/
theorem scheduler_reached {c : Call} (hc : c ≠ .tickInterrupt) (n : Node M D cap) :
    (start c n).reached.shared.scheduler = n.shared.scheduler := by
  cases c with
  | tickInterrupt => exact absurd rfl hc
  | consoleInterrupt =>
      obtain ⟨guard, console, reboot, hbooked⟩ := n.exists_bookConsole
      show n.consoleInterrupt.reached.shared.scheduler = _
      rw [reached_consoleInterrupt, hbooked]
  | _ => rfl

/-- After their hooks, the other calls leave everything as it is but the guard. -/
theorem shared_resume {c : Call} (hc : c ≠ .tickInterrupt) {n n' : Node M D cap} {h : Hook}
    {resume : Node M D cap → Answer c × Node M D cap} (hs : start c n = .entering h n' resume)
    (inside : Node M D cap) : (resume inside).2.shared = inside.shared := by
  cases c with
  | tickInterrupt => exact absurd rfl hc
  | consoleInterrupt =>
      rcases n.consoleInterrupt_cases with hn | hn
      · cases hn.symm.trans hs
      · cases hn.symm.trans hs
        rfl
  | busInterrupt | silenceInterrupt | atomic =>
      cases hs
      rfl
  | _ => cases hs

/-- A call that enters no hook leaves the mark alone. -/
theorem busy_of_finished {c : Call} {n n' : Node M D cap} {a : Answer c}
    (hs : start c n = .finished a n') : n'.busy = n.busy := by
  by_cases hc : c = .tickInterrupt
  · subst hc
    have hticked := Scheduler.ticked n.shared.scheduler n.guard.controller
    rw [show start .tickInterrupt n = n.tickInterrupt from rfl, tickInterrupt,
      show schedulerPart.get n = (n.shared.scheduler, n.guard.controller) from rfl] at hs
    generalize Scheduler.tick (n.shared.scheduler, n.guard.controller) = step at hticked hs
    cases hticked with
    | pending | overrun =>
        cases hs
        rfl
    | idle _ free =>
        cases hs
        exact free.symm
    | task => cases hs
  · have hreached := scheduler_reached hc n
    rw [hs] at hreached
    exact congrArg Scheduler.busy hreached

/-- What a call that enters a hook does to the mark. A tick sets it for its task and clears it
afterwards. -/
inductive Marks (n n' : Node M D cap) :
    (c : Call) → Hook → (Node M D cap → Answer c × Node M D cap) → Prop
  | task {tier : Tier} {resume : Node M D cap → Dispatch × Node M D cap} (free : n.busy = false)
      (busy : n'.busy = true) (ends : ∀ inside, (resume inside).2.busy = false) :
      Marks n n' .tickInterrupt (.callback (.task tier)) resume
  | other {c : Call} {h : Hook} {resume : Node M D cap → Answer c × Node M D cap}
      (call_ne : c ≠ .tickInterrupt) (not_task : h.isTask = false) (kept : n'.busy = n.busy)
      (keeps : ∀ inside, (resume inside).2.busy = inside.busy) : Marks n n' c h resume

theorem marks_of_entering {c : Call} {n n' : Node M D cap} {h : Hook}
    {resume : Node M D cap → Answer c × Node M D cap} (hs : start c n = .entering h n' resume) :
    Marks n n' c h resume := by
  by_cases hc : c = .tickInterrupt
  · subst hc
    have hticked := Scheduler.ticked n.shared.scheduler n.guard.controller
    rw [show start .tickInterrupt n = n.tickInterrupt from rfl, tickInterrupt,
      show schedulerPart.get n = (n.shared.scheduler, n.guard.controller) from rfl] at hs
    generalize Scheduler.tick (n.shared.scheduler, n.guard.controller) = step at hticked hs
    cases hticked with
    | pending | overrun | idle => cases hs
    | task _ free =>
        cases hs
        exact .task free rfl fun _ => rfl
  · have hreached := scheduler_reached hc n
    rw [hs] at hreached
    refine .other hc ?_ (congrArg Scheduler.busy hreached) fun inside => ?_
    · cases enters_of_start hs with
      | task => exact absurd rfl hc
      | consoleByte | busByte | busSilence | masked => rfl
    · exact congrArg (·.scheduler.busy) (shared_resume hc hs inside)

end Busy

/-! ## Completion -/

section Completion

variable [InterruptControl M] [Peripherals D] {apply : E → D → D}
  {scripts : Callback → Routine interface E (Node M D cap)}

/-- Calls of one kind can be made again and again, with a task running or without one, if the
scripts of the callbacks that they enter complete and leave the mark as the call has found it. -/
theorem completing_of_scripts {calls : Call → Prop} {marked : Bool}
    (hscripts : ∀ {c : Call} {cb : Callback} {n n' : Node M D cap}
      {resume : Node M D cap → Answer c × Node M D cap}, calls c → n.busy = marked →
      start c n = .entering (.callback cb) n' resume →
      ∃ inside, (scripts cb).Completes (attached apply) (callbacks scripts) n' inside ∧
        (resume inside).2.busy = marked) :
    Completing (attached apply) (callbacks scripts) calls (·.busy = marked) where
  finished _ hn hs := (busy_of_finished hs).trans hn
  entering := by
    intro c n h n' resume body hc hn hs hbody
    cases h with
    | callback cb => exact hscripts hc hn hs
    | masked =>
        cases marks_of_entering hs with
        | other _ _ kept keeps =>
            obtain ⟨inside, hcompletes, hinside⟩ := hbody n' (kept.trans hn)
            exact ⟨inside, hcompletes, (keeps inside).trans hinside⟩
  act _ _ hn := hn

/-- A reception callback is entered by a reception. -/
theorem isReception_of_entering {c : Call} {cb : Callback} {n n' : Node M D cap}
    {resume : Node M D cap → Answer c × Node M D cap}
    (hs : start c n = .entering (.callback cb) n' resume) (hcb : cb.isTask = false) :
    c.isReception = true := by
  cases enters_of_start hs with
  | consoleByte | busByte | busSilence => rfl
  | task => cases hcb

variable (hscripts : ∀ cb, cb.isTask = false →
  (scripts cb).Only fun c : Call => c.isReception = false)

/-- During a task, calls that are no receptions enter no callback. -/
theorem completing_quiet_busy :
    Completing (attached apply) (callbacks scripts) (·.isReception = false) (·.busy = true) := by
  apply completing_of_scripts
  intro c cb n n' resume hc hn hs
  -- no tick starts a second task, and the callbacks of the lines need a reception
  cases marks_of_entering hs with
  | task free => rw [hn] at free; cases free
  | other _ not_task =>
      rw [isReception_of_entering hs not_task] at hc
      cases hc

include hscripts

/-- During a task, receptions enter callbacks that make no reception. -/
theorem completing_busy :
    Completing (attached apply) (callbacks scripts) (fun _ => True) (·.busy = true) := by
  apply completing_of_scripts
  intro c cb n n' resume _ hn hs
  cases marks_of_entering hs with
  | task free => rw [hn] at free; cases free
  | other _ not_task kept keeps =>
      obtain ⟨inside, hcompletes, hinside⟩ :=
        completing_quiet_busy.exists_completes (hscripts cb not_task) (kept.trans hn)
      exact ⟨inside, hcompletes, (keeps inside).trans hinside⟩

/-- A task completes, because everything does while it is running. -/
theorem completes_task {cb : Callback} {n' : Node M D cap} (hn' : n'.busy = true) :
    ∃ inside, (scripts cb).Completes (attached apply) (callbacks scripts) n' inside := by
  obtain ⟨inside, hcompletes, -⟩ :=
    (completing_busy hscripts).exists_completes (scripts cb).only_true hn'
  exact ⟨inside, hcompletes⟩

/-- Without a task, calls that are no receptions enter tasks only. -/
theorem completing_quiet_free :
    Completing (attached apply) (callbacks scripts) (·.isReception = false) (·.busy = false) := by
  apply completing_of_scripts
  intro c cb n n' resume hc _ hs
  cases marks_of_entering hs with
  | task _ busy ends =>
      obtain ⟨inside, hcompletes⟩ := completes_task hscripts busy
      exact ⟨inside, hcompletes, ends inside⟩
  | other _ not_task =>
      rw [isReception_of_entering hs not_task] at hc
      cases hc

/-- Without a task, receptions enter callbacks that make no reception, and ticks enter tasks. -/
theorem completing_free :
    Completing (attached apply) (callbacks scripts) (fun _ => True) (·.busy = false) := by
  apply completing_of_scripts
  intro c cb n n' resume _ hn hs
  cases marks_of_entering hs with
  | task _ busy ends =>
      obtain ⟨inside, hcompletes⟩ := completes_task hscripts busy
      exact ⟨inside, hcompletes, ends inside⟩
  | other _ not_task kept keeps =>
      obtain ⟨inside, hcompletes, hinside⟩ :=
        (completing_quiet_free hscripts).exists_completes (hscripts cb not_task) (kept.trans hn)
      exact ⟨inside, hcompletes, (keeps inside).trans hinside⟩

variable (apply) in
/-- Every routine completes, from every state of the node. -/
theorem exists_completes (r : Routine interface E (Node M D cap)) (n : Node M D cap) :
    ∃ v, r.Completes (attached apply) (callbacks scripts) n v := by
  cases hn : n.busy with
  | true =>
      obtain ⟨v, hcompletes, -⟩ := (completing_busy hscripts).exists_completes r.only_true hn
      exact ⟨v, hcompletes⟩
  | false =>
      obtain ⟨v, hcompletes, -⟩ := (completing_free hscripts).exists_completes r.only_true hn
      exact ⟨v, hcompletes⟩

end Completion

/-! ## The stack -/

section Stack

/-- How many tasks have not returned. -/
def tasksRunning (m : Machine interface E (Node M D cap)) : Nat :=
  m.stack.countP (·.hook.isTask)

/-- How many ticks wait for their task. -/
def waitingTicks (stack : List (Frame interface E (Node M D cap))) : Nat :=
  stack.countP (·.call == .tickInterrupt)

/-- A tick that has reached a cadence step has just begun. -/
def steppingNow (m : Machine interface E (Node M D cap)) : Bool :=
  match m.activity with
  | .calling .tickInterrupt _ _ => m.world.cadenceDue
  | .calling _ _ _ | .running _ => false

/-- How many ticks that have reached a cadence step have not returned: those that wait for their
task, and one that has just begun. -/
def cadenceSteps (m : Machine interface E (Node M D cap)) : Nat :=
  waitingTicks m.stack + if steppingNow m then 1 else 0

theorem waitingTicks_cons_of_eq {frame : Frame interface E (Node M D cap)}
    (h : frame.call = .tickInterrupt) (stack : List (Frame interface E (Node M D cap))) :
    waitingTicks (frame :: stack) = waitingTicks stack + 1 := by
  simp [waitingTicks, h]

theorem waitingTicks_cons_of_ne {frame : Frame interface E (Node M D cap)}
    (h : frame.call ≠ .tickInterrupt) (stack : List (Frame interface E (Node M D cap))) :
    waitingTicks (frame :: stack) = waitingTicks stack := by
  simp [waitingTicks, h]

/-- The frame belongs to a call that has entered the hook of the frame. -/
def Waits (frame : Frame interface E (Node M D cap)) : Prop :=
  ∃ n n', Marks n n' frame.call frame.hook frame.resume

/-- The calls on the stack wait for their hooks, and at most one of them is a tick: the one whose
task is running. -/
structure Bounded (m : Machine interface E (Node M D cap)) : Prop where
  waits : ∀ frame ∈ m.stack, Waits frame
  one : waitingTicks m.stack ≤ 1
  marked : 0 < waitingTicks m.stack → m.world.busy = true

/-- The calls that wait for a task are the ticks. -/
theorem Bounded.tasksRunning_eq {m : Machine interface E (Node M D cap)} (h : Bounded m) :
    tasksRunning m = waitingTicks m.stack := by
  apply List.countP_congr
  intro frame hframe
  obtain ⟨n, n', hmarks⟩ := h.waits frame hframe
  obtain ⟨call, hook, resume, next⟩ := frame
  cases hmarks with
  | task => simp [Hook.isTask, Callback.isTask]
  | other call_ne not_task => simp [call_ne, not_task]

theorem bounded_start (n : Node M D cap) (r : Routine interface E (Node M D cap)) :
    Bounded ⟨n, .running r, []⟩ where
  waits := by simp
  one := Nat.zero_le 1
  marked := by simp [waitingTicks]

/-- A call that is completed leaves the stack. A tick has been the only one, and clears the mark. -/
theorem Bounded.left {n : Node M D cap} {activity : Activity interface E (Node M D cap)}
    {frame : Frame interface E (Node M D cap)} {stack : List (Frame interface E (Node M D cap))}
    (h : Bounded ⟨n, activity, frame :: stack⟩) (activity' : Activity interface E (Node M D cap)) :
    Bounded ⟨(frame.resume n).2, activity', stack⟩ := by
  obtain ⟨waits, one, marked⟩ := h
  obtain ⟨begun, reached, hmarks⟩ := waits frame (.head _)
  have hrest : ∀ frame ∈ stack, Waits frame := fun frame hframe => waits frame (.tail _ hframe)
  obtain ⟨call, hook, resume, next⟩ := frame
  cases hmarks with
  | task =>
      rw [waitingTicks_cons_of_eq rfl] at one
      have hnone : waitingTicks stack = 0 := by omega
      exact ⟨hrest, Nat.le_trans (Nat.le_of_eq hnone) (Nat.zero_le 1),
        fun hpos => absurd hnone (Nat.ne_of_gt hpos)⟩
  | other call_ne _ _ keeps =>
      rw [waitingTicks_cons_of_ne call_ne] at one marked
      exact ⟨hrest, one, fun hpos => (keeps n).trans (marked hpos)⟩

/-- A call that enters its hook comes on the stack. A tick has found the mark clear, so no other one
is waiting. -/
theorem Bounded.entered {n n' : Node M D cap} {activity : Activity interface E (Node M D cap)}
    {stack : List (Frame interface E (Node M D cap))} (h : Bounded ⟨n, activity, stack⟩)
    (frame : Frame interface E (Node M D cap))
    (hmarks : Marks n n' frame.call frame.hook frame.resume)
    (activity' : Activity interface E (Node M D cap)) :
    Bounded ⟨n', activity', frame :: stack⟩ := by
  obtain ⟨waits, one, marked⟩ := h
  have hall : ∀ other ∈ frame :: stack, Waits other := by
    intro other hother
    rcases List.mem_cons.1 hother with rfl | hother
    · exact ⟨n, n', hmarks⟩
    · exact waits other hother
  obtain ⟨call, hook, resume, next⟩ := frame
  cases hmarks with
  | task free busy =>
      have hnone : waitingTicks stack = 0 := by
        by_contra hne
        have hmarked : n.busy = true := marked (Nat.pos_of_ne_zero hne)
        rw [free] at hmarked
        cases hmarked
      refine ⟨hall, Nat.le_of_eq ?_, fun _ => busy⟩
      rw [waitingTicks_cons_of_eq rfl, hnone]
  | other call_ne _ kept =>
      refine ⟨hall, ?_, ?_⟩
      · rw [waitingTicks_cons_of_ne call_ne]
        exact one
      · rw [waitingTicks_cons_of_ne call_ne]
        exact fun hpos => kept.trans (marked hpos)

variable [InterruptControl M] [Peripherals D] {apply : E → D → D}
  {scripts : Callback → Routine interface E (Node M D cap)}

theorem bounded_step {m : Machine interface E (Node M D cap)} (h : Bounded m) :
    Bounded (m.step (attached apply) (callbacks scripts)) := by
  have hstepped : Machine.Stepped (attached apply) (callbacks scripts) m _ :=
    Machine.stepped (fun _ => rfl) m
  generalize m.step (attached apply) (callbacks scripts) = m' at hstepped
  cases hstepped with
  | ended | began | acted => exact ⟨h.waits, h.one, h.marked⟩
  | left => exact h.left _
  | finished _ _ _ hs =>
      exact ⟨h.waits, h.one, fun hpos => (busy_of_finished hs).trans (h.marked hpos)⟩
  | entered _ _ _ hs => exact h.entered ⟨_, _, _, _⟩ (marks_of_entering hs) _

end Stack

/-! ## Flushes -/

variable [InterruptControl M] [Peripherals D]

/-- A flush that begins in `n` comes to its end: its loop does, with nothing left in the console
receiver, and the call answers with the ring that the loop has left, emptied. -/
def FlushEnds (n : Node M D cap) : Prop :=
  ∃ ring devices, n.shared.console.Discards Peripherals.console n.devices ring devices ∧
    Peripherals.console.pending devices = false ∧
    start .flush n = .finished ()
      { guard := n.guard.disable.restore
        shared := { n.shared with console := ring.clear }
        devices }

theorem start_flush (n : Node M D cap) :
    start .flush n = .finished ()
      { guard := n.guard.disable.restore
        shared := { n.shared with
          console := (n.shared.console.flush Peripherals.console n.devices).1 }
        devices := (n.shared.console.flush Peripherals.console n.devices).2 } :=
  rfl

theorem flushEnds_of_dry {n : Node M D cap}
    (hdry : Peripherals.console.pending (Peripherals.console.drain n.devices) = false) :
    n.FlushEnds := by
  obtain ⟨ring, devices, hloop, hidle, hflush⟩ := n.shared.console.flush_of_dry hdry
  refine ⟨ring, devices, hloop, hidle, ?_⟩
  rw [start_flush, hflush]

/-! ## Every run -/

/-- An application whose reception callbacks make no reception, and which is free otherwise: tasks
may make any calls, and all callbacks may cause ticks, open sections and do anything to the devices.
The console receiver is one that runs dry. From every state of the node, and whatever calls are
already waiting, every routine comes to its end, and leaves the node as its tree of calls does; and
the loop of every flush ends. At no moment is more than one task running, or are there more than two
ticks that have reached a cadence step. -/
theorem reentry_ends (apply : E → D → D) (scripts : Callback → Routine interface E (Node M D cap))
    (hscripts : ∀ cb, cb.isTask = false → (scripts cb).Only fun c : Call => c.isReception = false)
    (hdry : (Peripherals.console : Receiver D).RunsDry)
    (n : Node M D cap) (r : Routine interface E (Node M D cap)) :
    let C : Component interface (Node M D cap) E := attached apply
    let hooks := callbacks scripts
    (∃ v, (∀ stack, ∃ k, Machine.after C hooks k ⟨n, .running r, stack⟩ =
        ⟨v, .running .done, stack⟩) ∧
        ∃ least, ∀ depth, least ≤ depth → (r.unfold hooks depth).run C n = v) ∧
      (∀ u : Node M D cap, u.FlushEnds) ∧
      ∀ k, tasksRunning (Machine.after C hooks k ⟨n, .running r, []⟩) ≤ 1 ∧
        cadenceSteps (Machine.after C hooks k ⟨n, .running r, []⟩) ≤ 2 := by
  intro C hooks
  refine ⟨?_, fun u => flushEnds_of_dry (hdry.pending_drain u.devices), ?_⟩
  · -- the big step is a run of the machine, on whatever stack it begins
    obtain ⟨v, hcompletes⟩ := exists_completes apply hscripts r n
    exact ⟨v, hcompletes.after fun _ => rfl, hcompletes.run_unfold fun _ => rfl⟩
  · intro k
    have hbounded : Bounded (Machine.after C hooks k ⟨n, .running r, []⟩) :=
      Machine.after_induction (fun _ => bounded_step) (bounded_start n r) k
    have hone := hbounded.one
    refine ⟨?_, ?_⟩
    · rw [hbounded.tasksRunning_eq]
      exact hone
    · rw [cadenceSteps]
      split <;> omega

/-- Let a number of ticks pass. -/
def ticks : Nat → Routine interface E (Node M D cap)
  | 0 => .done
  | count + 1 => .call .tickInterrupt .done fun _ => ticks count

omit [InterruptControl M] [Peripherals D] in
theorem only_ticks (count : Nat) :
    (ticks count : Routine interface E (Node M D cap)).Only
      fun c : Call => c.isReception = false := by
  induction count with
  | zero => trivial
  | succ count ih => exact ⟨rfl, trivial, fun _ => ih⟩

/-- A task takes a console byte, and then lets five ticks pass. The console callback does the latter
too. -/
def consoleInTask : Callback → Routine interface E (Node M D cap)
  | .task _ => .call .consoleInterrupt .done fun _ => ticks 5
  | .consoleByte _ => ticks 5
  | .busByte _ _ | .busSilence => .done

omit [InterruptControl M] [Peripherals D] in
theorem consoleInTask_only (cb : Callback) (hcb : cb.isTask = false) :
    (consoleInTask cb : Routine interface E (Node M D cap)).Only
      fun c : Call => c.isReception = false := by
  cases cb with
  | task => cases hcb
  | consoleByte => exact only_ticks 5
  | busByte | busSilence => trivial

/-- The fifth tick of a node starts a task. The fifth tick in its console callback is a cadence step
again, which does not start another one. The receiver of the console is a queue, which runs dry. -/
theorem reentry_ends_console_in_task :
    let n : Node Bench.Control Bench.Devices 4 :=
      Node.new { enabled := true } Settings.busTiming {} 4 (by decide)
    let apply : (Bench.Devices → Bench.Devices) → Bench.Devices → Bench.Devices := fun f => f
    let after := fun k => Machine.after (attached apply) (callbacks consoleInTask) k
      ⟨n, .running (ticks 5), []⟩
    (∃ v k, after k = ⟨v, .running .done, []⟩) ∧
      (∀ u : Node Bench.Control Bench.Devices 4, u.FlushEnds) ∧
      (∀ k, tasksRunning (after k) ≤ 1 ∧ cadenceSteps (after k) ≤ 2) ∧
      tasksRunning (after 21) = 1 ∧ cadenceSteps (after 21) = 2 := by
  intro n apply after
  have hdry : (Peripherals.console : Receiver Bench.Devices).RunsDry :=
    Bench.ByteQueue.runsDry_receiver.within Bench.Devices.consolePart
  obtain ⟨⟨v, hends, -⟩, hflush, hbounds⟩ :=
    reentry_ends apply consoleInTask consoleInTask_only hdry n (ticks 5)
  obtain ⟨k, hk⟩ := hends []
  exact ⟨⟨v, k, hk⟩, hflush, hbounds, by decide +kernel, by decide +kernel⟩

/-- Serve a silence. -/
def serveSilence : Routine interface E (Node M D cap) :=
  .call .silenceInterrupt .done fun _ => .done

/-- The restriction is needed: a silence callback that serves another silence is entered again for
ever. -/
theorem silence_in_silence_never_ends (apply : E → D → D) (n : Node M D cap) (k : Nat) :
    ¬ (Machine.after (attached apply) (callbacks fun _ => serveSilence) k
      ⟨n, .running serveSilence, []⟩).Ended := by
  -- after every step there is a silence to be served
  let Serving (m : Machine interface E (Node M D cap)) : Prop :=
    m.activity = .running serveSilence ∨
      m.activity = .calling .silenceInterrupt .done fun _ => .done
  have hstep (m) (h : Serving m) :
      Serving (m.step (attached apply) (callbacks fun _ => serveSilence)) := by
    obtain ⟨n, activity, stack⟩ := m
    rcases h with h | h
    · cases h
      exact .inr rfl
    · cases h
      exact .inl rfl
  have hstart : Serving ⟨n, .running serveSilence, []⟩ := .inl rfl
  have hserving := Machine.after_induction hstep hstart k
  rintro ⟨hended, -⟩
  rcases hserving with h | h
  · cases h.symm.trans hended
  · cases h.symm.trans hended

/-- So is the receiver that runs dry. In the plain memory of the board a byte that has been taken is
still waiting, and a flush ends only if none waits to begin with. -/
theorem flushEnds_memory_iff (n : Node M Memory cap) :
    n.FlushEnds ↔ Uart.console.isPending n.devices = false := by
  constructor
  · rintro ⟨ring, devices, hloop, -⟩
    -- no round changes the memory, so the loop that ends has had none
    generalize n.shared.console = r, n.devices = m at hloop
    induction hloop with
    | ended idle => exact idle
    | round _ _ ih => exact ih
  · intro idle
    apply flushEnds_of_dry
    show Uart.console.isPending (Uart.console.receiver.drain n.devices) = false
    rw [Uart.drain_receiver]
    exact idle

end SerialGateway.Node
