import SerialGateway.Proofs.Node.ConsoleBooks
import SerialGateway.Proofs.Reentrant.Order
import SerialGateway.Proofs.Reentrant.Remembered

/-!
# The reboot request of a node

A console interrupt requests a reboot if its byte is `R` and the console interrupt that began before
it has taken `@`, whatever happens between the two and inside the callback of the first
(`rebootLaw_of_moments`). The detector keeps the last byte that was taken (`remembers_byte`): every
console interrupt feeds it before its callback, and no other call touches it.

A byte that requests a reboot leaves no trace but in the detector, and enters no callback. Every
other byte is pushed into the ring before its callback, which is entered once.
-/

set_option autoImplicit false

namespace SerialGateway

/-! ## The detector -/

/-- A byte requests a reboot after the given ones: it is the trigger, and the last one before it was
the leader. -/
def RebootSequence.Requests (earlier : List UInt8) (byte : UInt8) : Prop :=
  earlier.getLast? = some leader ∧ byte = trigger

instance (earlier : List UInt8) (byte : UInt8) :
    Decidable (RebootSequence.Requests earlier byte) :=
  inferInstanceAs (Decidable (_ ∧ _))

/-- A detector that remembers the last byte, or zero before the first, recognizes the requests. -/
theorem RebootSequence.feed_iff {s : RebootSequence} {earlier : List UInt8}
    (h : s.last = earlier.getLast?.getD 0) (byte : UInt8) :
    (s.feed byte).1 = true ↔ Requests earlier byte := by
  have hleader : s.last = leader ↔ earlier.getLast? = some leader := by
    rw [h]
    cases earlier.getLast? with
    | none => decide
    | some last => rw [Option.getD_some, Option.some.injEq]
  rw [feed, Bool.and_eq_true, beq_iff_eq, beq_iff_eq, hleader]
  rfl

namespace Node

open History RebootSequence

variable {M D E : Type} {cap : Nat} [Peripherals D]

/-! ## One console interrupt -/

/-- The answer to a byte that is stored. -/
def storedOutcome (n : Node M D cap) : ConsoleOutcome :=
  if (n.shared.console.push n.consoleByte).1 then .delivered else .overflowed

theorem storedOutcome_ne (n : Node M D cap) : n.storedOutcome ≠ .rebootRequested := by
  rw [storedOutcome]
  split <;> exact nofun

variable [InterruptControl M]

/-- The node after a console interrupt has taken its byte, with the ring that the byte has left. -/
def withByteTaken (console : Ring cap) (n : Node M D cap) : Node M D cap where
  guard := n.guard.disable.restore
  shared := { n.shared with console, reboot := ⟨n.consoleByte⟩ }
  devices := (Peripherals.console.take n.devices).2

/-- The byte is taken first, and accounted for in the section. -/
theorem bookConsole_eq (n : Node M D cap) :
    n.bookConsole = ((acceptConsole n.consoleByte n.shared).1,
      { guard := n.guard.disable.restore
        shared := (acceptConsole n.consoleByte n.shared).2
        devices := (Peripherals.console.take n.devices).2 }) := rfl

/-- A byte that requests a reboot touches nothing but the detector. -/
theorem bookConsole_of_request {n : Node M D cap}
    (h : (n.shared.reboot.feed n.consoleByte).1 = true) :
    n.bookConsole = (.rebootRequested, n.withByteTaken n.shared.console) := by
  have haccept : acceptConsole n.consoleByte n.shared =
      (.rebootRequested, { n.shared with reboot := ⟨n.consoleByte⟩ }) := if_pos h
  rw [bookConsole_eq, haccept]
  rfl

/-- Any other byte is pushed. -/
theorem bookConsole_of_no_request {n : Node M D cap}
    (h : ¬ (n.shared.reboot.feed n.consoleByte).1 = true) :
    n.bookConsole =
      (n.storedOutcome, n.withByteTaken (n.shared.console.push n.consoleByte).2) := by
  have haccept : acceptConsole n.consoleByte n.shared =
      (n.storedOutcome, { n.shared with
        console := (n.shared.console.push n.consoleByte).2
        reboot := ⟨n.consoleByte⟩ }) := if_neg h
  rw [bookConsole_eq, haccept]
  rfl

theorem start_of_request {n : Node M D cap} (h : (n.shared.reboot.feed n.consoleByte).1 = true) :
    start .consoleInterrupt n =
      .finished .rebootRequested (n.withByteTaken n.shared.console) := by
  have hbooked := bookConsole_of_request h
  rcases n.start_consoleInterrupt with ⟨-, hn⟩ | ⟨hreply, -⟩
  · rw [hn, hbooked]
  · rw [reply_consoleInterrupt, hbooked] at hreply
    exact absurd rfl hreply

theorem start_of_no_request {n : Node M D cap}
    (h : ¬ (n.shared.reboot.feed n.consoleByte).1 = true) :
    start .consoleInterrupt n =
      .entering (.callback (.consoleByte n.consoleByte))
        (n.withByteTaken (n.shared.console.push n.consoleByte).2)
        fun n' => (n.storedOutcome, n') := by
  have hbooked := bookConsole_of_no_request h
  rcases n.start_consoleInterrupt with ⟨hreply, -⟩ | ⟨-, hn⟩
  · rw [reply_consoleInterrupt, hbooked] at hreply
    exact absurd hreply n.storedOutcome_ne
  · rw [hn, reply_consoleInterrupt, hbooked]

/-! ## What the detector remembers -/

/-- The byte that a call takes from the console, if it takes one. -/
def byteTaken? : Call → Node M D cap → Option UInt8
  | .consoleInterrupt, n => some n.consoleByte
  | _, _ => none

/-- The bytes that the console interrupts of a history have taken, in the order in which they
began. -/
def bytesTaken (history : History interface E (Node M D cap)) : List UInt8 :=
  history.seen byteTaken?

theorem reboot_bookConsole (n : Node M D cap) :
    n.bookConsole.2.shared.reboot.last = n.consoleByte := by
  by_cases h : (n.shared.reboot.feed n.consoleByte).1 = true
  · rw [bookConsole_of_request h]
    rfl
  · rw [bookConsole_of_no_request h]
    rfl

/-- A console interrupt leaves its byte in the detector before its callback, and no other call
touches the detector. -/
theorem shows_byte (c : Call) (n : Node M D cap) :
    (start c n).Shows (fun n => n.shared.reboot.last)
      ((byteTaken? c n).getD n.shared.reboot.last) := by
  apply Step.shows_of_reached
  · cases c with
    | consoleInterrupt =>
        have hreached : (start .consoleInterrupt n).reached = n.bookConsole.2 :=
          n.reached_consoleInterrupt
        rw [hreached]
        exact n.reboot_bookConsole
    | tickInterrupt =>
        obtain ⟨guard, scheduler, hticked⟩ := n.exists_reached_tickInterrupt
        have hreached : (start .tickInterrupt n).reached =
            { n with guard, shared := { n.shared with scheduler } } := hticked
        rw [hreached]
        rfl
    | _ => rfl
  · intro hook n' resume hs inside
    exact congrArg (fun records => records.reboot.last) (records_resume c hs inside)

theorem remembers_byte (apply : E → D → D) :
    Remembers (attached apply : Component interface (Node M D cap) E)
      (fun n => n.shared.reboot.last) byteTaken? where
  start := shows_byte
  act _ _ := rfl

/-! ## Every run -/

/-- What becomes of console interrupt `k`, which begins in `n` after `past`. It requests a reboot if
its byte does so after the bytes of the console interrupts that began before. Then it returns at
once, enters no hook, and has touched nothing of the shared state but the detector. Otherwise its
callback comes at once and only once, and finds the byte pushed. -/
structure RebootLaw (history past : History interface E (Node M D cap)) (k : Nat)
    (n : Node M D cap) (future : History interface E (Node M D cap)) : Prop where
  answer : (k, ⟨.consoleInterrupt, .rebootRequested⟩) ∈ history.outcomes ↔
    Requests (bytesTaken past) n.consoleByte
  untouched : Requests (bytesTaken past) n.consoleByte →
    history.hooksOf k = [] ∧ ∃ n' rest,
      future = .returned k .consoleInterrupt .rebootRequested n' :: rest ∧
        n'.shared = { n.shared with reboot := ⟨n.consoleByte⟩ } ∧
        n'.devices = (Peripherals.console.take n.devices).2
  stored : ¬ Requests (bytesTaken past) n.consoleByte →
    history.hooksOf k = [.callback (.consoleByte n.consoleByte)] ∧
      (k, ⟨.consoleInterrupt, n.storedOutcome⟩) ∈ history.outcomes ∧ ∃ n' rest,
        future = .entered k (.callback (.consoleByte n.consoleByte)) n' :: rest ∧
          n'.shared = { n.shared with
            console := (n.shared.console.push n.consoleByte).2
            reboot := ⟨n.consoleByte⟩ } ∧
          n'.devices = (Peripherals.console.take n.devices).2

variable {apply : E → D → D} {t : CallTree interface E (Node M D cap)} {n₀ : Node M D cap}

/-- Whenever a console interrupt begins, the detector recognizes the requests. -/
theorem feed_iff_requests (hstart : n₀.shared.reboot.last = 0)
    {past future : History interface E (Node M D cap)} {k : Nat} {c : Call} {n : Node M D cap}
    (hsplit : t.moments (attached apply) n₀ = past ++ .began k c n :: future) :
    (n.shared.reboot.feed n.consoleByte).1 = true ↔
      Requests (bytesTaken past) n.consoleByte := by
  obtain ⟨hmoments, -⟩ := ((remembers_byte apply).invariant 0).of_tree t hstart
  exact feed_iff (hmoments past _ future hsplit) n.consoleByte

/-- The law of reboots in every run from a node that has not taken a byte. -/
theorem rebootLaw_of_moments (hstart : n₀.shared.reboot.last = 0)
    {past future : History interface E (Node M D cap)} {k : Nat} {n : Node M D cap}
    (hsplit : t.moments (attached apply) n₀ = past ++ .began k .consoleInterrupt n :: future) :
    RebootLaw (t.moments (attached apply) n₀) past k n future := by
  have hrun := runs_moments (attached apply) t n₀
  have hfeed := feed_iff_requests hstart hsplit
  have hreply := mem_outcomes_iff_reply hsplit (a := .rebootRequested)
  obtain ⟨rest, hnext⟩ := hrun.follows hsplit
  have hhooks := hrun.hooksOf_eq hsplit
  rw [attached_start] at hnext hhooks
  by_cases hrequest : (n.shared.reboot.feed n.consoleByte).1 = true
  · -- the byte requests a reboot, and is dropped
    have hstep := start_of_request hrequest
    have hanswer : n.reply .consoleInterrupt = .rebootRequested := by
      rw [reply_consoleInterrupt, bookConsole_of_request hrequest]
    rw [hstep] at hnext hhooks
    constructor
    · exact iff_of_true (hreply.2 hanswer) (hfeed.1 hrequest)
    · exact fun _ => ⟨hhooks, _, rest, hnext, rfl, rfl⟩
    · exact fun hno => absurd (hfeed.1 hrequest) hno
  · -- the byte is stored, and its callback comes next
    have hstep := start_of_no_request hrequest
    have hanswer : n.reply .consoleInterrupt = n.storedOutcome := by
      rw [reply_consoleInterrupt, bookConsole_of_no_request hrequest]
    rw [hstep] at hnext hhooks
    constructor
    · apply iff_of_false
      · rw [hreply, hanswer]
        exact n.storedOutcome_ne
      · exact fun hyes => hrequest (hfeed.2 hyes)
    · exact fun hyes => absurd (hfeed.2 hyes) hrequest
    · intro _
      exact ⟨hhooks, (mem_outcomes_iff_reply hsplit).2 hanswer, _, rest, hnext, rfl, rfl⟩

end Node

end SerialGateway
