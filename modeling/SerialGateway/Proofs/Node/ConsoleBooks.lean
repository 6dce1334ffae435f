import SerialGateway.Proofs.Console.Ledger
import SerialGateway.Proofs.Node.Calls
import SerialGateway.Proofs.Reentrant.Hooks
import SerialGateway.Proofs.Reentrant.Invariant
import SerialGateway.Proofs.Reentrant.Linear

/-!
# The console of a node

A node with any calls in any order, also inside callbacks, and surroundings that do anything to its
devices. No call and no doing loses the books of the console ring (`invariant_booked`), so at every
moment the console shows the ledger of what has happened so far (`ConsoleLaw`). The callbacks of the
console are those of the accepted bytes, once for each and in order, and there a byte is the newest
unread one (`ConsoleCalls`).
-/

set_option autoImplicit false

namespace SerialGateway.Node

open History ConsoleEvent

variable {M D E : Type} {cap : Nat} [InterruptControl M] [Peripherals D]

/-! ## Answers -/

/-- What a call answers if it begins now. -/
def reply (n : Node M D cap) (c : Call) : Answer c := (start c n).uneventful.1

/-- The byte that the console receiver hands over. -/
def consoleByte (n : Node M D cap) : UInt8 := (Peripherals.console.take n.devices).1

theorem reply_consoleInterrupt (n : Node M D cap) :
    n.reply .consoleInterrupt = n.bookConsole.1 :=
  n.complete_consoleInterrupt _

/-- The ring of a console interrupt: a byte is stored unless it requests a reboot. -/
theorem bookConsole_console (n : Node M D cap) :
    (n.reply .consoleInterrupt = .rebootRequested ∧
        n.bookConsole.2.shared.console = n.shared.console) ∨
      (n.reply .consoleInterrupt =
          (if (n.shared.console.push n.consoleByte).1 then .delivered else .overflowed) ∧
        n.bookConsole.2.shared.console = (n.shared.console.push n.consoleByte).2) := by
  rw [reply_consoleInterrupt]
  simp only [bookConsole, exclusively, acceptConsole]
  split
  · exact .inl ⟨rfl, rfl⟩
  · exact .inr ⟨rfl, rfl⟩

/-- A console interrupt enters the callback of its byte, unless that requests a reboot. -/
theorem start_consoleInterrupt (n : Node M D cap) :
    (n.reply .consoleInterrupt = .rebootRequested ∧
        start .consoleInterrupt n = .finished .rebootRequested n.bookConsole.2) ∨
      (n.reply .consoleInterrupt ≠ .rebootRequested ∧
        start .consoleInterrupt n =
          .entering (.callback (.consoleByte n.consoleByte)) n.bookConsole.2
            fun n' => (n.reply .consoleInterrupt, n')) := by
  rw [reply_consoleInterrupt]
  show (_ ∧ n.consoleInterrupt = _) ∨ (_ ∧ n.consoleInterrupt = _)
  simp only [consoleInterrupt]
  split
  · next hresult =>
    left
    have hbooked : n.bookConsole.1 = .rebootRequested := hresult
    refine ⟨hbooked, ?_⟩
    show Step.finished n.bookConsole.1 n.bookConsole.2 = .finished .rebootRequested n.bookConsole.2
    rw [hbooked]
  · next hresult =>
    right
    have hbooked : n.bookConsole.1 = .delivered := hresult
    refine ⟨?_, rfl⟩
    simp [hbooked]
  · next hresult =>
    right
    have hbooked : n.bookConsole.1 = .overflowed := hresult
    refine ⟨?_, rfl⟩
    simp [hbooked]

/-- The answer of a call is fixed when its hook begins. -/
theorem resume_fst {c : Call} {n n' : Node M D cap} {hook : Hook}
    {resume : Node M D cap → Answer c × Node M D cap} (hs : start c n = .entering hook n' resume)
    (inside : Node M D cap) : (resume inside).1 = n.reply c := by
  -- a reply is what the call answers when its hook does nothing
  have hreply : n.reply c = (resume n').1 := by
    rw [reply, hs]
    rfl
  rw [hreply]
  cases c with
  | tickInterrupt =>
      obtain ⟨tier, -, hresume⟩ := entering_tickInterrupt hs
      exact (hresume inside).1.trans (hresume n').1.symm
  | consoleInterrupt =>
      rcases n.start_consoleInterrupt with ⟨-, hn⟩ | ⟨-, hn⟩
      · cases hn.symm.trans hs
      · cases hn.symm.trans hs
        rfl
  | busInterrupt | silenceInterrupt | atomic =>
      cases hs
      rfl
  | _ => cases hs

/-! ## The events of a run -/

/-- What a call does to the console. -/
def consoleCall? (k : Nat) : Call → Node M D cap → Option ConsoleEvent
  | .consoleInterrupt, n =>
      match n.reply .consoleInterrupt with
      | .delivered => some (.accept ⟨k, n.consoleByte⟩ false)
      | .overflowed => some (.accept ⟨k, n.consoleByte⟩ true)
      | .rebootRequested => none
  | .read, n => some (.read (n.reply .read))
  | .flush, _ => some .flush
  | _, _ => none

/-- The byte that a call accepts, if it accepts one. -/
def accepting? (k : Nat) (c : Call) (n : Node M D cap) : Option Entry :=
  (consoleCall? k c n).bind entry?

/-- The byte that a hook is told about. -/
def consoleHook? (k : Nat) : Hook → Node M D cap → Option Entry
  | .callback (.consoleByte byte), _ => some ⟨k, byte⟩
  | _, _ => none

/-- The events of the console, in order. A result counts from the beginning of its call. -/
def consoleEvents (history : History interface E (Node M D cap)) : List ConsoleEvent :=
  history.filterMap (Moment.calling? consoleCall?)

/-- The accepted bytes, in the order in which they were taken from the receiver. -/
def accepted (history : History interface E (Node M D cap)) : List Entry :=
  (consoleEvents history).filterMap entry?

/-- Where the accepted bytes have got to. -/
def ledger (history : History interface E (Node M D cap)) : Ledger :=
  .ofEvents (consoleEvents history)

theorem accepted_eq (history : History interface E (Node M D cap)) :
    accepted history = history.filterMap (Moment.calling? accepting?) := by
  have hcall : (fun m : Moment interface E (Node M D cap) =>
      (m.calling? consoleCall?).bind entry?) = Moment.calling? accepting? := by
    funext m
    cases m <;> rfl
  rw [accepted, consoleEvents, List.filterMap_filterMap, hcall]

@[simp] theorem consoleEvents_cons (m : Moment interface E (Node M D cap))
    (rest : History interface E (Node M D cap)) :
    consoleEvents (m :: rest) = (m.calling? consoleCall?).toList ++ consoleEvents rest :=
  filterMap_cons_toList ..

@[simp] theorem consoleEvents_nil :
    consoleEvents ([] : History interface E (Node M D cap)) = [] := rfl

@[simp] theorem consoleEvents_append (a b : History interface E (Node M D cap)) :
    consoleEvents (a ++ b) = consoleEvents a ++ consoleEvents b :=
  List.filterMap_append

@[simp] theorem accepted_nil : accepted ([] : History interface E (Node M D cap)) = [] := rfl

@[simp] theorem accepted_cons (m : Moment interface E (Node M D cap))
    (rest : History interface E (Node M D cap)) :
    accepted (m :: rest) = (m.calling? accepting?).toList ++ accepted rest := by
  rw [accepted_eq, accepted_eq, filterMap_cons_toList]

@[simp] theorem accepted_append (a b : History interface E (Node M D cap)) :
    accepted (a ++ b) = accepted a ++ accepted b := by
  rw [accepted_eq, accepted_eq, accepted_eq, List.filterMap_append]

/-- A call that accepts no byte enters no callback of the console. -/
theorem accepting?_of_finished {k : Nat} {c : Call} {n n' : Node M D cap} {a : Answer c}
    (hs : start c n = .finished a n') : accepting? k c n = none := by
  cases c with
  | consoleInterrupt =>
      rcases n.start_consoleInterrupt with ⟨hreply, -⟩ | ⟨-, hn⟩
      · rw [accepting?, consoleCall?, hreply]
        rfl
      · cases hn.symm.trans hs
  | _ => rfl

/-- A callback of the console is told the byte that its call accepts. -/
theorem consoleHook?_of_entering {k : Nat} {c : Call} {n n' : Node M D cap} {hook : Hook}
    {resume : Node M D cap → Answer c × Node M D cap} (hs : start c n = .entering hook n' resume) :
    consoleHook? k hook n' = accepting? k c n := by
  cases enters_of_start hs with
  | consoleByte byte =>
      rcases n.start_consoleInterrupt with ⟨-, hn⟩ | ⟨hreply, hn⟩
      · cases hn.symm.trans hs
      · cases hn.symm.trans hs
        rw [accepting?, consoleCall?]
        cases hresult : n.reply .consoleInterrupt with
        | rebootRequested => exact absurd hresult hreply
        | delivered | overflowed => rfl
  | busByte | busSilence | task | masked => rfl

/-! ## The books of the node -/

/-- The ring of the console keeps its books. -/
def Booked (past : History interface E (Node M D cap)) (n : Node M D cap) : Prop :=
  Books (consoleEvents past) n.shared.console

/-- A call keeps the books up to its hook. -/
theorem Booked.reached {past : History interface E (Node M D cap)} {n : Node M D cap}
    (h : Booked past n) (k : Nat) (c : Call) :
    Books (consoleEvents past ++ (consoleCall? k c n).toList)
      (start c n).reached.shared.console := by
  have hbefore : Books (consoleEvents past) n.shared.console := h
  cases c with
  | consoleInterrupt =>
      show Books _ n.consoleInterrupt.reached.shared.console
      rw [reached_consoleInterrupt]
      rcases n.bookConsole_console with ⟨hreply, hring⟩ | ⟨hreply, hring⟩
      · -- a request for a reboot is neither stored nor accepted
        rw [hring, consoleCall?, hreply]
        simpa using hbefore
      · have hbooks := hbefore.accept ⟨k, n.consoleByte⟩
        rw [hring, consoleCall?, hreply]
        cases hfits : (n.shared.console.push n.consoleByte).1 with
        | true | false =>
            rw [hfits] at hbooks
            exact hbooks
  | read => exact hbefore.read
  | flush => exact hbefore.flush Peripherals.console n.devices
  | tickInterrupt =>
      have hring : (start .tickInterrupt n).reached.shared.console = n.shared.console :=
        n.reached_tickInterrupt.1
      rw [hring]
      simpa [consoleCall?] using hbefore
  | _ =>
      -- no other call touches the ring
      show Books (consoleEvents past ++ []) n.shared.console
      rwa [List.append_nil]

/-- A node whose surroundings act on its devices. -/
def attached (apply : E → D → D) : Component interface (Node M D cap) E where
  start := start
  act e := devicesPart.modify (apply e)

@[simp] theorem attached_start (apply : E → D → D) (c : Call) (n : Node M D cap) :
    (attached apply : Component interface (Node M D cap) E).start c n = start c n := rfl

/-- No call and no doing loses the books. -/
theorem invariant_booked (apply : E → D → D) :
    Invariant (attached apply : Component interface (Node M D cap) E) Booked := by
  apply Invariant.of_reached
  · intro past k c n m h hbegins hnumber
    have hreached : Books _ ((attached apply).start c n).reached.shared.console := h.reached k c
    cases m with
    | began => cases hbegins
    | acted => cases hnumber
    | entered | left | returned => simpa [Booked] using hreached
  · intro past k c n hook n' resume inside hs hin
    have hconsole : (resume inside).2.shared.console = inside.shared.console :=
      congrArg Records.console (records_resume c hs inside)
    constructor
    · simpa [Booked] using hin
    · simpa [Booked, hconsole] using hin
  · intro past e n h
    have hsame : Books (consoleEvents past) ((attached apply).act e n).shared.console := h
    simpa [Booked] using hsame

/-- What the console shows after `past`: its unread bytes are those of the ledger, which is sound;
the bytes that were returned and overwritten are those that the answers tell; and the overflow count
is the number of overflows since the last flush, which 255 holds. -/
structure ConsoleLaw (past : History interface E (Node M D cap)) (n : Node M D cap) : Prop where
  available : n.reply .available = (ledger past).unread.length
  unread : ∀ offset, n.reply (.peek offset) = ((ledger past).unread.map Entry.byte)[offset]?
  sound : (ledger past).Sound (accepted past)
  returned : (ledger past).returned.map Entry.byte = (consoleEvents past).filterMap answer?
  overwritten : (ledger past).overwritten.length = (consoleEvents past).countP isOverwrite
  overflows : (n.reply .overflows).toNat = min 255 (overwritesSinceFlush (consoleEvents past))
  fitsWord : n.shared.console.FitsWord

theorem Booked.law {past : History interface E (Node M D cap)} {n : Node M D cap}
    (h : Booked past n) (hword : 4 * cap - 1 ≤ Ring.wordMax) : ConsoleLaw past n where
  available := by
    show n.shared.console.available = _
    rw [← Ring.length_toList, h.mirrors.items, List.length_map]
    rfl
  unread := by
    intro offset
    show n.shared.console.peek offset = _
    rw [Ring.peek_eq_getElem?, h.mirrors.items]
    rfl
  sound := Ledger.sound_ofEvents _
  returned := h.returned
  overwritten := h.overwritten
  overflows := h.mirrors.overflows
  fitsWord := Ring.fitsWord_of_inRange h.mirrors.inRange hword

/-! ## The callbacks of a run -/

/-- The calls of the console and its callbacks over a whole run: every accepted byte has a call of
its own; the callbacks are those of the accepted bytes, once for each and in order; in its callback
a byte is the newest unread one; and every call answers what it would have answered at once. -/
structure ConsoleCalls (history : History interface E (Node M D cap)) : Prop where
  distinct : ((accepted history).map Entry.call).Nodup
  delivered : history.filterMap (Moment.hooking? consoleHook?) = accepted history
  newest : ∀ past k byte n future,
    history = past ++ .entered k (.callback (.consoleByte byte)) n :: future →
    n.reply (.peek (n.reply .available - 1)) = some byte
  answered : ∀ k c a, (k, ⟨c, a⟩) ∈ history.outcomes ↔ ∃ n, .began k c n ∈ history ∧ n.reply c = a

theorem call_of_accepting? {k : Nat} {c : Call} {n : Node M D cap} {entry : Entry}
    (h : accepting? k c n = some entry) : c = .consoleInterrupt ∧ entry.call = k := by
  cases c with
  | consoleInterrupt =>
      refine ⟨rfl, ?_⟩
      rw [accepting?, consoleCall?] at h
      cases hresult : n.reply .consoleInterrupt with
      | rebootRequested =>
          rw [hresult] at h
          cases h
      | delivered | overflowed =>
          rw [hresult] at h
          cases h
          rfl
  | _ => cases h

theorem call_accepted_sublist (history : History interface E (Node M D cap)) :
    ((accepted history).map Entry.call).Sublist history.begun := by
  rw [accepted_eq]
  induction history with
  | nil => exact List.Sublist.refl _
  | cons m rest ih =>
      cases m with
      | began k c n =>
          -- a call that accepts nothing is left out
          rw [List.filterMap_cons, Moment.calling?, begun_cons]
          cases hentry : accepting? k c n with
          | none => exact ih.cons k
          | some entry =>
              obtain ⟨-, hk⟩ := call_of_accepting? hentry
              simpa [hk] using ih
      | entered | left | returned | acted => exact ih

variable {apply : E → D → D} {t : CallTree interface E (Node M D cap)} {n₀ : Node M D cap}
  {history : History interface E (Node M D cap)}

/-- A call returns what it would have answered at once. -/
theorem mem_outcomes_iff (t : CallTree interface E (Node M D cap)) (n₀ : Node M D cap) {k : Nat}
    {c : Call} {a : Answer c} :
    (k, ⟨c, a⟩) ∈ outcomes (t.moments (attached apply) n₀) ↔
      ∃ n, .began k c n ∈ t.moments (attached apply) n₀ ∧ n.reply c = a := by
  have hrun := runs_moments (attached apply) t n₀
  have hanswer : ∀ {a}, (k, ⟨c, a⟩) ∈ outcomes (t.moments (attached apply) n₀) →
      ∃ n, .began k c n ∈ t.moments (attached apply) n₀ ∧ n.reply c = a := by
    intro a hout
    cases hrun.answered hout with
    | finished hbegan hs =>
        refine ⟨_, hbegan, ?_⟩
        rw [reply, show start c _ = _ from hs]
        rfl
    | resumed inside hbegan _ hs => exact ⟨_, hbegan, (resume_fst hs inside).symm⟩
  refine ⟨hanswer, ?_⟩
  rintro ⟨n, hbegan, rfl⟩
  -- the call returns, and with the answer of its own beginning
  obtain ⟨b, hout⟩ := hrun.returns (fun _ => rfl) k c n hbegan
  obtain ⟨m, hbegan', hb⟩ := hanswer hout
  obtain ⟨-, rfl⟩ := (numbered_moments (attached apply) t n₀).began_eq hbegan hbegan'
  rw [hb]
  exact hout

/-- What a call returns is decided when it begins. -/
theorem mem_outcomes_iff_reply {past future : History interface E (Node M D cap)} {k : Nat}
    {c : Call} {n : Node M D cap}
    (hsplit : t.moments (attached apply) n₀ = past ++ .began k c n :: future) {a : Answer c} :
    (k, ⟨c, a⟩) ∈ outcomes (t.moments (attached apply) n₀) ↔ n.reply c = a := by
  have hbegan : .began k c n ∈ t.moments (attached apply) n₀ := by
    rw [hsplit]
    simp
  rw [mem_outcomes_iff]
  constructor
  · rintro ⟨m, hm, rfl⟩
    rw [((numbered_moments (attached apply) t n₀).began_eq hbegan hm).2]
  · exact fun h => ⟨n, hbegan, h⟩

/-- In its callback, a byte is the newest unread one. -/
theorem newest_of_entered (hhistory : history = t.moments (attached apply) n₀)
    (hlaw : ∀ past now future, history = past ++ now :: future → now.At ConsoleLaw past)
    {past future : History interface E (Node M D cap)} {k : Nat} {byte : UInt8}
    {n : Node M D cap}
    (hsplit : history = past ++ .entered k (.callback (.consoleByte byte)) n :: future) :
    n.reply (.peek (n.reply .available - 1)) = some byte := by
  have hrun := runs_moments (attached apply) t n₀
  rw [← hhistory] at hrun
  have hnow : ConsoleLaw (past ++ [.entered k (.callback (.consoleByte byte)) n]) n :=
    hlaw past _ future hsplit
  -- the last event is the byte that the call of this callback has accepted
  obtain ⟨earlier, c, begun, resume, hpast, hs⟩ := hrun.entered_after_began hsplit
  have haccepting : accepting? k c begun = some ⟨k, byte⟩ :=
    (consoleHook?_of_entering hs).symm
  obtain ⟨event, hevent, hentry⟩ := Option.bind_eq_some_iff.1 haccepting
  have hevents : consoleEvents (past ++ [.entered k (.callback (.consoleByte byte)) n]) =
      consoleEvents earlier ++ [event] := by
    rw [hpast]
    simp [hevent]
  have hnewest : ∃ older, (ledger (past ++ [.entered k (.callback (.consoleByte byte)) n])).unread =
      older ++ [⟨k, byte⟩] := by
    rw [ledger, hevents, Ledger.ofEvents_append]
    cases event with
    | accept entry overwrites =>
        cases hentry
        exact Ledger.unread_accept ..
    | read | flush => cases hentry
  obtain ⟨older, holder⟩ := hnewest
  rw [hnow.unread, hnow.available, holder]
  simp

theorem consoleCalls_moments (hhistory : history = t.moments (attached apply) n₀)
    (hlaw : ∀ past now future, history = past ++ now :: future → now.At ConsoleLaw past) :
    ConsoleCalls history := by
  have hrun := runs_moments (attached apply) t n₀
  rw [← hhistory] at hrun
  have hnumbered : Numbered history := hrun.numbered_append numbered_nil
  constructor
  · refine (call_accepted_sublist history).nodup ?_
    rw [hnumbered.inOrder]
    exact List.nodup_range'
  · rw [accepted_eq]
    exact hrun.filterMap_hooking? accepting?_of_finished consoleHook?_of_entering
  · intro past k byte n future hsplit
    exact newest_of_entered hhistory hlaw hsplit
  · intro k c a
    rw [hhistory]
    exact mem_outcomes_iff t n₀

end SerialGateway.Node
