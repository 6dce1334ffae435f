import SerialGateway.Proofs.Node.BusChannel
import SerialGateway.Proofs.Node.ConsoleBooks

/-!
# The console over whole runs

What the console of a node does with its bytes, from the line to the reads (`console_stream`). On
the bench, where bytes wait in a queue, every byte of the line has left the receiver by an interrupt
or by a flush, or still waits there (`LineLaw`). Those that a flush drains are none of the accepted
ones, and so they are neither handed to the application nor ever returned.
-/

set_option autoImplicit false

namespace SerialGateway

open Bench in
/-- Draining the console receiver leaves no byte behind. -/
theorem Bench.Devices.console_drain (d : Devices) : (Peripherals.console.drain d).console = [] := by
  have hdrop : ∀ (n : Nat) (d : Devices),
      (Peripherals.console.drop n d).console = ByteQueue.receiver.drop n d.console := by
    intro n
    induction n with
    | zero => exact fun _ => rfl
    | succ n ih =>
        intro d
        rw [Receiver.drop, Receiver.drop]
        show (if ByteQueue.receiver.pending d.console then _ else d).console = _
        split
        · rw [ih]
          rfl
        · rfl
  exact (hdrop _ d).trans (ByteQueue.drain_receiver d.console)

namespace Node

open Bench History ConsoleEvent

variable {M : Type} {cap : Nat}

/-! ## The line -/

/-- A byte that has left the receiver, with the call by which it left. -/
inductive Departure where
  | taken (entry : Entry)
  | drained (entry : Entry)
  deriving DecidableEq, Repr

namespace Departure

@[simp] def byte : Departure → UInt8
  | taken entry | drained entry => entry.byte

/-- The byte that an interrupt took. -/
@[simp] def taken? : Departure → Option Entry
  | taken entry => some entry
  | drained _ => none

end Departure

/-- The bytes that leave the receiver with a call: an interrupt takes one, and a flush drains all
that wait. -/
def departing (k : Nat) : Call → Node M Devices cap → List Departure
  | .consoleInterrupt, n => [.taken ⟨k, n.consoleByte⟩]
  | .flush, n => n.devices.console.map fun waiting => .drained ⟨k, waiting.1⟩
  | _, _ => []

/-- The byte that comes on the console line, if one does. -/
@[simp] def arriving? : Doing → Option UInt8
  | .consoleByte value _ => some value
  | .busByte _ _ | .elapse _ => none

/-- The bytes that leave the receiver at a moment. -/
@[simp] def departed : Moment interface Doing (Node M Devices cap) → List Departure
  | .began k c n => departing k c n
  | .entered _ _ _ | .left _ _ _ | .returned _ _ _ _ | .acted _ _ => []

/-- The byte that comes on the console line at a moment, if one does. -/
@[simp] def arrived? : Moment interface Doing (Node M Devices cap) → Option UInt8
  | .acted e _ => arriving? e
  | .began _ _ _ | .entered _ _ _ | .left _ _ _ | .returned _ _ _ _ => none

/-- The bytes that have left the receiver, in order. -/
def departures (history : History interface Doing (Node M Devices cap)) : List Departure :=
  history.flatMap departed

/-- The bytes that have come on the console line, in order. -/
def arrivals (history : History interface Doing (Node M Devices cap)) : List UInt8 :=
  history.filterMap arrived?

@[simp] theorem departures_nil :
    departures ([] : History interface Doing (Node M Devices cap)) = [] := rfl

@[simp] theorem departures_cons (m : Moment interface Doing (Node M Devices cap))
    (rest : History interface Doing (Node M Devices cap)) :
    departures (m :: rest) = departed m ++ departures rest :=
  List.flatMap_cons

@[simp] theorem departures_append (a b : History interface Doing (Node M Devices cap)) :
    departures (a ++ b) = departures a ++ departures b :=
  List.flatMap_append

@[simp] theorem arrivals_nil :
    arrivals ([] : History interface Doing (Node M Devices cap)) = [] := rfl

@[simp] theorem arrivals_cons (m : Moment interface Doing (Node M Devices cap))
    (rest : History interface Doing (Node M Devices cap)) :
    arrivals (m :: rest) = (arrived? m).toList ++ arrivals rest :=
  filterMap_cons_toList ..

@[simp] theorem arrivals_append (a b : History interface Doing (Node M Devices cap)) :
    arrivals (a ++ b) = arrivals a ++ arrivals b :=
  List.filterMap_append

/-- Every console interrupt finds a byte. -/
def Supplied (history : History interface Doing (Node M Devices cap)) : Prop :=
  ∀ k n, .began k .consoleInterrupt n ∈ history → n.devices.console ≠ []

theorem Supplied.of_append {past more : History interface Doing (Node M Devices cap)}
    (h : Supplied (past ++ more)) : Supplied past :=
  fun k n hn => h k n (List.mem_append_left _ hn)

variable [InterruptControl M]

/-- The console line after `past`, when `initial` waited at the start: what has come has left or
still waits, in order; and the accepted bytes are among those that interrupts have taken. -/
structure LineLaw (initial : ByteQueue) (past : History interface Doing (Node M Devices cap))
    (n : Node M Devices cap) : Prop where
  conserved : initial.map Prod.fst ++ arrivals past =
    (departures past).map Departure.byte ++ n.devices.console.map Prod.fst
  taken : (accepted past).Sublist ((departures past).filterMap Departure.taken?)

/-! ## One call -/

/-- What waits before a call leaves with it, or waits after it. -/
theorem line_reached {c : Call} {n : Node M Devices cap}
    (hsupplied : c = .consoleInterrupt → n.devices.console ≠ []) (k : Nat) :
    n.devices.console.map Prod.fst = (departing k c n).map Departure.byte ++
      (start c n).reached.devices.console.map Prod.fst := by
  cases c with
  | consoleInterrupt =>
      show _ = _ ++ List.map Prod.fst n.consoleInterrupt.reached.devices.console
      rw [reached_consoleInterrupt]
      have hqueue : n.bookConsole.2.devices.console = (ByteQueue.take n.devices.console).2 := rfl
      have hbyte : n.consoleByte = (ByteQueue.take n.devices.console).1 := rfl
      rw [departing, hqueue, hbyte]
      cases hwaiting : n.devices.console with
      | nil => exact absurd hwaiting (hsupplied rfl)
      | cons first rest => rfl
  | flush =>
      have hqueue : (start .flush n).reached.devices.console = [] := by
        show (n.shared.console.flush Peripherals.console n.devices).2.console = []
        rw [Ring.flush_snd, Devices.console_drain]
      rw [hqueue, departing, List.map_map, List.map_nil, List.append_nil]
      rfl
  | tickInterrupt =>
      obtain ⟨-, -, hdevices⟩ := n.reached_tickInterrupt
      exact congrArg (·.console.map Prod.fst) hdevices.symm
  | _ => rfl

/-- A call accepts the byte that it takes, or none. -/
theorem accepting?_sublist (k : Nat) (c : Call) (n : Node M Devices cap) :
    (accepting? k c n).toList.Sublist ((departing k c n).filterMap Departure.taken?) := by
  cases c with
  | consoleInterrupt =>
      rw [accepting?, consoleCall?]
      cases n.reply .consoleInterrupt with
      -- the byte of such a call is taken, and then dropped
      | rebootRequested => exact List.nil_sublist _
      | delivered | overflowed => exact List.Sublist.refl _
  | _ => exact List.nil_sublist _

/-! ## Every run -/

section Line

variable {initial : ByteQueue} {past more : History interface Doing (Node M Devices cap)}
  {n n' : Node M Devices cap}

/-- A call keeps the law of the line up to its hook. -/
theorem LineLaw.call (h : LineLaw initial past n) {k : Nat} {c : Call}
    (hsupplied : c = .consoleInterrupt → n.devices.console ≠ [])
    (hdepartures : departures more = departing k c n) (harrivals : arrivals more = [])
    (haccepted : accepted more = (accepting? k c n).toList) :
    LineLaw initial (past ++ more) (start c n).reached where
  conserved := by
    rw [departures_append, arrivals_append, hdepartures, harrivals, List.append_nil, h.conserved,
      line_reached hsupplied k, List.map_append, List.append_assoc]
  taken := by
    rw [departures_append, accepted_append, hdepartures, haccepted, List.filterMap_append]
    exact h.taken.append (accepting?_sublist k c n)

/-- What is neither a call nor an arrival keeps it. -/
theorem LineLaw.congr (h : LineLaw initial past n)
    (hconsole : n'.devices.console = n.devices.console) (hdepartures : departures more = [])
    (harrivals : arrivals more = []) (haccepted : accepted more = []) :
    LineLaw initial (past ++ more) n' where
  conserved := by
    rw [departures_append, arrivals_append, hdepartures, harrivals, List.append_nil,
      List.append_nil, hconsole, h.conserved]
  taken := by
    rw [departures_append, accepted_append, hdepartures, haccepted, List.append_nil,
      List.append_nil]
    exact h.taken

end Line

/-- While every console interrupt finds a byte, no call and no doing loses one. -/
theorem invariant_line (initial : ByteQueue) :
    Invariant (onBench M cap) fun past n => Supplied past → LineLaw initial past n := by
  apply Invariant.of_reached
  · intro past k c n m h hbegins hnumber hsupplied
    have hfound : c = .consoleInterrupt → n.devices.console ≠ [] := by
      rintro rfl
      exact hsupplied k n (by simp)
    have hpast := h hsupplied.of_append
    cases m with
    | began => cases hbegins
    | acted => cases hnumber
    | entered | left | returned =>
        exact hpast.call (k := k) hfound (by simp) (by simp) (by simp)
  · intro past k c n hook n' resume inside hs hin
    have hdevices : (resume inside).2.devices = inside.devices :=
      congrArg Records.devices (records_resume c hs inside)
    constructor
    · intro hsupplied
      exact (hin hsupplied.of_append).congr rfl (by simp) (by simp) (by simp)
    · intro hsupplied
      exact (hin hsupplied.of_append).congr (congrArg Devices.console hdevices) (by simp) (by simp)
        (by simp)
  · intro past e n h hsupplied
    have hbefore := h hsupplied.of_append
    cases e with
    | busByte | elapse => exact hbefore.congr rfl (by simp) (by simp) (by simp)
    | consoleByte value errors =>
        constructor
        · have hqueue : ((onBench M cap).act (.consoleByte value errors) n).devices.console =
              n.devices.console ++ [(value, errors)] := rfl
          rw [hqueue]
          simp [← List.append_assoc, hbefore.conserved]
        · simpa using hbefore.taken

/-- A byte that a flush drains is none of the accepted ones. -/
theorem drained_notMem_accepted {history : History interface Doing (Node M Devices cap)}
    (hnumbered : Numbered history) {entry : Entry} (h : .drained entry ∈ departures history) :
    entry ∉ accepted history := by
  intro haccepted
  obtain ⟨m, hm, hdrained⟩ := List.mem_flatMap.1 h
  rw [accepted_eq] at haccepted
  obtain ⟨m', hm', haccepting⟩ := List.mem_filterMap.1 haccepted
  cases m with
  | entered | left | returned | acted => cases hdrained
  | began k c n =>
      cases m' with
      | entered | left | returned | acted => cases haccepting
      | began k' c' n' =>
          obtain ⟨rfl, rfl⟩ := call_of_accepting? haccepting
          -- the numbers of the two calls tell them apart
          cases c with
          | flush =>
              obtain ⟨waiting, -, hentry⟩ := List.mem_map.1 hdrained
              cases hentry
              obtain ⟨hcall, -⟩ := hnumbered.began_eq hm hm'
              cases hcall
          | consoleInterrupt => simp [departing] at hdrained
          | _ => cases hdrained

/-- The console of a node over a whole run from its start.

With any devices, and whatever the surroundings do to them: every accepted byte is handed to the
application once, in the order in which the bytes were taken, and is then the newest unread one; and
at every moment the accepted bytes are those that are unread, were returned, overwritten or
discarded, each of them once, as the answers tell.

On the bench, where every console interrupt finds a byte: no byte of the line is lost on its way to
an interrupt or to a flush, and those that a flush drains are none of the accepted ones. -/
theorem console_stream (timing : ChannelTiming) (controller : M) (hcap : 0 < cap)
    (hword : 4 * cap - 1 ≤ Ring.wordMax) :
    (∀ (D E : Type) [Peripherals D] (apply : E → D → D) (devices : D)
        (t : CallTree interface E (Node M D cap)),
      let n := Node.new controller timing devices cap hcap
      let history : History interface E (Node M D cap) := t.moments (attached apply) n
      ConsoleCalls history ∧
        (∀ past (now : Moment interface E (Node M D cap)) future,
          history = past ++ now :: future → now.At ConsoleLaw past) ∧
        ConsoleLaw history (t.run (attached apply) n)) ∧
      ∀ (devices : Devices) (t : CallTree interface Doing (Node M Devices cap)),
        let n := Node.new controller timing devices cap hcap
        let history : History interface Doing (Node M Devices cap) := t.moments (onBench M cap) n
        Supplied history →
        (∀ past (now : Moment interface Doing (Node M Devices cap)) future,
          history = past ++ now :: future → now.At (LineLaw devices.console) past) ∧
          LineLaw devices.console history (t.run (onBench M cap) n) ∧
          ∀ entry, .drained entry ∈ departures history → entry ∉ accepted history := by
  constructor
  · intro D E _ apply devices t n history
    obtain ⟨hbooked, hend⟩ := (invariant_booked apply).of_tree t
      (show Booked [] n from Books.start hcap)
    have hlaw : ∀ past now future, history = past ++ now :: future → now.At ConsoleLaw past := by
      intro past now future hsplit
      exact (hbooked past now future hsplit).imp fun _ _ h => h.law hword
    exact ⟨consoleCalls_moments rfl hlaw, hlaw, hend.law hword⟩
  · intro devices t n history hsupplied
    have hstart : LineLaw devices.console [] n :=
      ⟨by simp [n, Node.new], List.Sublist.refl _⟩
    obtain ⟨hline, hend⟩ := (invariant_line devices.console).of_tree t (fun _ => hstart)
    refine ⟨?_, hend hsupplied, ?_⟩
    · intro past now future hsplit
      have hnow := hline past now future hsplit
      -- what has happened so far is supplied as well
      have hpast : Supplied (past ++ [now]) := by
        have hall : history = past ++ [now] ++ future := by simp [hsplit]
        exact (hall ▸ hsupplied).of_append
      cases now with
      | began => exact hnow hpast.of_append
      | entered | left | returned | acted => exact hnow hpast
    · intro entry hdrained
      exact drained_notMem_accepted (numbered_moments ..) hdrained

/-- Three bytes through a ring of two, the first of which waits at the start. The third overwrites
it, and its callback reads the second. The flush discards the third, and drains a fourth byte from
the receiver. -/
theorem console_stream_four_bytes :
    let devices : Devices := { console := [(65, .clean)] }
    let n : Node Control Devices 2 :=
      Node.new { enabled := true } Settings.busTiming devices 2 (by decide)
    let t : CallTree interface Doing (Node Control Devices 2) :=
      .call .consoleInterrupt (fun _ => .done) fun _ =>
        .act (.consoleByte 66 .clean) fun _ => .call .consoleInterrupt (fun _ => .done) fun _ =>
          .act (.consoleByte 67 .clean) fun _ =>
            .call .consoleInterrupt (fun _ => .call .read (fun _ => .done) fun _ => .done) fun _ =>
              .act (.consoleByte 68 .clean) fun _ => .call .flush (fun _ => .done) fun _ => .done
    let history := t.moments (onBench Control 2) n
    (0 < 2 ∧ 4 * 2 - 1 ≤ Ring.wordMax ∧ Supplied history) ∧
      history.filterMap (Moment.hooking? consoleHook?) = [⟨1, 65⟩, ⟨2, 66⟩, ⟨3, 67⟩] ∧
      ConsoleLaw history (t.run (onBench Control 2) n) ∧
      (ledger history).overwritten = [⟨1, 65⟩] ∧ (ledger history).returned = [⟨2, 66⟩] ∧
      (ledger history).discarded = [⟨3, 67⟩] ∧ ⟨5, 68⟩ ∉ accepted history := by
  intro devices n t history
  have hsupplied : Supplied history := by
    have hall : ∀ m ∈ history, m.calling? (fun k (c : Call) (n : Node Control Devices 2) =>
        if c = .consoleInterrupt ∧ n.devices.console = [] then some k else none) = none := by
      decide +kernel
    intro k n hn hempty
    have := hall _ hn
    simp [hempty] at this
  obtain ⟨hconsole, hline⟩ := console_stream Settings.busTiming (M := Control)
    { enabled := true } (show 0 < 2 by decide) (by decide)
  obtain ⟨hcalls, -, hlaw⟩ := hconsole Devices Doing Doing.apply devices t
  obtain ⟨-, -, hdrained⟩ := hline devices t hsupplied
  have haccepted : accepted history = [⟨1, 65⟩, ⟨2, 66⟩, ⟨3, 67⟩] := by decide +kernel
  refine ⟨⟨by decide, by decide, hsupplied⟩, ?_, hlaw, ?_, ?_, ?_, ?_⟩
  · exact hcalls.delivered.trans haccepted
  · decide +kernel
  · decide +kernel
  · decide +kernel
  · exact hdrained ⟨5, 68⟩ (by decide +kernel)

end Node

end SerialGateway
