import SerialGateway.Bench.Control
import SerialGateway.Bench.Devices
import SerialGateway.Board.Gateway
import SerialGateway.Proofs.Node.RebootRequest

/-!
# Resets

On the board, the console interrupt whose byte requests a reboot resets the system, and no other
one does (`reboot_requested_exactly`). The gateway forwards the call to its node, and so its
detector remembers the same bytes (`Gateway.remembers_byte`). A reset is the last thing that
happens: the interrupt that requests it does not get back to what it has interrupted. Of the memory
it writes the reset control register only, which then holds the key and the request.
-/

set_option autoImplicit false

namespace SerialGateway

open History RebootSequence

namespace Gateway

section

variable {A : Type}

/-! ## What the detector remembers -/

/-- The byte that a call takes from the console, if it takes one. -/
def byteTaken? : Call A → Gateway A → Option UInt8
  | .node c, g => Node.byteTaken? c g.node
  | _, _ => none

/-- The bytes that the console interrupts of a history have taken, in the order in which they
began. -/
def bytesTaken (history : History (interface A) (Memory → Memory) (Gateway A)) : List UInt8 :=
  history.seen byteTaken?

/-- The last byte that the node has taken. -/
def lastByte (g : Gateway A) : UInt8 := g.node.shared.reboot.last

theorem shows_forward (g : Gateway A) (c : Node.Call) :
    (g.forward (Node.start c)).Shows lastByte ((Node.byteTaken? c g.node).getD g.lastByte) :=
  ((Node.shows_byte c g.node).within nodePart g).route (hookFor g.application)

theorem byteTaken?_fetchApplication (c : Node.Call) (g : Gateway A) :
    Node.byteTaken? c g.fetchApplication.node = Node.byteTaken? c g.node := by
  cases c <;> rfl

/-- An interrupt looks up the application first, which the detector does not notice. -/
theorem shows_interrupt (g : Gateway A) (c : Node.Call) :
    (g.fetchApplication.forward (Node.start c)).Shows lastByte
      ((Node.byteTaken? c g.node).getD g.lastByte) := by
  have h := g.fetchApplication.shows_forward c
  rw [byteTaken?_fetchApplication] at h
  exact h

variable [SystemReset]

theorem shows_byte (c : Call A) (g : Gateway A) :
    (start c g).Shows lastByte ((byteTaken? c g).getD g.lastByte) := by
  cases c with
  | register | startTick | reset => rfl
  | takeBoard =>
      show g.takeBoard.2.lastByte = g.lastByte
      rw [takeBoard]
      split <;> rfl
  | node c =>
      have hforward := g.shows_forward c
      have hinterrupt := g.shows_interrupt c
      cases c with
      | consoleInterrupt =>
          -- a reset does not touch the detector
          apply hinterrupt.andThen
          intro outcome g'
          split <;> rfl
      | busInterrupt | silenceInterrupt | tickInterrupt => exact hinterrupt
      | _ => exact hforward

theorem remembers_byte : Remembers (component A) lastByte byteTaken? where
  start := shows_byte
  act _ _ := rfl

/-! ## One console interrupt -/

/-- The gateway after a console interrupt has taken its byte, with the ring that the byte has
left. -/
def withByteTaken (console : Ring Settings.consoleCapacity) (g : Gateway A) : Gateway A :=
  { g.fetchApplication with node := g.fetchApplication.node.withByteTaken console }

/-- A byte that requests a reboot resets the system at once. -/
theorem start_of_request {g : Gateway A}
    (h : (g.node.shared.reboot.feed g.node.consoleByte).1 = true) :
    start (.node .consoleInterrupt) g =
      .finished .rebootRequested (g.withByteTaken g.node.shared.console).reset := by
  have hnode : g.fetchApplication.node.consoleInterrupt = .finished .rebootRequested
      (g.fetchApplication.node.withByteTaken g.node.shared.console) := Node.start_of_request h
  show g.consoleInterrupt = _
  rw [consoleInterrupt, forward, hnode]
  rfl

/-- Any other byte is pushed, and handed to the application if there is one. -/
theorem start_of_no_request {g : Gateway A}
    (h : ¬ (g.node.shared.reboot.feed g.node.consoleByte).1 = true) :
    let g' := g.withByteTaken (g.node.shared.console.push g.node.consoleByte).2
    start (.node .consoleInterrupt) g = .finished g.node.storedOutcome g' ∨
      ∃ a, start (.node .consoleInterrupt) g =
        .entering (.callback a (.consoleByte g.node.consoleByte)) g'
          fun inside => (g.node.storedOutcome, inside) := by
  intro g'
  have hnode : g.fetchApplication.node.consoleInterrupt =
      .entering (.callback (.consoleByte g.node.consoleByte))
        (g.fetchApplication.node.withByteTaken (g.node.shared.console.push g.node.consoleByte).2)
        fun n' => (g.node.storedOutcome, n') := Node.start_of_no_request h
  have hkept : ∀ w : Gateway A,
      (if g.node.storedOutcome = .rebootRequested then w.reset else w) = w :=
    fun w => if_neg g.node.storedOutcome_ne
  show g.consoleInterrupt = _ ∨ ∃ a, g.consoleInterrupt = _
  rw [consoleInterrupt, forward, hnode]
  show (((Step.entering _ _ _).route (hookFor g.application)).andThen _) = _ ∨
    ∃ a, (((Step.entering _ _ _).route (hookFor g.application)).andThen _) = _
  cases g.application with
  | none => exact .inl (congrArg (Step.finished g.node.storedOutcome) (hkept g'))
  | some a =>
      have hresume : (fun w : Gateway A => (g.node.storedOutcome,
          if g.node.storedOutcome = .rebootRequested then w.reset else w)) =
            fun w => (g.node.storedOutcome, w) := by
        funext w
        rw [hkept]
      exact .inr ⟨a, congrArg (Step.entering _ g') hresume⟩

/-- A byte that does not request a reboot does not halt the gateway. -/
theorem shows_running {g : Gateway A} (hrunning : g.resetRequested = false)
    (hno : ¬ (g.node.shared.reboot.feed g.node.consoleByte).1 = true) :
    (start (.node .consoleInterrupt) g).Shows resetRequested false := by
  rcases start_of_no_request hno with h | ⟨_, h⟩
  · rw [h]
    exact hrunning
  · rw [h]
    exact ⟨hrunning, fun _ => rfl⟩

/-! ## Every run -/

/-- What becomes of console interrupt `k`, which begins in `g` after `past`, in a run that ends in
`last`. It resets the system, which one of its own moments then shows, if its byte requests a reboot
after the bytes of the console interrupts that began before. In that case the run is over with the
next moment: the interrupt does not get back to what it has interrupted. The reset control register
holds the key and the request beside the priority grouping that was there, and no other word has
changed. Otherwise the byte is pushed first, and whatever the callback does, the call itself does
not reset. -/
structure ResetLaw (history past : History (interface A) (Memory → Memory) (Gateway A)) (k : Nat)
    (g : Gateway A) (future : History (interface A) (Memory → Memory) (Gateway A))
    (last : Gateway A) : Prop where
  resets : (∃ m ∈ history, m.number? = some k ∧ m.world.resetRequested = true) ↔
    Requests (bytesTaken past) g.node.consoleByte
  onlyReset : Requests (bytesTaken past) g.node.consoleByte →
    (∃ m, future = [m] ∧ m.number? = some k ∧ m.world = last) ∧
      last.resetRequested = true ∧
      last.node.shared = { g.node.shared with reboot := ⟨g.node.consoleByte⟩ } ∧
      last.node.devices.read Core.resetControlReg =
        0x05FA0000 ||| (g.node.devices.read Core.resetControlReg &&& 0x700) ||| 4 ∧
      ∀ a, a ≠ Core.resetControlReg → last.node.devices.read a = g.node.devices.read a
  stored : ¬ Requests (bytesTaken past) g.node.consoleByte → ∃ m rest, future = m :: rest ∧
    m.world.resetRequested = false ∧
      m.world.node.shared = { g.node.shared with
        console := (g.node.shared.console.push g.node.consoleByte).2
        reboot := ⟨g.node.consoleByte⟩ } ∧
      m.world.node.devices = g.node.devices

variable {t : CallTree (interface A) (Memory → Memory) (Gateway A)} {g₀ : Gateway A}
  {past future : History (interface A) (Memory → Memory) (Gateway A)} {k : Nat} {g : Gateway A}

/-- Whenever a call begins, the detector recognizes the requests. -/
theorem feed_iff_requests (hstart : g₀.lastByte = 0) {c : Call A}
    (hsplit : t.moments (component A) g₀ = past ++ .began k c g :: future) :
    (g.node.shared.reboot.feed g.node.consoleByte).1 = true ↔
      Requests (bytesTaken past) g.node.consoleByte := by
  obtain ⟨hmoments, -⟩ := (remembers_byte.invariant 0).of_tree t hstart
  exact feed_iff (hmoments past _ future hsplit) g.node.consoleByte

/-- The law of resets in every run from a gateway that has not taken a byte. -/
theorem resetLaw_of_moments (hstart : g₀.lastByte = 0)
    (hsplit : t.moments (component A) g₀ =
      past ++ .began k (.node .consoleInterrupt) g :: future) :
    ResetLaw (t.moments (component A) g₀) past k g future (t.run (component A) g₀) := by
  have hbegan : .began k (.node .consoleInterrupt) g ∈ t.moments (component A) g₀ := by
    rw [hsplit]
    simp
  have hrunning : g.resetRequested = false := t.running_of_began g₀ hbegan
  have hfeed := feed_iff_requests hstart hsplit
  obtain ⟨rest, hnext⟩ := (runs_moments (component A) t g₀).follows hsplit
  rw [show (component A).start (.node .consoleInterrupt) g = start (.node .consoleInterrupt) g
    from rfl] at hnext
  by_cases hrequest : (g.node.shared.reboot.feed g.node.consoleByte).1 = true
  · rw [start_of_request hrequest] at hnext
    -- the next moment is in a halt, so it is the last one
    have hreset : t.moments (component A) g₀ = past ++ [.began k (.node .consoleInterrupt) g] ++
        .returned k (.node .consoleInterrupt) .rebootRequested
          (g.withByteTaken g.node.shared.console).reset :: rest := by
      rw [hsplit, hnext, List.append_assoc]
      rfl
    obtain ⟨rfl, hlast⟩ := t.last_of_halted g₀ hreset rfl
    constructor
    · refine iff_of_true ⟨.returned k (.node .consoleInterrupt) .rebootRequested
        (g.withByteTaken g.node.shared.console).reset, ?_, rfl, rfl⟩ (hfeed.1 hrequest)
      rw [hreset]
      simp
    · intro _
      rw [hlast]
      refine ⟨⟨_, hnext, rfl, rfl⟩, rfl, rfl, ?_, ?_⟩
      · exact SystemReset.read_control g.node.devices
      · exact SystemReset.read_of_ne g.node.devices
    · exact fun hno => absurd (hfeed.1 hrequest) hno
  · constructor
    · apply iff_of_false
      · rintro ⟨m, hm, hk, hreset⟩
        have hnot : m.world.resetRequested = false :=
          t.running_of_number g₀ hbegan (shows_running hrunning hrequest) hm hk
        rw [hnot] at hreset
        cases hreset
      · exact fun hyes => hrequest (hfeed.2 hyes)
    · exact fun hyes => absurd (hfeed.2 hyes) hrequest
    · intro _
      refine ⟨_, rest, hnext, ?_⟩
      rcases start_of_no_request hrequest with h | ⟨_, h⟩
      · rw [h]
        exact ⟨hrunning, rfl, rfl⟩
      · rw [h]
        exact ⟨hrunning, rfl, rfl⟩

end

end Gateway

/-- Reboot requests in every run from the start, of a node with any interrupt controller and any
devices, and of the gateway on its board, whatever the callbacks and the surroundings do. A console
interrupt answers that a reboot is requested if and only if it has taken `R` and the console
interrupt that began before it has taken `@`. Such a byte leaves no trace but in the detector, and
every other one is stored and handed over once. On the board, with any implementation of the reset,
the same bytes reset the system: the interrupt does not get back to what it has interrupted, the
reset control register holds the request, and no other word of the memory has changed. -/
theorem reboot_requested_exactly :
    (∀ (M D E : Type) [InterruptControl M] [Peripherals D] (cap : Nat) (hcap : 0 < cap)
        (controller : M) (timing : ChannelTiming) (devices : D) (apply : E → D → D)
        (t : CallTree Node.interface E (Node M D cap)),
      let history := t.moments (Node.attached apply) (Node.new controller timing devices cap hcap)
      ∀ past k n future, history = past ++ .began k .consoleInterrupt n :: future →
        Node.RebootLaw history past k n future) ∧
      ∀ [SystemReset] (A : Type) (m : Memory)
          (t : CallTree (Gateway.interface A) (Memory → Memory) (Gateway A)),
        let history := t.moments (Gateway.component A) (Gateway.powerOn A m)
        ∀ past k g future, history = past ++ .began k (.node .consoleInterrupt) g :: future →
          Gateway.ResetLaw history past k g future
            (t.run (Gateway.component A) (Gateway.powerOn A m)) := by
  constructor
  · intro M D E _ _ cap hcap controller timing devices apply t history past k n future hsplit
    exact Node.rebootLaw_of_moments rfl hsplit
  · intro _ A m t history past k g future hsplit
    exact Gateway.resetLaw_of_moments rfl hsplit

open Bench in
/-- The two bytes of a request, the second one inside the callback of the first; and the same bytes
on the board, where the read that should follow does not happen any more. The reset control register
reads as `0xFA050300` before, and keeps the two bits of the priority grouping. -/
theorem reboot_requested_exactly_nested :
    let t : CallTree Node.interface (Devices → Devices) (Node Control Devices 4) :=
      .call .consoleInterrupt
        (fun _ => .call .consoleInterrupt (fun _ => .done) fun _ => .done) fun _ => .done
    let n₀ : Node Control Devices 4 := Node.new { enabled := true } Settings.busTiming
      { console := [(64, .clean), (82, .clean)] } 4 (by decide)
    let history : History Node.interface (Devices → Devices) (Node Control Devices 4) :=
      t.moments (Node.attached fun f d => f d) n₀
    let t' : CallTree (Gateway.interface Unit) (Memory → Memory) (Gateway Unit) :=
      .act (Memory.write · Uart.console.dataReg 64) fun _ =>
        .call (.node .consoleInterrupt) (fun _ => .done) fun _ =>
          .act (Memory.write · Uart.console.dataReg 82) fun _ =>
            .call (.node .consoleInterrupt) (fun _ => .done) fun _ =>
              .call (.node .read) (fun _ => .done) fun _ => .done
    let history' : History (Gateway.interface Unit) (Memory → Memory) (Gateway Unit) :=
      t'.moments (Gateway.component Unit)
        (Gateway.powerOn Unit ⟨[(Core.resetControlReg, 0xFA050300)]⟩)
    let last := t'.run (Gateway.component Unit)
      (Gateway.powerOn Unit ⟨[(Core.resetControlReg, 0xFA050300)]⟩)
    0 < 4 ∧
      (∃ past n future, history = past ++ .began 2 .consoleInterrupt n :: future ∧
        Requests (Node.bytesTaken past) n.consoleByte) ∧
      (2, ⟨.consoleInterrupt, .rebootRequested⟩) ∈ history.outcomes ∧
      (∃ past g m, history' = past ++ [.began 2 (.node .consoleInterrupt) g, m] ∧ m.world = last) ∧
      last.node.devices.read Core.resetControlReg = 0x05FA0304 := by
  intro t n₀ history t' history' last
  obtain ⟨hnode, hgateway⟩ := reboot_requested_exactly
  have hcalls : history.filterMap (Moment.calling? fun k c _ => some (k, c)) =
      [(1, .consoleInterrupt), (2, .consoleInterrupt)] := by
    decide +kernel
  have hnone : history.hooksOf 2 = [] := by
    decide +kernel
  have hsecond : ∃ n, .began 2 .consoleInterrupt n ∈ history := by
    have hmem : (2, Node.Call.consoleInterrupt) ∈
        history.filterMap (Moment.calling? fun k c _ => some (k, c)) := by
      rw [hcalls]
      simp
    obtain ⟨m, hm, hcall⟩ := List.mem_filterMap.1 hmem
    cases m with
    | began =>
        cases hcall
        exact ⟨_, hm⟩
    | entered | left | returned | acted => cases hcall
  obtain ⟨n, hbegan⟩ := hsecond
  obtain ⟨past, future, hsplit⟩ := List.append_of_mem hbegan
  have hlaw : Node.RebootLaw history past 2 n future :=
    hnode Control Devices (Devices → Devices) 4 (by decide) { enabled := true } Settings.busTiming
      { console := [(64, .clean), (82, .clean)] } (fun f d => f d) t past 2 n future hsplit
  -- a call that is stored would have entered its callback
  have hrequests : Requests (Node.bytesTaken past) n.consoleByte := by
    by_contra hno
    rw [(hlaw.stored hno).1] at hnone
    cases hnone
  obtain ⟨past', g, future', hsplit', hrequests', hcontrol⟩ : ∃ past g future,
      history' = past ++ .began 2 (.node .consoleInterrupt) g :: future ∧
        Requests (Gateway.bytesTaken past) g.node.consoleByte ∧
          g.node.devices.read Core.resetControlReg = 0xFA050300 := by
    refine ⟨[_, _, _, _], _, _, rfl, ?_⟩
    decide +kernel
  have hlaw' := hgateway Unit ⟨[(Core.resetControlReg, 0xFA050300)]⟩ t' past' 2 g future' hsplit'
  obtain ⟨⟨m, hover, -, hlast⟩, -, -, hregister, -⟩ := hlaw'.onlyReset hrequests'
  refine ⟨by decide, ⟨past, n, future, hsplit, hrequests⟩, hlaw.answer.2 hrequests,
    ⟨past', g, m, ?_, hlast⟩, ?_⟩
  · rw [hsplit', hover]
  · show last.node.devices.read Core.resetControlReg = _
    rw [hregister, hcontrol]
    rfl

end SerialGateway
