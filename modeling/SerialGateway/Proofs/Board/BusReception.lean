import SerialGateway.Proofs.Board.Registers
import SerialGateway.Proofs.Board.Reset
import SerialGateway.Proofs.Bus.Silence
import SerialGateway.Proofs.Bus.Traffic
import SerialGateway.Proofs.Reentrant.Restricted

/-!
# A bus byte on the board

What a byte of the bus means, from the registers of the board up to the application: which byte it
is, and which bit of its status stands for which bit of which register (`bus_reception`). All of it
is read before anything is written. The interrupt restarts the silence timer and counts the byte,
and then enters the application. Surroundings that write nothing leave it at that: no call writes to
the memory but those that are said to (`Call.writes`).
-/

set_option autoImplicit false

namespace SerialGateway

open History

/-! ## Status bits -/

/-- The bits of a status, one by one. -/
structure RxStatus.Bits (status : RxStatus) (newFrame : Bool) (errors : LineErrors) : Prop where
  newFrame : status.bits.toNat.testBit 0 = newFrame
  error : status.bits.toNat.testBit 1 = errors.any
  parity : status.bits.toNat.testBit 5 = errors.parity
  overrun : status.bits.toNat.testBit 6 = errors.overrun
  framing : status.bits.toNat.testBit 7 = errors.framing
  others : ∀ i, i ∉ [0, 1, 5, 6, 7] → status.bits.toNat.testBit i = false

theorem RxStatus.bits_encode (newFrame : Bool) (errors : LineErrors) :
    (encode newFrame errors).Bits newFrame errors := by
  have hbits : ∀ newFrame framing parity overrun,
      let bits := (encode newFrame ⟨framing, parity, overrun⟩).bits.toNat
      bits.testBit 0 = newFrame ∧ bits.testBit 1 = (framing || parity || overrun) ∧
        bits.testBit 5 = parity ∧ bits.testBit 6 = overrun ∧ bits.testBit 7 = framing ∧
        ∀ i < 8, i ∉ [0, 1, 5, 6, 7] → bits.testBit i = false := by decide
  obtain ⟨framing, parity, overrun⟩ := errors
  obtain ⟨hnew, herror, hparity, hoverrun, hframing, hothers⟩ :=
    hbits newFrame framing parity overrun
  refine ⟨hnew, herror, hparity, hoverrun, hframing, fun i hi => ?_⟩
  by_cases hbyte : i < 8
  · exact hothers i hbyte hi
  · -- a byte has no such bit
    apply Nat.testBit_lt_two_pow
    exact Nat.lt_of_lt_of_le (UInt8.toNat_lt _) (Nat.pow_le_pow_right (by decide) (by omega))

/-! ## The devices of the board -/

namespace Uart

variable (u : Uart) (m : Memory)

theorem toNat_readByte : (u.readByte m).toNat = (m.read u.dataReg).toNat % 256 :=
  UInt32.toNat_toUInt8 _

theorem parity_errors : (u.errors m).parity = m.bit u.statusReg 0 :=
  m.anyBit_bit u.statusReg (by decide)

theorem framing_errors : (u.errors m).framing = m.bit u.statusReg 1 :=
  m.anyBit_bit u.statusReg (by decide)

theorem overrun_errors : (u.errors m).overrun = m.bit u.statusReg 3 :=
  m.anyBit_bit u.statusReg (by decide)

end Uart

namespace Node

variable {M : Type} {cap : Nat} [InterruptControl M]

/-- The call writes to the memory of the board. -/
def Call.writes : Call → Bool
  | .busInterrupt | .silenceInterrupt | .armGapTimer => true
  | _ => false

/-- The memory, and the detector of the bus. -/
def wiring (n : Node M Memory cap) : Memory × GapDetector := (n.devices, n.shared.bus)

omit [InterruptControl M] in
theorem wiring_of_records_eq {n n' : Node M Memory cap} (h : n.records = n'.records) :
    n.wiring = n'.wiring :=
  Prod.ext (congrArg Records.devices h) (congrArg Records.bus h)

theorem shows_wiring {c : Call} (hc : c.writes = false) (n : Node M Memory cap) :
    (start c n).Shows wiring n.wiring := by
  apply Step.shows_of_reached
  · cases c with
    | busInterrupt | silenceInterrupt | armGapTimer => cases hc
    | tickInterrupt =>
        obtain ⟨-, hbus, hdevices⟩ := n.reached_tickInterrupt
        exact Prod.ext hdevices hbus
    | consoleInterrupt =>
        obtain ⟨guard, console, reboot, hbooked⟩ := n.exists_bookConsole
        show n.consoleInterrupt.reached.wiring = _
        rw [reached_consoleInterrupt, hbooked]
        rfl
    | flush =>
        show ((n.shared.console.flush Uart.console.receiver n.devices).2, n.shared.bus) = _
        rw [Ring.flush_snd, Uart.drain_receiver]
        rfl
    | _ => rfl
  · intro hook w resume hs inside
    exact wiring_of_records_eq (records_resume c hs inside)

/-- No call changes the thresholds of the bus. -/
theorem shows_timing (c : Call) (n : Node M Memory cap) :
    (start c n).Shows (·.shared.bus.timing) n.shared.bus.timing := by
  apply Step.shows_of_reached
  · cases c with
    | tickInterrupt => exact congrArg GapDetector.timing n.reached_tickInterrupt.2.1
    | consoleInterrupt =>
        obtain ⟨guard, console, reboot, hbooked⟩ := n.exists_bookConsole
        show n.consoleInterrupt.reached.shared.bus.timing = _
        rw [reached_consoleInterrupt, hbooked]
    | _ => rfl
  · intro hook w resume hs inside
    exact congrArg (·.bus.timing) (records_resume c hs inside)

end Node

/-- A step that shows a value as it was keeps it. -/
theorem Step.Shows.keeps {Hook W V B : Type} {view : W → V} {v : V} {step : Step Hook W B}
    (h : step.Shows view v) : step.Keeps fun w => view w = v := by
  cases step with
  | finished a w => exact h
  | entering hook w resume => exact ⟨h.1, fun inside hinside => (h.2 inside).trans hinside⟩

namespace Gateway

variable {A : Type}

/-- In the given state, the call writes to the memory. A board that was taken is not brought up
again. -/
def Call.writes (g : Gateway A) : Call A → Bool
  | .takeBoard => !g.boardTaken
  | .startTick | .reset => true
  | .node c => c.writes
  | .register _ => false

theorem Call.writes_eq {g g' : Gateway A} (h : g'.boardTaken = g.boardTaken) (c : Call A) :
    c.writes g' = c.writes g := by
  cases c with
  | takeBoard => exact congrArg Bool.not h
  | register | startTick | reset | node => rfl

/-- The memory, and the detector of the bus. -/
def wiring (g : Gateway A) : Memory × GapDetector := g.node.wiring

/-! ## Surroundings that write nothing -/

theorem shows_wiring_forward {c : Node.Call} (hc : c.writes = false) (g : Gateway A) :
    (g.forward (Node.start c)).Shows wiring g.wiring :=
  ((Node.shows_wiring hc g.node).within nodePart g).route (hookFor g.application)

/-- A console interrupt writes nothing, unless its byte resets the system. -/
theorem shows_wiring_consoleInterrupt [SystemReset] (g : Gateway A)
    (hrunning : (start (.node .consoleInterrupt) g).reached.resetRequested = false) :
    (start (.node .consoleInterrupt) g).Shows wiring g.wiring := by
  by_cases hrequest : (g.node.shared.reboot.feed g.node.consoleByte).1 = true
  · rw [start_of_request hrequest] at hrunning
    cases hrunning
  · rcases start_of_no_request hrequest with h | ⟨a, h⟩
    · rw [h]
      rfl
    · rw [h]
      exact ⟨rfl, fun _ => rfl⟩

theorem shows_wiring [SystemReset] {c : Call A} {g : Gateway A} (hc : c.writes g = false)
    (hrunning : (start c g).reached.resetRequested = false) :
    (start c g).Shows wiring g.wiring := by
  cases c with
  | startTick | reset => cases hc
  | register => rfl
  | takeBoard =>
      have htaken : g.boardTaken = true := by simpa [Call.writes] using hc
      show g.takeBoard.2.wiring = g.wiring
      rw [takeBoard, if_pos htaken]
  | node c =>
      have hnode : c.writes = false := hc
      cases c with
      | busInterrupt | silenceInterrupt => cases hc
      | consoleInterrupt => exact shows_wiring_consoleInterrupt g hrunning
      | tickInterrupt => exact shows_wiring_forward hnode g.fetchApplication
      | _ => exact shows_wiring_forward hnode g

/-- What a call of the node shows, it shows when it is made on the gateway, unless a reset changes
it. -/
theorem shows_node [SystemReset] {V : Type} {view : Gateway A → V} {v : V} {c : Node.Call}
    {g : Gateway A}
    (hforward : (g.forward (Node.start c)).Shows view v)
    (hinterrupt : (g.fetchApplication.forward (Node.start c)).Shows view v)
    (hreset : ∀ w, view (reset w) = view w) : (start (.node c) g).Shows view v := by
  cases c with
  | consoleInterrupt =>
      apply hinterrupt.andThen
      intro outcome w
      split
      · exact hreset w
      · rfl
  | busInterrupt | silenceInterrupt | tickInterrupt => exact hinterrupt
  | _ => exact hforward

/-- A forwarded call changes nothing but the node. -/
theorem shows_boardTaken_forward (c : Node.Call) (g : Gateway A) :
    (g.forward (Node.start c)).Shows boardTaken g.boardTaken := by
  apply Step.Shows.route
  cases Node.start c g.node with
  | finished a n => rfl
  | entering hook n resume => exact ⟨rfl, fun _ => rfl⟩

theorem shows_boardTaken [SystemReset] {c : Call A} {g : Gateway A} (hc : c.writes g = false) :
    (start c g).Shows boardTaken g.boardTaken := by
  cases c with
  | startTick | reset => cases hc
  | register => rfl
  | takeBoard =>
      have htaken : g.boardTaken = true := by simpa [Call.writes] using hc
      show g.takeBoard.2.boardTaken = g.boardTaken
      rw [takeBoard, if_pos htaken]
  | node c =>
      exact shows_node (shows_boardTaken_forward c g)
        (shows_boardTaken_forward c g.fetchApplication) fun _ => rfl

/-- Surroundings that write nothing leave the memory and the detector alone, unless the system is
reset. -/
theorem wiring_run [SystemReset] {t : CallTree (interface A) (Memory → Memory) (Gateway A)}
    {g : Gateway A}
    (ht : t.Only (fun c : Call A => c.writes g = false) (· = id))
    (hend : (t.run (component A) g).resetRequested = false) :
    (t.run (component A) g).wiring = g.wiring := by
  -- whether a call writes depends on whether the board is taken, which does not change either
  suffices hkept : (t.run (component A) g).wiring = g.wiring ∧
      (t.run (component A) g).boardTaken = g.boardTaken from hkept.1
  refine ht.keeps_unless_halted (C := component A)
    (P := fun w => w.wiring = g.wiring ∧ w.boardTaken = g.boardTaken) ?_ ?_ ⟨rfl, rfl⟩ hend
  · rintro c w hc ⟨hwiring, htaken⟩ hrunning
    have hwrites : c.writes w = false := (Call.writes_eq htaken c).trans hc
    rw [← hwiring, ← htaken]
    exact (shows_wiring hwrites hrunning).keeps.and (shows_boardTaken hwrites).keeps
  · rintro e w rfl hw
    exact hw

/-! ## The thresholds -/

/-- The thresholds that the detector goes by. -/
def timing (g : Gateway A) : ChannelTiming := g.node.shared.bus.timing

theorem shows_timing_forward (c : Node.Call) (g : Gateway A) :
    (g.forward (Node.start c)).Shows timing g.timing :=
  ((Node.shows_timing c g.node).within nodePart g).route (hookFor g.application)

/-- No call changes the thresholds. -/
theorem shows_timing [SystemReset] (c : Call A) (g : Gateway A) :
    (start c g).Shows timing g.timing := by
  cases c with
  | register | startTick | reset => rfl
  | takeBoard =>
      show g.takeBoard.2.timing = g.timing
      rw [takeBoard]
      split <;> rfl
  | node c =>
      -- a reset does not touch the detector
      exact shows_node (shows_timing_forward c g) (shows_timing_forward c g.fetchApplication)
        fun _ => rfl

/-- A gateway keeps the thresholds of the bus with which it starts. -/
theorem timing_moments [SystemReset] (m : Memory)
    (t : CallTree (interface A) (Memory → Memory) (Gateway A)) :
    ∀ now ∈ t.moments (component A) (powerOn A m), now.world.timing = Settings.busTiming := by
  have hinvariant : Invariant (component A) fun _ w => w.timing = Settings.busTiming := by
    apply Invariant.of_reached
    · intro past k c w now hw _ _
      exact (shows_timing c w).reached.trans hw
    · intro past k c w hook w' resume inside hs hinside
      have hshows := shows_timing c w
      rw [show start c w = .entering hook w' resume from hs] at hshows
      exact ⟨hinside, (hshows.2 inside).trans hinside⟩
    · intro past e w hw
      exact hw
  intro now hnow
  obtain ⟨past, future, hsplit⟩ := List.append_of_mem hnow
  have hat := (hinvariant.of_tree t (w := powerOn A m) rfl).1 past now future hsplit
  cases now with
  | began | entered | left | returned | acted => exact hat

/-! ## One byte -/

/-- The byte that waits on the bus. -/
def busByte (g : Gateway A) : UInt8 := Uart.bus.readByte g.node.devices

/-- The status of the byte that waits on the bus. -/
def busStatus (g : Gateway A) : RxStatus :=
  .encode (g.node.shared.bus.startsFrame (SilenceTimer.isRunning g.node.devices)
    (SilenceTimer.count g.node.devices)) (Uart.bus.errors g.node.devices)

/-- The gateway after the byte: the timer is restarted, and the byte is counted. -/
def withBusByte (g : Gateway A) : Gateway A :=
  { g.fetchApplication with
    node := {
      guard := g.fetchApplication.node.guard.disable.restore
      shared := { g.node.shared with
        bus := { g.node.shared.bus with
          stats := g.node.shared.bus.stats.count (Uart.bus.errors g.node.devices) } }
      devices := SilenceTimer.restart g.node.devices } }

/-- The application is entered when everything is booked, and nothing is left to do afterwards. -/
theorem start_busInterrupt [SystemReset] (g : Gateway A) :
    start (.node .busInterrupt) g =
      g.application.elim (.finished g.busStatus g.withBusByte) fun a =>
        .entering (.callback a (.busByte g.busByte g.busStatus)) g.withBusByte fun inside =>
          (g.busStatus, inside) := by
  show ((Step.entering _ _ _).route (hookFor g.application)) = _
  cases g.application with
  | none => rfl
  | some a => rfl

/-- What a status tells about the registers of the board: bits 0, 1 and 3 of the status register of
the bus unit, and whether the silence timer stands still or has counted more ticks than the
inter-frame threshold of the bus. All 32 bits of the count matter. -/
structure Tells (status : RxStatus) (m : Memory) : Prop where
  newFrame : status.bits.toNat.testBit 0 = true ↔
    m.bit SilenceTimer.controlReg 0 = false ∨
      Settings.busTiming.interFrame.toNat < (m.read SilenceTimer.countReg).toNat
  parity : status.bits.toNat.testBit 5 = m.bit Uart.bus.statusReg 0
  framing : status.bits.toNat.testBit 7 = m.bit Uart.bus.statusReg 1
  overrun : status.bits.toNat.testBit 6 = m.bit Uart.bus.statusReg 3
  error : status.bits.toNat.testBit 1 = true ↔ m.bit Uart.bus.statusReg 0 = true ∨
    m.bit Uart.bus.statusReg 1 = true ∨ m.bit Uart.bus.statusReg 3 = true
  others : ∀ i, i ∉ [0, 1, 5, 6, 7] → status.bits.toNat.testBit i = false

/-- From `g` to `v`, a byte with the given status was booked, and nothing else has happened to the
memory: the silence timer is restarted, and one of the two counts has gone up by one, or has stayed
at its top. -/
structure Booked (status : RxStatus) (g v : Gateway A) : Prop where
  count : v.node.devices.read SilenceTimer.countReg = 0
  flags : v.node.devices.read SilenceTimer.statusReg = 0xFFFFFFFD
  control : v.node.devices.read SilenceTimer.controlReg =
    g.node.devices.read SilenceTimer.controlReg ||| 1
  words : ∀ a,
    a ∉ [SilenceTimer.countReg, SilenceTimer.statusReg, SilenceTimer.controlReg] →
    v.node.devices.read a = g.node.devices.read a
  damaged : status.bits.toNat.testBit 1 = true →
    v.node.shared.bus.stats.errors.toNat = min 65535 (g.node.shared.bus.stats.errors.toNat + 1) ∧
      v.node.shared.bus.stats.received = g.node.shared.bus.stats.received
  clean : status.bits.toNat.testBit 1 = false →
    v.node.shared.bus.stats.received.toNat =
        min 65535 (g.node.shared.bus.stats.received.toNat + 1) ∧
      v.node.shared.bus.stats.errors = g.node.shared.bus.stats.errors

theorem tells_busStatus {g : Gateway A} (htiming : g.node.shared.bus.timing = Settings.busTiming) :
    Tells g.busStatus g.node.devices := by
  obtain ⟨hnew, herror, hparity, hoverrun, hframing, hothers⟩ :=
    RxStatus.bits_encode (g.node.shared.bus.startsFrame (SilenceTimer.isRunning g.node.devices)
      (SilenceTimer.count g.node.devices)) (Uart.bus.errors g.node.devices)
  constructor
  case newFrame =>
    -- the count is cut above the threshold, so that what is cut off makes no difference
    have hthreshold : Settings.busTiming.interFrame.toNat = 1822 := rfl
    rw [busStatus, hnew, GapDetector.startsFrame, htiming, SilenceTimer.isRunning_eq,
      Bool.or_eq_true, Bool.not_eq_true', decide_eq_true_eq, UInt16.lt_iff_toNat_lt,
      SilenceTimer.count, SilenceTimer.toNat_clampCount]
    apply or_congr_right
    omega
  case parity => exact hparity.trans (Uart.bus.parity_errors _)
  case framing => exact hframing.trans (Uart.bus.framing_errors _)
  case overrun => exact hoverrun.trans (Uart.bus.overrun_errors _)
  case error =>
    rw [busStatus, herror, LineErrors.any, Uart.parity_errors, Uart.framing_errors,
      Uart.overrun_errors]
    simp only [Bool.or_eq_true]
    tauto
  case others => exact hothers

theorem booked_of_wiring {g v : Gateway A} (h : v.wiring = g.withBusByte.wiring) :
    Booked g.busStatus g v := by
  have hmemory : v.node.devices = SilenceTimer.restart g.node.devices := congrArg Prod.fst h
  have hstats : v.node.shared.bus.stats =
      g.node.shared.bus.stats.count (Uart.bus.errors g.node.devices) :=
    congrArg (fun w => w.2.stats) h
  have herror : g.busStatus.bits.toNat.testBit 1 = (Uart.bus.errors g.node.devices).any :=
    (RxStatus.bits_encode ..).error
  constructor
  case count => rw [hmemory, SilenceTimer.restart_count]
  case flags =>
    rw [hmemory, SilenceTimer.restart_status]
    rfl
  case control =>
    rw [hmemory, SilenceTimer.restart_control]
    rfl
  case words =>
    intro a ha
    rw [hmemory, SilenceTimer.restart_words _ ha]
  case damaged =>
    intro hdamaged
    rw [herror] at hdamaged
    rw [hstats, ChannelStats.count, if_pos hdamaged]
    exact ⟨Counter.toNat_bump16 _, rfl⟩
  case clean =>
    intro hclean
    rw [herror] at hclean
    rw [hstats, ChannelStats.count, if_neg (Bool.eq_false_iff.1 hclean)]
    exact ⟨Counter.toNat_bump16 _, rfl⟩

/-! ## Every state -/

section

variable {g : Gateway A} (hook : Hook A → CallTree (interface A) (Memory → Memory) (Gateway A))

/-- A bus interrupt, with what is done in its hook. -/
def busInterruptTree : CallTree (interface A) (Memory → Memory) (Gateway A) :=
  .call (.node .busInterrupt) hook fun _ => .done

variable [SystemReset]

theorem began_busInterrupt (hrunning : g.resetRequested = false) :
    ∃ future, (busInterruptTree hook).moments (component A) g =
      [] ++ .began 1 (.node .busInterrupt) g :: future := by
  rw [busInterruptTree, CallTree.moments, CallTree.momentsFrom,
    show (component A).halted g = false from hrunning]
  exact ⟨_, rfl⟩

/-- The callback is told the byte and its status, if there is an application. -/
theorem hooksOf_busInterrupt (hrunning : g.resetRequested = false) :
    hooksOf 1 ((busInterruptTree hook).moments (component A) g) =
      (g.application.map fun a => Hook.callback a (.busByte g.busByte g.busStatus)).toList := by
  obtain ⟨future, hsplit⟩ := began_busInterrupt hook hrunning
  rw [(runs_moments ..).hooksOf_eq hsplit, show (component A).start (.node .busInterrupt) g = _ from
    g.start_busInterrupt]
  cases g.application with
  | none => rfl
  | some a => rfl

variable {hook}

/-- When a hook of the interrupt is entered, the byte is booked. -/
theorem entered_busInterrupt (hrunning : g.resetRequested = false) {h : Hook A} {u : Gateway A}
    (hu : .entered 1 h u ∈ (busInterruptTree hook).moments (component A) g) :
    u = g.withBusByte := by
  obtain ⟨past, future, hsplit⟩ := List.append_of_mem hu
  obtain ⟨earlier, c, begun, resume, hpast, hs⟩ := (runs_moments ..).entered_after_began hsplit
  obtain ⟨rest, hfirst⟩ := began_busInterrupt hook hrunning
  have hbegan : .began 1 (.node .busInterrupt) g ∈
      (busInterruptTree hook).moments (component A) g := by
    rw [hfirst]
    simp
  have hbegun : .began 1 c begun ∈ (busInterruptTree hook).moments (component A) g := by
    rw [hsplit, hpast]
    simp
  -- a call begins once, so the one that has entered the hook is the interrupt
  obtain ⟨rfl, rfl⟩ := (numbered_moments ..).began_eq hbegan hbegun
  have hstart := begun.start_busInterrupt.symm.trans hs
  cases happlication : begun.application with
  | none =>
      rw [happlication] at hstart
      cases hstart
  | some a =>
      rw [happlication] at hstart
      cases hstart
      rfl

/-- The call answers with the status, and the last thing it does is to leave its hook. -/
theorem returned_busInterrupt (hrunning : g.resetRequested = false)
    (hhook : ∀ h, (hook h).Only (fun c : Call A => c.writes g = false) (· = id))
    (hend : ((busInterruptTree hook).run (component A) g).resetRequested = false) :
    .returned 1 (.node .busInterrupt) g.busStatus ((busInterruptTree hook).run (component A) g) ∈
        (busInterruptTree hook).moments (component A) g ∧
      ((busInterruptTree hook).run (component A) g).wiring = g.withBusByte.wiring := by
  have hstart : (component A).start (.node .busInterrupt) g = _ := g.start_busInterrupt
  have hhalted : (component A).halted g = false := hrunning
  cases happlication : g.application with
  | none =>
      rw [happlication] at hstart
      simp only [busInterruptTree, CallTree.moments, CallTree.momentsFrom, CallTree.run, hhalted,
        hstart, Option.elim]
      simp
  | some a =>
      rw [happlication] at hstart
      simp only [busInterruptTree, CallTree.moments, CallTree.momentsFrom, CallTree.run, hhalted,
        hstart, Option.elim, Bool.false_eq_true, if_false, ite_self] at hend ⊢
      -- after the hook there is nothing left to do, so its world is the last one
      have hnothing : (hook (.callback a (.busByte g.busByte g.busStatus))).Only
          (fun c : Call A => c.writes g.withBusByte = false) (· = id) := hhook _
      rw [show (component A).halted _ = false from hend]
      exact ⟨by simp, wiring_run hnothing hend⟩

end

/-- Every gateway that has been started keeps the thresholds of the bus. In every state with these
thresholds in which the system runs, whatever the memory holds, a bus interrupt hands the low byte
of the data register to the application, with a status that tells about the registers before the
call, and answers with the same status. The byte is booked when the callback begins, and
surroundings that write nothing leave it at that until the call returns. -/
theorem bus_reception [SystemReset] (A : Type) :
    (∀ (m : Memory) (t : CallTree (interface A) (Memory → Memory) (Gateway A)),
      ∀ now ∈ t.moments (component A) (powerOn A m),
        now.world.node.shared.bus.timing = Settings.busTiming) ∧
      ∀ g : Gateway A, g.resetRequested = false → g.node.shared.bus.timing = Settings.busTiming →
        ∀ hook : Hook A → CallTree (interface A) (Memory → Memory) (Gateway A),
          (∀ h, (hook h).Only (fun c : Call A => c.writes g = false) (· = id)) →
          let history : History (interface A) (Memory → Memory) (Gateway A) :=
            (busInterruptTree hook).moments (component A) g
          let v := (busInterruptTree hook).run (component A) g
          ∃ (byte : UInt8) (status : RxStatus),
            byte.toNat = (g.node.devices.read Uart.bus.dataReg).toNat % 256 ∧
            Tells status g.node.devices ∧
            history.hooksOf 1 =
              (g.application.map fun a => .callback a (.busByte byte status)).toList ∧
            (∀ h u, .entered 1 h u ∈ history → Booked status g u) ∧
            (v.resetRequested = false →
              .returned 1 (.node .busInterrupt) status v ∈ history ∧ Booked status g v) := by
  refine ⟨timing_moments, ?_⟩
  intro g hrunning htiming hook hhook history v
  refine ⟨g.busByte, g.busStatus, Uart.bus.toNat_readByte _, tells_busStatus htiming,
    hooksOf_busInterrupt hook hrunning, fun h u hu => ?_, fun hend => ?_⟩
  · exact booked_of_wiring (congrArg wiring (entered_busInterrupt hrunning hu))
  · obtain ⟨hreturned, hwiring⟩ := returned_busInterrupt hrunning hhook hend
    exact ⟨hreturned, booked_of_wiring hwiring⟩

/-- A byte with a parity error comes 65536 + 5 ticks after the byte before, which 16 bits would tell
as 5, while the callback reads the console. -/
theorem bus_reception_parity_error :
    let g : Gateway Unit := { powerOn Unit ⟨[(SilenceTimer.controlReg, 0x81),
      (SilenceTimer.countReg, 65541), (Uart.bus.statusReg, 0x21), (Uart.bus.dataReg, 0x1234)]⟩ with
        application := some () }
    let hook : Hook Unit → CallTree (interface Unit) (Memory → Memory) (Gateway Unit) :=
      fun _ => .call (.node .consoleInterrupt) (fun _ => .done) fun _ =>
        .call (.node .read) (fun _ => .done) fun _ => .done
    let history : History (interface Unit) (Memory → Memory) (Gateway Unit) :=
      (busInterruptTree hook).moments (component Unit) g
    let v := (busInterruptTree hook).run (component Unit) g
    g.resetRequested = false ∧ g.node.shared.bus.timing = Settings.busTiming ∧
      (∀ h, (hook h).Only (fun c : Call Unit => c.writes g = false) (· = id)) ∧
      ∃ byte status, history.hooksOf 1 = [.callback () (.busByte byte status)] ∧
        byte.toNat = 0x34 ∧ Tells status g.node.devices ∧ status.bits.toNat.testBit 0 = true ∧
        Booked status g v ∧ v.node.shared.bus.stats.errors.toNat = 1 := by
  intro g hook history v
  have hhook : ∀ h, (hook h).Only (fun c : Call Unit => c.writes g = false) (· = id) := by
    simp [hook, CallTree.Only, Call.writes, Node.Call.writes]
  obtain ⟨byte, status, hbyte, htells, hhooks, -, hreturns⟩ :=
    (bus_reception Unit).2 g rfl rfl hook hhook
  obtain ⟨-, hbooked⟩ := hreturns (by decide +kernel)
  refine ⟨rfl, rfl, hhook, byte, status, hhooks, hbyte.trans (by decide), htells,
    htells.newFrame.2 (by decide), hbooked, ?_⟩
  exact (hbooked.damaged (htells.error.2 (by decide))).1

end Gateway

end SerialGateway
