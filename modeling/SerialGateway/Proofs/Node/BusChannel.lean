import SerialGateway.Bench.Control
import SerialGateway.Proofs.Bus.Traffic
import SerialGateway.Proofs.Node.Calls
import SerialGateway.Proofs.Reentrant.Hooks
import SerialGateway.Proofs.Reentrant.Invariant

/-!
# The bus channel over whole runs

A node on the bench, from its start: bytes with any line errors, silences and passages of time, in
any order, with any other calls between them and inside the callbacks. The callbacks of the bus are
entered once for each call, in order, and each byte arrives with the status that the traffic so far
asks for (`bus_channel`). `Tracked` is the invariant. Whatever the events of the bus keep, runs keep
(`invariant_of_keeps`).
-/

set_option autoImplicit false

namespace SerialGateway

open Bench History

/-! ## The bench -/

/-- What happens to the devices of the bench by themselves. -/
inductive Bench.Doing where
  | consoleByte (value : UInt8) (errors : LineErrors)
  | busByte (value : UInt8) (errors : LineErrors)
  | elapse (ticks : UInt16)

def Bench.Doing.apply : Doing → Devices → Devices
  | consoleByte value errors => Devices.consolePart.modify (ByteQueue.latch value errors)
  | busByte value errors => Devices.busPart.modify (ByteQueue.latch value errors)
  | elapse ticks => Devices.timerPart.modify (Timer.elapse ticks)

/-- What a doing is for the bus. A byte is nothing to the bus before the node takes it. -/
def Bench.Doing.busEvent? : Doing → Option BusEvent
  | elapse ticks => some (.ticks ticks)
  | consoleByte _ _ | busByte _ _ => none

/-- The next byte of the bus with its errors; a receiver that has none hands over an undamaged zero
byte. -/
def Bench.Devices.waiting (d : Devices) : UInt8 × LineErrors := d.bus.head?.getD (0, .clean)

namespace Bench.Devices

theorem errors_bus (d : Devices) : Peripherals.bus.errors d = d.waiting.2 := by
  show (d.bus.head?.map Prod.snd).getD .clean = (d.bus.head?.getD (0, .clean)).2
  cases d.bus.head? <;> rfl

theorem take_bus (d : Devices) : (Peripherals.bus.take d).1 = d.waiting.1 := by
  show (ByteQueue.take d.bus).1 = (d.bus.head?.getD (0, .clean)).1
  cases d.bus <;> rfl

theorem timer_drop_console (n : Nat) (d : Devices) :
    (Peripherals.console.drop n d).timer = d.timer := by
  induction n generalizing d with
  | zero => rfl
  | succ n ih =>
      rw [Receiver.drop]
      split
      · rw [ih]
        rfl
      · rfl

end Bench.Devices

namespace Node

variable {M : Type} {cap : Nat}

/-! ## The traffic of a run -/

/-- What a call is for the bus. -/
def busCall? : Call → Node M Devices cap → Option BusEvent
  | .busInterrupt, n => some (.byte n.devices.waiting.1 n.devices.waiting.2)
  | .silenceInterrupt, _ => some .silence
  | _, _ => none

theorem busCall?_eq_none {c : Call} (hbyte : c ≠ .busInterrupt) (hsilence : c ≠ .silenceInterrupt)
    (n : Node M Devices cap) : busCall? c n = none := by
  cases c with
  | busInterrupt => exact absurd rfl hbyte
  | silenceInterrupt => exact absurd rfl hsilence
  | _ => rfl

/-- What a hook is told about the bus. The status of a byte tells its errors. -/
def busHook? : Hook → Option BusEvent
  | .callback (.busByte value status) => some (.byte value status.lineErrors)
  | .callback .busSilence => some .silence
  | _ => none

/-- What a moment of a run is for the bus. -/
@[simp] def busEvent? : Moment interface Doing (Node M Devices cap) → Option BusEvent
  | .began _ c n => busCall? c n
  | .acted e _ => e.busEvent?
  | .entered _ _ _ | .left _ _ _ | .returned _ _ _ _ => none

/-- The traffic of a run. -/
def busEvents (history : History interface Doing (Node M Devices cap)) : List BusEvent :=
  history.filterMap busEvent?

@[simp] theorem busEvents_nil :
    busEvents ([] : History interface Doing (Node M Devices cap)) = [] := rfl

@[simp] theorem busEvents_cons (m : Moment interface Doing (Node M Devices cap))
    (rest : History interface Doing (Node M Devices cap)) :
    busEvents (m :: rest) = (busEvent? m).toList ++ busEvents rest :=
  filterMap_cons_toList ..

@[simp] theorem busEvents_append (a b : History interface Doing (Node M Devices cap)) :
    busEvents (a ++ b) = busEvents a ++ busEvents b :=
  List.filterMap_append

/-- A node has kept track of its bus. -/
def Tracked (timing : ChannelTiming) (past : History interface Doing (Node M Devices cap))
    (n : Node M Devices cap) : Prop :=
  Tracks timing (busEvents past) n.shared.bus n.devices.timer

variable [InterruptControl M]

/-- A node on the bench. -/
def onBench (M : Type) (cap : Nat) [InterruptControl M] :
    Component interface (Node M Devices cap) Doing where
  start := start
  act e := devicesPart.modify e.apply

/-! ## One call -/

/-- The status of the byte that waits on the bus. -/
def busStatus (n : Node M Devices cap) : RxStatus :=
  .encode (n.shared.bus.startsFrame n.devices.timer.running n.devices.timer.count)
    n.devices.waiting.2

theorem start_busInterrupt (n : Node M Devices cap) :
    ∃ n' : Node M Devices cap,
      start .busInterrupt n = .entering (.callback (.busByte n.devices.waiting.1 n.busStatus)) n'
          (fun n'' => (n.busStatus, n'')) ∧
        n'.shared.bus =
          { n.shared.bus with stats := n.shared.bus.stats.count n.devices.waiting.2 } ∧
        n'.devices.timer.running = true ∧ n'.devices.timer.count = 0 := by
  rw [busStatus, ← n.devices.errors_bus, ← n.devices.take_bus]
  exact ⟨_, rfl, rfl, rfl, rfl⟩

theorem start_silenceInterrupt (n : Node M Devices cap) :
    ∃ n' : Node M Devices cap,
      start .silenceInterrupt n = .entering (.callback .busSilence) n' (fun n'' => ((), n'')) ∧
        n'.shared.bus = n.shared.bus ∧ n'.devices.timer.running = false :=
  ⟨_, rfl, rfl, rfl⟩

theorem timer_bookConsole (n : Node M Devices cap) :
    n.bookConsole.2.shared.bus = n.shared.bus ∧
      n.bookConsole.2.devices.timer = n.devices.timer := by
  obtain ⟨guard, console, reboot, hbooked⟩ := n.exists_bookConsole
  rw [hbooked]
  exact ⟨rfl, rfl⟩

/-- The other calls leave the detector alone, and of the timer they change at most the compare
value. -/
theorem timer_reached {c : Call} (hbyte : c ≠ .busInterrupt) (hsilence : c ≠ .silenceInterrupt)
    (n : Node M Devices cap) :
    (start c n).reached.shared.bus = n.shared.bus ∧
      ((start c n).reached.devices.timer = n.devices.timer ∨
        (start c n).reached.devices.timer =
          { n.devices.timer with compare := n.shared.bus.timing.interFrame }) := by
  cases c with
  | busInterrupt => exact absurd rfl hbyte
  | silenceInterrupt => exact absurd rfl hsilence
  | tickInterrupt =>
      obtain ⟨-, hbus, hdevices⟩ := n.reached_tickInterrupt
      exact ⟨hbus, .inl (congrArg Devices.timer hdevices)⟩
  | consoleInterrupt =>
      obtain ⟨hbus, htimer⟩ := n.timer_bookConsole
      rw [← reached_consoleInterrupt] at hbus htimer
      exact ⟨hbus, .inl htimer⟩
  | armGapTimer => exact ⟨rfl, .inr rfl⟩
  | flush =>
      have htimer : (n.shared.console.flush Peripherals.console n.devices).2.timer =
          n.devices.timer := by
        rw [Ring.flush_snd]
        exact Devices.timer_drop_console ..
      exact ⟨rfl, .inl htimer⟩
  | _ => exact ⟨rfl, .inl rfl⟩

theorem bus_reached {c : Call} (hbyte : c ≠ .busInterrupt) (hsilence : c ≠ .silenceInterrupt)
    (n : Node M Devices cap) :
    (start c n).reached.shared.bus = n.shared.bus ∧
      (start c n).reached.devices.timer.running = n.devices.timer.running ∧
      (start c n).reached.devices.timer.count = n.devices.timer.count := by
  obtain ⟨hbus, htimer | htimer⟩ := timer_reached hbyte hsilence n
  · rw [htimer]
    exact ⟨hbus, rfl, rfl⟩
  · rw [htimer]
    exact ⟨hbus, rfl, rfl⟩

/-! ## Every run -/

/-- What every event of the bus keeps, no call and no doing breaks. -/
theorem invariant_of_keeps {P : List BusEvent → GapDetector → Timer → Prop} (hP : Keeps P) :
    Invariant (onBench M cap) fun past n =>
      P (busEvents past) n.shared.bus n.devices.timer := by
  apply Invariant.of_reached
  · intro past k c n m h hbegins hnumber
    have hevents : busEvents (past ++ [.began k c n, m]) =
        busEvents past ++ (busCall? c n).toList := by
      cases m with
      | began => cases hbegins
      | acted => cases hnumber
      | entered | left | returned => simp
    rw [hevents]
    by_cases hbyte : c = .busInterrupt
    · subst hbyte
      obtain ⟨n', hs, hbus, hrunning, hcount⟩ := start_busInterrupt n
      rw [show (onBench M cap).start .busInterrupt n = _ from hs, Step.reached, hbus]
      exact hP.byte _ _ h hrunning hcount
    · by_cases hsilence : c = .silenceInterrupt
      · subst hsilence
        obtain ⟨n', hs, hbus, hrunning⟩ := start_silenceInterrupt n
        rw [show (onBench M cap).start .silenceInterrupt n = _ from hs, Step.reached, hbus]
        exact hP.silence h hrunning
      · obtain ⟨hbus, hrunning, hcount⟩ := bus_reached hbyte hsilence n
        have hkept : P (busEvents past) (start c n).reached.shared.bus
            (start c n).reached.devices.timer := by
          rw [hbus]
          exact hP.congr h hrunning hcount
        rwa [busCall?_eq_none hbyte hsilence n, Option.toList_none, List.append_nil]
  · intro past k c n hook n' resume inside hs hin
    have hrecords := records_resume c hs inside
    have hbus : (resume inside).2.shared.bus = inside.shared.bus :=
      congrArg Records.bus hrecords
    have hrunning : (resume inside).2.devices.timer.running = inside.devices.timer.running :=
      congrArg (·.devices.timer.running) hrecords
    have hcount : (resume inside).2.devices.timer.count = inside.devices.timer.count :=
      congrArg (·.devices.timer.count) hrecords
    constructor
    · simpa using hin
    · rw [hbus]
      simpa using hP.congr hin hrunning hcount
  · intro past e n h
    have hevents : busEvents (past ++ [.acted e ((onBench M cap).act e n)]) =
        busEvents past ++ e.busEvent?.toList := by simp
    rw [hevents]
    cases e with
    | consoleByte | busByte =>
        rw [Doing.busEvent?, Option.toList_none, List.append_nil]
        exact h
    | elapse ticks => exact hP.elapse ticks h

/-- No call and no doing loses track. -/
theorem invariant_tracked (timing : ChannelTiming) :
    Invariant (onBench M cap) (Tracked timing) :=
  invariant_of_keeps (Tracks.keeps timing)

/-- A call that enters no hook is nothing for the bus. -/
theorem busCall?_of_finished {c : Call} {n n' : Node M Devices cap} {a : Answer c}
    (hs : start c n = .finished a n') : busCall? c n = none := by
  cases c with
  | busInterrupt | silenceInterrupt => cases hs
  | _ => rfl

/-- A hook is told what its call is for the bus. -/
theorem busHook?_of_entering {c : Call} {n n' : Node M Devices cap} {hook : Hook}
    {resume : Node M Devices cap → Answer c × Node M Devices cap}
    (hs : start c n = .entering hook n' resume) : busHook? hook = busCall? c n := by
  cases enters_of_start hs with
  | busByte =>
      obtain ⟨n'', hs', -⟩ := start_busInterrupt n
      cases hs.symm.trans hs'
      show some (BusEvent.byte _ n.busStatus.lineErrors) = some (.byte _ n.devices.waiting.2)
      rw [busStatus, RxStatus.lineErrors_encode]
  | consoleByte | busSilence | task | masked => rfl

/-- The callback of a bus byte: what it is told, and what it finds. -/
structure Delivery (timing : ChannelTiming)
    (past : History interface Doing (Node M Devices cap)) (k : Nat) (byte : UInt8)
    (status : RxStatus) (n : Node M Devices cap) : Prop where
  told : ∃ earlier begun, past = earlier ++ [.began k .busInterrupt begun] ∧
    byte = begun.devices.waiting.1 ∧
      ByteLaw timing (busEvents earlier) begun.devices.waiting.2 status
  running : n.devices.timer.running = true
  count : n.devices.timer.count = 0
  counts : CountLaw (busEvents past) n.shared.bus.stats

/-- The bus of a node over a whole run on the bench, from a stopped timer: the callback of each
byte; once for each call, in order, with the byte and the errors that the call took, or for a
silence; the answer of each call, which is the status its callback was told; and the counts at every
moment. -/
theorem bus_channel (timing : ChannelTiming) (controller : M) (hcap : 0 < cap) (devices : Devices)
    (hstopped : devices.timer.running = false)
    (t : CallTree interface Doing (Node M Devices cap)) :
    let C := onBench M cap
    let history : History interface Doing (Node M Devices cap) :=
      t.moments C (Node.new controller timing devices cap hcap)
    (∀ past k byte status n future,
        history = past ++ .entered k (.callback (.busByte byte status)) n :: future →
        Delivery timing past k byte status n) ∧
      history.filterMap (Moment.hooking? fun k hook _ => (busHook? hook).map (k, ·)) =
        history.filterMap (Moment.calling? fun k c n => (busCall? c n).map (k, ·)) ∧
      (∀ k status, (k, ⟨.busInterrupt, status⟩) ∈ history.outcomes ↔
        ∃ byte n, .entered k (.callback (.busByte byte status)) n ∈ history) ∧
      ∀ past now future, history = past ++ now :: future →
        now.At (fun past n => CountLaw (busEvents past) n.shared.bus.stats) past := by
  intro C history
  have hrun := runs_moments C t (Node.new controller timing devices cap hcap)
  obtain ⟨htracked, -⟩ := (invariant_tracked timing).of_tree t
    (show Tracked timing [] (Node.new controller timing devices cap hcap) from
      Tracks.start timing hstopped)
  refine ⟨?_, ?_, ?_, ?_⟩
  · intro past k byte status n future hsplit
    -- the call that entered the callback is the moment before it
    obtain ⟨earlier, c, begun, resume, hpast, hs⟩ := hrun.entered_after_began hsplit
    cases enters_of_start hs with
    | busByte =>
        obtain ⟨n', hs', -, hrunning, hcount⟩ := start_busInterrupt begun
        cases hs.symm.trans hs'
        -- the status is made from the node as the call found it
        have hbegan : Tracked timing earlier begun :=
          htracked earlier (.began k .busInterrupt begun) _
            (hsplit.trans (by rw [hpast, List.append_assoc]; rfl))
        have hentered := (htracked past _ future hsplit).counts
        refine ⟨⟨earlier, begun, hpast, rfl, hbegan.byteLaw _⟩, hrunning, hcount, ?_⟩
        simpa using hentered
  · refine hrun.filterMap_hooking? (fun hs => ?_) (fun hs => ?_)
    · rw [busCall?_of_finished hs]
      rfl
    · rw [busHook?_of_entering hs]
  · intro k status
    refine ⟨fun hout => ?_, ?_⟩
    · cases hrun.answered hout with
      | finished _ hs => cases hs
      | @resumed begun n hook resume inside _ hentered hs =>
          obtain ⟨n', hs', -⟩ := start_busInterrupt begun
          cases hs.symm.trans hs'
          exact ⟨_, _, hentered⟩
    · rintro ⟨byte, n, hentered⟩
      obtain ⟨c, begun, resume, inside, -, hs, hout⟩ := hrun.resumed (fun _ => rfl) hentered
      cases enters_of_start hs with
      | busByte =>
          obtain ⟨n', hs', -⟩ := start_busInterrupt begun
          cases hs.symm.trans hs'
          exact hout
  · intro past now future hsplit
    have hnow := htracked past now future hsplit
    cases now with
    | began | entered | left | returned | acted => exact hnow.counts

/-- A byte with a parity error and the silence after it. -/
theorem bus_channel_byte_silence :
    let t : CallTree interface Doing (Node Control Devices 4) :=
      .act (.busByte 7 { parity := true }) fun _ =>
        .call .busInterrupt (fun _ => .done) fun _ =>
          .call .silenceInterrupt (fun _ => .done) fun _ => .done
    let history : History interface Doing (Node Control Devices 4) :=
      t.moments (onBench Control 4)
        (Node.new { enabled := true } Settings.busTiming {} 4 (by decide))
    ({} : Devices).timer.running = false ∧
      history.filterMap (Moment.hooking? fun k hook _ => (busHook? hook).map (k, ·)) =
        [(1, .byte 7 { parity := true }), (2, .silence)] := by
  intro t history
  have hchannel := bus_channel Settings.busTiming { enabled := true } (by decide) {} rfl t
  exact ⟨rfl, hchannel.2.1.trans rfl⟩

end Node

end SerialGateway
