import SerialGateway.Board.SilenceTimer
import SerialGateway.Proofs.Bus.Silence
import SerialGateway.Proofs.Node.BusChannel
import SerialGateway.Proofs.Node.ConsoleBooks

/-!
# Long silences

After a byte of the bus nothing but time passes, and then there is another byte. The second one opens
a frame exactly when more ticks have passed than the inter-frame threshold tells, for every threshold
but the largest one (`long_silence_opens_frame`). The threshold 65535 can be configured and derived
from rates, but a timer of 16 bits tells no silence that is longer: under it a node that has not
served the timeout joins every two bytes into one frame (`silence_never_exceeds_largest_threshold`).
-/

set_option autoImplicit false

namespace SerialGateway.Node

open Bench History BusEvent

variable {M : Type} {cap : Nat} [InterruptControl M]

/-- The answer to a byte is the status that its callback is told. -/
theorem reply_busInterrupt (n : Node M Devices cap) : n.reply .busInterrupt = n.busStatus := by
  obtain ⟨n', hs, -⟩ := start_busInterrupt n
  rw [reply, hs]
  rfl

/-- When a byte opens a frame after a silence: for a detector on any timer that tells silences as 16
bits do; for the timer of the board, which tells them so; and for two bytes of any run on the bench
between which nothing but time passes for the bus, whatever else is called. -/
theorem long_silence_opens_frame (timing : ChannelTiming) (controller : M) (hcap : 0 < cap)
    (devices : Devices) (t : CallTree interface Doing (Node M Devices cap)) :
    let history : History interface Doing (Node M Devices cap) :=
      t.moments (onBench M cap) (Node.new controller timing devices cap hcap)
    (∀ (D : Type) (timer : GapTimer D) (silence : Nat) (d : D) (stats : ChannelStats)
        (errors : LineErrors), timer.Tells silence d →
        (((GapDetector.mk timing stats).onByte timer errors d).1.isNewFrame = true ↔
          timing.interFrame.toNat < silence ∧ timing.interFrame ≠ 65535)) ∧
      (∀ m : Memory, SilenceTimer.isRunning m = true →
        SilenceTimer.gapTimer.Tells (m.read SilenceTimer.countReg).toNat m) ∧
      ∀ past j first since k n future,
        history = past ++ .began j .busInterrupt first :: since ++
          .began k .busInterrupt n :: future →
        OnlyTime (busEvents since) →
        ∃ status, (∀ a, (k, ⟨.busInterrupt, a⟩) ∈ history.outcomes ↔ a = status) ∧
          (status.isNewFrame = true ↔
            timing.interFrame.toNat < ticksOf (busEvents since) ∧
              timing.interFrame ≠ 65535) := by
  intro history
  refine ⟨?_, ?_, ?_⟩
  · intro D timer silence d stats errors htells
    rw [GapDetector.isNewFrame_onByte, GapDetector.startsFrame_iff_of_tells _ htells]
  · intro m hrunning
    exact SilenceTimer.tells_count hrunning
  · intro past j first since k n future hsplit hsince
    -- the second byte finds the timer as the invariant says
    obtain ⟨hkept, -⟩ := (invariant_of_keeps (Heard.keeps timing)).of_tree t
      (w := Node.new controller timing devices cap hcap) ⟨rfl, Heard.nil devices.timer⟩
    obtain ⟨htiming, hheard⟩ := hkept _ _ _ hsplit
    have hevents : busEvents (past ++ .began j .busInterrupt first :: since) =
        busEvents past ++ .byte first.devices.waiting.1 first.devices.waiting.2 ::
          busEvents since := by
      simp [busCall?]
    have htells := hheard _ _ _ _ hevents hsince
    refine ⟨n.busStatus, fun a => ?_, ?_⟩
    · rw [← reply_busInterrupt, eq_comm]
      exact mem_outcomes_iff_reply hsplit
    · rw [busStatus, RxStatus.isNewFrame_encode, ← htiming]
      exact GapDetector.startsFrame_iff_of_tells _ htells

/-- Under the largest threshold but one, 65535 ticks after a byte the next byte opens a frame. -/
theorem long_silence_opens_frame_next_to_largest :
    let timing : ChannelTiming := ⟨28086, 65534, by decide⟩
    let t : CallTree interface Doing (Node Control Devices 4) :=
      .call .busInterrupt (fun _ => .done) fun _ => .act (.elapse 65535) fun _ =>
        .call .busInterrupt (fun _ => .done) fun _ => .done
    let history : History interface Doing (Node Control Devices 4) :=
      t.moments (onBench Control 4) (Node.new { enabled := true } timing {} 4 (by decide))
    0 < 4 ∧ ∃ status : RxStatus, (2, ⟨.busInterrupt, status⟩) ∈ history.outcomes ∧
      status.isNewFrame = true := by
  intro timing t history
  obtain ⟨-, -, hbytes⟩ := long_silence_opens_frame timing { enabled := true } (by decide) {} t
  obtain ⟨first, since, n, future, hsplit, hsince⟩ : ∃ first since n future,
      history = [] ++ .began 1 .busInterrupt first :: since ++ .began 2 .busInterrupt n :: future ∧
        busEvents since = [.ticks 65535] :=
    ⟨_, [_, _, _, _], _, _, rfl, rfl⟩
  have honly : OnlyTime (busEvents since) := by simp [hsince, OnlyTime]
  obtain ⟨status, houtcome, hnew⟩ := hbytes [] 1 first since 2 n future hsplit honly
  refine ⟨by decide, status, (houtcome status).2 rfl, hnew.2 ?_⟩
  rw [hsince]
  decide

/-- The largest threshold is accepted, outright and as the threshold of rates, and under it no
silence is long enough: after 65536 ticks, more than the threshold tells, the next byte belongs to
the frame of the byte before. -/
theorem silence_never_exceeds_largest_threshold :
    ∃ timing : ChannelTiming, ChannelTiming.ofThresholds 28086 65535 = .ok timing ∧
      ChannelTiming.ofBitrate 35 65535 = .ok timing ∧
      let t : CallTree interface Doing (Node Control Devices 4) :=
        .call .busInterrupt (fun _ => .done) fun _ => .act (.elapse 65535) fun _ =>
          .act (.elapse 1) fun _ => .call .busInterrupt (fun _ => .done) fun _ => .done
      let history : History interface Doing (Node Control Devices 4) :=
        t.moments (onBench Control 4) (Node.new { enabled := true } timing {} 4 (by decide))
      busEvents history =
          [.byte 0 .clean, .ticks 65535, .ticks 1, .byte 0 .clean] ∧
        timing.interFrame.toNat < ticksOf [.ticks 65535, .ticks 1] ∧
        ∃ status : RxStatus, (2, ⟨.busInterrupt, status⟩) ∈ history.outcomes ∧
          status.isNewFrame = false := by
  refine ⟨⟨28086, 65535, by decide⟩, rfl, rfl, rfl, by decide, .encode false .clean, ?_, by decide⟩
  exact .tail _ (.head _)

end SerialGateway.Node
