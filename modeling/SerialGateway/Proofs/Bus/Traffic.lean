import SerialGateway.Bench.Devices
import SerialGateway.Bus.Detector

/-!
# The traffic on the bus

What happens on the bus, as a list of events: bytes with their line errors, silences that were
served, and time that passes. The list decides whether the next byte opens a frame (`OpensFrame`).
`Tracks` says that a frame detector and its gap timer remember just enough of the list for this
decision; every event keeps it (`Tracks.byte`, `Tracks.silence`, `Tracks.elapse`), and the status
that the detector gives to a byte is then the one that the list asks for (`Tracks.byteLaw`).
-/

set_option autoImplicit false

namespace SerialGateway

open Bench

/-! ## Events -/

/-- Something that happens on the bus. -/
inductive BusEvent where
  | byte (value : UInt8) (errors : LineErrors)
  | silence
  | ticks (count : UInt16)
  deriving DecidableEq, Repr

namespace BusEvent

@[simp] def isByte : BusEvent → Bool
  | byte _ _ => true
  | silence | ticks _ => false

/-- The event is a byte without errors. -/
@[simp] def isClean : BusEvent → Bool
  | byte _ errors => !errors.any
  | silence | ticks _ => false

/-- The event is a byte with at least one error. -/
@[simp] def isDamaged : BusEvent → Bool
  | byte _ errors => errors.any
  | silence | ticks _ => false

/-- The ticks that pass during an event. -/
@[simp] def duration : BusEvent → Nat
  | ticks count => count.toNat
  | byte _ _ | silence => 0

/-- What happened after the last byte, latest first. -/
def sinceByte (events : List BusEvent) : List BusEvent :=
  events.reverse.takeWhile fun e => !e.isByte

/-- The ticks that have passed since the last byte, as far as 16 bits can tell. -/
def ticksSinceByte (events : List BusEvent) : Nat :=
  min 65535 ((sinceByte events).foldr (fun e passed => e.duration + passed) 0)

/-- No frame is open: there was no byte yet, or a silence was served since the last one. -/
def NoFrame (events : List BusEvent) : Prop :=
  (∀ e ∈ events, e.isByte = false) ∨ silence ∈ sinceByte events

/-- A byte after these events is the first of a frame. -/
def OpensFrame (timing : ChannelTiming) (events : List BusEvent) : Prop :=
  NoFrame events ∨ timing.interFrame.toNat < ticksSinceByte events

variable (events : List BusEvent)

@[simp] theorem sinceByte_byte (value : UInt8) (errors : LineErrors) :
    sinceByte (events ++ [byte value errors]) = [] := by
  simp [sinceByte]

@[simp] theorem sinceByte_silence :
    sinceByte (events ++ [silence]) = silence :: sinceByte events := by
  simp [sinceByte]

@[simp] theorem sinceByte_ticks (count : UInt16) :
    sinceByte (events ++ [ticks count]) = ticks count :: sinceByte events := by
  simp [sinceByte]

theorem noFrame_nil : NoFrame [] := .inl (by simp)

theorem not_noFrame_byte (value : UInt8) (errors : LineErrors) :
    ¬ NoFrame (events ++ [byte value errors]) := by
  simp [NoFrame]

theorem noFrame_silence : NoFrame (events ++ [silence]) := by
  simp [NoFrame]

theorem noFrame_ticks_iff (count : UInt16) :
    NoFrame (events ++ [ticks count]) ↔ NoFrame events := by
  simp [NoFrame, or_imp, forall_and]

theorem ticksSinceByte_byte (value : UInt8) (errors : LineErrors) :
    ticksSinceByte (events ++ [byte value errors]) = 0 := by
  simp [ticksSinceByte]

theorem ticksSinceByte_ticks (count : UInt16) :
    ticksSinceByte (events ++ [ticks count]) =
      min 65535 (ticksSinceByte events + count.toNat) := by
  simp only [ticksSinceByte, sinceByte_ticks, List.foldr_cons, duration]
  omega

end BusEvent

open BusEvent

/-! ## The gap timer -/

/-- Ticks that pass are added to the count of a running timer, which 65535 holds. -/
theorem Bench.Timer.toNat_addHeld (a b : UInt16) :
    (Timer.addHeld a b).toNat = min 65535 (a.toNat + b.toNat) := by
  have ha := a.toNat_lt
  have hb := b.toNat_lt
  have hroom : (65535 - a).toNat = 65535 - a.toNat := by
    rw [UInt16.toNat_sub_of_le]
    · rfl
    · rw [UInt16.le_iff_toNat_le]
      show a.toNat ≤ 65535
      omega
  rw [Timer.addHeld]
  split
  · next hle =>
    rw [UInt16.le_iff_toNat_le, hroom] at hle
    rw [UInt16.toNat_add]
    omega
  · next hgt =>
    rw [UInt16.le_iff_toNat_le, hroom] at hgt
    show 65535 = _
    omega

/-! ## What the detector remembers -/

/-- The counts of a channel after `events`. -/
structure CountLaw (events : List BusEvent) (stats : ChannelStats) : Prop where
  received : stats.received.toNat = min 65535 (events.countP isClean)
  errors : stats.errors.toNat = min 65535 (events.countP isDamaged)

/-- A detector and its timer after the events of the bus. -/
structure Tracks (timing : ChannelTiming) (events : List BusEvent) (g : GapDetector)
    (timer : Timer) : Prop where
  timing_eq : g.timing = timing
  counts : CountLaw events g.stats
  stopped : timer.running = false ↔ NoFrame events
  count : timer.running = true → timer.count.toNat = ticksSinceByte events

/-- The status of a byte that comes after `events` with the given errors. -/
structure ByteLaw (timing : ChannelTiming) (events : List BusEvent) (errors : LineErrors)
    (status : RxStatus) : Prop where
  newFrame : status.isNewFrame = true ↔ OpensFrame timing events
  error : status.hasError = true ↔ errors.any = true
  lineErrors : status.lineErrors = errors
  reserved : status.bits &&& 0b00011100 = 0

/-- The bits of a status that have no name are zero. -/
theorem RxStatus.reserved_encode (newFrame : Bool) (errors : LineErrors) :
    (encode newFrame errors).bits &&& 0b00011100 = 0 := by
  obtain ⟨framing, parity, overrun⟩ := errors
  revert newFrame framing parity overrun
  decide

theorem ChannelStats.received_count (s : ChannelStats) (errors : LineErrors) :
    (s.count errors).received = Counter.count16 (if errors.any then 0 else 1) s.received := by
  rw [count]
  split <;> rfl

theorem ChannelStats.errors_count (s : ChannelStats) (errors : LineErrors) :
    (s.count errors).errors = Counter.count16 (if errors.any then 1 else 0) s.errors := by
  rw [count]
  split <;> rfl

theorem CountLaw.byte {events : List BusEvent} {stats : ChannelStats} (h : CountLaw events stats)
    (value : UInt8) (errors : LineErrors) :
    CountLaw (events ++ [.byte value errors]) (stats.count errors) where
  received := by
    rw [ChannelStats.received_count, Counter.toNat_count16, h.received, List.countP_append]
    cases hany : errors.any <;> simp [hany]
    omega
  errors := by
    rw [ChannelStats.errors_count, Counter.toNat_count16, h.errors, List.countP_append]
    cases hany : errors.any <;> simp [hany]
    omega

namespace Tracks

variable {timing : ChannelTiming} {events : List BusEvent} {g : GapDetector} {timer : Timer}

theorem start (timing : ChannelTiming) {timer : Timer} (h : timer.running = false) :
    Tracks timing [] { timing } timer where
  timing_eq := rfl
  counts := ⟨rfl, rfl⟩
  stopped := by simp [h, noFrame_nil]
  count := by simp [h]

/-- A timer that differs elsewhere tells the same. -/
theorem congr (h : Tracks timing events g timer) {g' : GapDetector} {timer' : Timer} (hg : g' = g)
    (hrunning : timer'.running = timer.running) (hcount : timer'.count = timer.count) :
    Tracks timing events g' timer' where
  timing_eq := by rw [hg, h.timing_eq]
  counts := by
    rw [hg]
    exact h.counts
  stopped := by rw [hrunning, h.stopped]
  count := by
    rw [hrunning, hcount]
    exact h.count

/-- The decision of the detector is the one the traffic asks for. -/
theorem startsFrame_iff (h : Tracks timing events g timer) :
    g.startsFrame timer.running timer.count = true ↔ OpensFrame timing events := by
  rw [GapDetector.startsFrame, OpensFrame, ← h.stopped, ← h.timing_eq]
  -- the count means nothing while the timer is stopped
  cases hrunning : timer.running with
  | false => simp
  | true => simp [UInt16.lt_iff_toNat_lt, h.count hrunning]

theorem byteLaw (h : Tracks timing events g timer) (errors : LineErrors) :
    ByteLaw timing events errors
      (.encode (g.startsFrame timer.running timer.count) errors) where
  newFrame := by rw [RxStatus.isNewFrame_encode, h.startsFrame_iff]
  error := by rw [RxStatus.hasError_encode]
  lineErrors := RxStatus.lineErrors_encode ..
  reserved := RxStatus.reserved_encode ..

/-- A byte is counted, and restarts the timer. -/
theorem byte (h : Tracks timing events g timer) (value : UInt8) (errors : LineErrors)
    {timer' : Timer} (hrunning : timer'.running = true) (hcount : timer'.count = 0) :
    Tracks timing (events ++ [.byte value errors]) { g with stats := g.stats.count errors }
      timer' where
  timing_eq := h.timing_eq
  counts := h.counts.byte value errors
  stopped := by simp [hrunning, not_noFrame_byte]
  count := by simp [hcount, ticksSinceByte_byte]

/-- A silence stops the timer. -/
theorem silence (h : Tracks timing events g timer) {timer' : Timer}
    (hrunning : timer'.running = false) : Tracks timing (events ++ [.silence]) g timer' where
  timing_eq := h.timing_eq
  counts := ⟨by simp [h.counts.received], by simp [h.counts.errors]⟩
  stopped := by simp [hrunning, noFrame_silence]
  count := by simp [hrunning]

/-- Time that passes is counted while the timer runs. -/
theorem elapse (h : Tracks timing events g timer) (ticks : UInt16) :
    Tracks timing (events ++ [.ticks ticks]) g (timer.elapse ticks) where
  timing_eq := h.timing_eq
  counts := ⟨by simp [h.counts.received], by simp [h.counts.errors]⟩
  stopped := by
    rw [noFrame_ticks_iff, ← h.stopped, Timer.elapse]
    split <;> rfl
  count := by
    intro hrunning
    cases hbefore : timer.running with
    | false => simp [Timer.elapse, hbefore] at hrunning
    | true =>
        rw [ticksSinceByte_ticks, ← h.count hbefore, ← Timer.toNat_addHeld, Timer.elapse,
          if_pos hbefore]

end Tracks

/-- `P` tells something about a detector and its timer from the events of the bus, and every event
keeps it. Of the timer it depends on no more than the running and the count. -/
structure Keeps (P : List BusEvent → GapDetector → Timer → Prop) : Prop where
  congr : ∀ {events g timer timer'}, P events g timer → timer'.running = timer.running →
    timer'.count = timer.count → P events g timer'
  byte : ∀ {events g timer timer'} value errors, P events g timer → timer'.running = true →
    timer'.count = 0 →
    P (events ++ [.byte value errors]) { g with stats := g.stats.count errors } timer'
  silence : ∀ {events g timer timer'}, P events g timer → timer'.running = false →
    P (events ++ [.silence]) g timer'
  elapse : ∀ {events g timer} count, P events g timer →
    P (events ++ [.ticks count]) g (timer.elapse count)

theorem Tracks.keeps (timing : ChannelTiming) : Keeps (Tracks timing) where
  congr h hrunning hcount := h.congr rfl hrunning hcount
  byte value errors h hrunning hcount := h.byte value errors hrunning hcount
  silence h hrunning := h.silence hrunning
  elapse count h := h.elapse count

end SerialGateway
