import SerialGateway.Board.SilenceTimer
import SerialGateway.Proofs.Bus.Threshold
import SerialGateway.Proofs.Bus.Traffic

/-!
# Silences as 16 bits tell them

A gap timer tells a silence in a word of 16 bits: a longer one reads as 65535 (`GapTimer.Tells`). The
timer of the bench does so, which holds its count there, and so does the timer of the board, whose
count has 32 bits and is cut on reading. A threshold below 65535 hears every longer silence through
such a reading. A threshold of 65535 hears none, since no reading exceeds it
(`GapDetector.startsFrame_iff_of_tells`).
-/

set_option autoImplicit false

namespace SerialGateway

open Bench

/-! ## Timers -/

/-- The timer is counting, and tells that a silence has lasted for the given number of ticks. -/
structure GapTimer.Tells {D : Type} (timer : GapTimer D) (silence : Nat) (d : D) : Prop where
  running : timer.running d = true
  count : (timer.count d).toNat = min 65535 silence

namespace Bench.Timer

/-- Ticks that pass prolong a silence. -/
theorem tells_elapse {timer : Timer} {silence : Nat} (h : gapTimer.Tells silence timer)
    (ticks : UInt16) : gapTimer.Tells (silence + ticks.toNat) (timer.elapse ticks) := by
  have hrunning : timer.running = true := h.running
  have hcount : timer.count.toNat = min 65535 silence := h.count
  have hticked : timer.elapse ticks = { timer with count := addHeld timer.count ticks } :=
    if_pos hrunning
  have hsum : (addHeld timer.count ticks).toNat = min 65535 (silence + ticks.toNat) := by
    rw [toNat_addHeld, hcount]
    omega
  rw [hticked]
  exact ⟨hrunning, hsum⟩

end Bench.Timer

namespace SilenceTimer

/-- A word that does not fit 16 bits reads as 65535. -/
theorem toNat_clampCount (v : Word) : (clampCount v).toNat = min 65535 v.toNat := by
  rw [clampCount]
  split
  · next hle =>
    have hfits : v.toNat ≤ 65535 := UInt32.le_iff_toNat_le.1 hle
    rw [UInt32.toNat_toUInt16]
    omega
  · next hgt =>
    have hwide : ¬ v.toNat ≤ 65535 := fun h => hgt (UInt32.le_iff_toNat_le.2 h)
    have htop : (65535 : UInt16).toNat = 65535 := rfl
    omega

/-- The timer of the board tells a silence that its hardware has counted. -/
theorem tells_count {m : Memory} (h : isRunning m = true) :
    gapTimer.Tells (m.read countReg).toNat m :=
  ⟨h, toNat_clampCount _⟩

end SilenceTimer

/-! ## The decision -/

namespace GapDetector

variable {D : Type} {timer : GapTimer D} {silence : Nat} {d : D}

/-- What a detector hears through 16 bits. The threshold 65535 fits them, but nothing that they tell
is greater. -/
theorem startsFrame_iff_of_tells (g : GapDetector) (h : timer.Tells silence d) :
    g.startsFrame (timer.running d) (timer.count d) = true ↔
      g.timing.interFrame.toNat < silence ∧ g.timing.interFrame ≠ 65535 := by
  have hfits := g.timing.interFrame.toNat_lt
  have htop : g.timing.interFrame ≠ 65535 ↔ g.timing.interFrame.toNat ≠ 65535 :=
    not_congr UInt16.toNat_inj.symm
  rw [h.running, startsFrame_running_iff, h.count, htop]
  omega

/-- The status of a byte tells what the detector has heard. -/
theorem isNewFrame_onByte (g : GapDetector) (errors : LineErrors) :
    (g.onByte timer errors d).1.isNewFrame = g.startsFrame (timer.running d) (timer.count d) :=
  RxStatus.isNewFrame_encode ..

end GapDetector

/-! ## Silences among the events of the bus -/

namespace BusEvent

/-- Nothing but time has passed. -/
def OnlyTime (events : List BusEvent) : Prop := ∀ e ∈ events, ∃ count, e = ticks count

/-- The ticks that have passed during the events. -/
def ticksOf (events : List BusEvent) : Nat := (events.map duration).sum

/-- Where nothing but time has passed since the last byte, the timer tells how much of it. -/
def Heard (events : List BusEvent) (timer : Timer) : Prop :=
  ∀ past value errors since, events = past ++ byte value errors :: since → OnlyTime since →
    Timer.gapTimer.Tells (ticksOf since) timer

namespace Heard

variable {events : List BusEvent} {timer timer' : Timer}

theorem nil (timer : Timer) : Heard [] timer := by
  intro past value errors since hevents
  simp at hevents

theorem congr (h : Heard events timer) (hrunning : timer'.running = timer.running)
    (hcount : timer'.count = timer.count) : Heard events timer' := by
  intro past value errors since hevents hsince
  obtain ⟨running, count⟩ := h past value errors since hevents hsince
  exact ⟨hrunning.trans running, (congrArg UInt16.toNat hcount).trans count⟩

/-- What stands last among the events is their last byte, or has happened since. -/
theorem append {last : BusEvent} (h : Heard events timer)
    (hbyte : last.isByte = true → Timer.gapTimer.Tells 0 timer')
    (hticks : ∀ count, last = ticks count → timer' = timer.elapse count) :
    Heard (events ++ [last]) timer' := by
  intro past value errors since hevents hsince
  rcases List.eq_nil_or_concat since with rfl | ⟨earlier, m, rfl⟩
  · obtain ⟨-, hlast⟩ := List.append_inj' hevents rfl
    cases hlast
    exact hbyte rfl
  · rw [List.concat_eq_append, ← List.cons_append, ← List.append_assoc] at hevents
    obtain ⟨hpast, hlast⟩ := List.append_inj' hevents rfl
    cases hlast
    obtain ⟨count, rfl⟩ := hsince last (by simp)
    have hbefore := h past value errors earlier hpast fun e he => hsince e (by simp [he])
    have hmore : ticksOf (earlier.concat (ticks count)) = ticksOf earlier + count.toNat := by
      simp [ticksOf]
    rw [hmore, hticks count rfl]
    exact Timer.tells_elapse hbefore count

/-- A detector keeps its thresholds, and its timer goes on telling the silence. -/
theorem keeps (timing : ChannelTiming) :
    Keeps fun events g timer => g.timing = timing ∧ Heard events timer where
  congr h hrunning hcount := ⟨h.1, h.2.congr hrunning hcount⟩
  byte value errors h hrunning hcount := by
    refine ⟨h.1, h.2.append (fun _ => ⟨hrunning, ?_⟩) fun count hlast => by cases hlast⟩
    exact congrArg UInt16.toNat hcount
  silence h _ := ⟨h.1, h.2.append (fun hlast => by cases hlast) fun count hlast => by cases hlast⟩
  elapse ticks h := by
    refine ⟨h.1, h.2.append (fun hlast => by cases hlast) ?_⟩
    rintro count ⟨⟩
    rfl

end Heard

end BusEvent

end SerialGateway
