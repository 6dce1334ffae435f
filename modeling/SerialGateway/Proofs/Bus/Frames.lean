/-!
# Frames on a time line

The time line of a bus shows the callbacks of its bytes and silences between the ticks of its gap
timer. Its laws (`Laws`) say where the silences stand, which bytes open a frame, and that the
callbacks are those of whole frames, one after another, the last one perhaps unfinished.

`timeline` is the time line that a gap timer with its compare value makes of bytes and ticks. It
keeps the laws, whatever arrives (`timeline_laws`).
-/

set_option autoImplicit false

namespace SerialGateway

/-- What comes to the bus by itself. -/
inductive Signal where
  | byte
  | tick
  deriving DecidableEq, Repr

/-- What shows on the time line of a bus. A byte tells whether it opens a frame. -/
inductive FrameMark where
  | byte (newFrame : Bool)
  | silence
  | tick
  deriving DecidableEq, Repr

namespace FrameMark

@[simp] def isByte : FrameMark → Bool
  | byte _ => true
  | silence | tick => false

/-- The mark is a callback of the application. -/
@[simp] def isCallback : FrameMark → Bool
  | byte _ | silence => true
  | tick => false

/-- What has come to the bus, if the mark is not made by the node. -/
@[simp] def signal? : FrameMark → Option Signal
  | byte _ => some .byte
  | tick => some .tick
  | silence => none

/-- The ticks since the last byte. -/
def ticksSinceByte (past : List FrameMark) : Nat :=
  (past.reverse.takeWhile fun m => !m.isByte).count tick

/-- The last byte was `d` ticks ago, and nothing else has happened since. -/
def Silent (d : Nat) (past : List FrameMark) : Prop :=
  ∃ earlier newFrame, past = earlier ++ byte newFrame :: List.replicate d tick

/-- A byte would be the first one, or the first after a gap. -/
def Opens (gap : Nat) (past : List FrameMark) : Prop :=
  (∀ m ∈ past, m.isByte = false) ∨ gap ≤ ticksSinceByte past

/-- The callbacks of a frame with `n` bytes after its first one. -/
def frame (n : Nat) : List FrameMark := byte true :: (List.replicate n (byte false) ++ [silence])

/-! ## The laws of a time line -/

/-- The laws of a time line: its callbacks are those of frames; a silence is served as soon as a
gap has passed since the last byte, and at no other time; and the bytes that open a frame are the
first one and those that come after a gap. -/
structure Laws (gap : Nat) (marks : List FrameMark) : Prop where
  bracketed : ∃ lengths : List Nat, marks.filter isCallback <+: lengths.flatMap frame
  closed : ∀ earlier m later, marks = earlier ++ m :: later → (m = silence ↔ Silent gap earlier)
  settled : ¬ Silent gap marks
  opened : ∀ earlier newFrame later, marks = earlier ++ byte newFrame :: later →
    (newFrame = true ↔ Opens gap earlier)

section Past

variable {gap d : Nat} {past : List FrameMark}

@[simp] theorem ticksSinceByte_tick :
    ticksSinceByte (past ++ [tick]) = ticksSinceByte past + 1 := by
  simp [ticksSinceByte]

@[simp] theorem ticksSinceByte_silence :
    ticksSinceByte (past ++ [silence]) = ticksSinceByte past := by
  simp [ticksSinceByte]

theorem Opens.after_tick (h : Opens gap past) : Opens gap (past ++ [tick]) := by
  rcases h with hfirst | hgap
  · left
    intro m hm
    rcases List.mem_append.1 hm with hm | hm
    · exact hfirst m hm
    · rw [List.mem_singleton.1 hm]
      rfl
  · right
    rw [ticksSinceByte_tick]
    omega

theorem silent_byte (newFrame : Bool) : Silent 0 (past ++ [byte newFrame]) := ⟨past, newFrame, rfl⟩

theorem Silent.after_tick (h : Silent d past) : Silent (d + 1) (past ++ [tick]) := by
  obtain ⟨earlier, newFrame, rfl⟩ := h
  refine ⟨earlier, newFrame, ?_⟩
  rw [List.replicate_succ', List.append_assoc, List.cons_append]

theorem Silent.ticksSinceByte_eq (h : Silent d past) : ticksSinceByte past = d := by
  obtain ⟨earlier, newFrame, rfl⟩ := h
  induction d with
  | zero => simp [ticksSinceByte]
  | succ d ih =>
      have hlast : earlier ++ byte newFrame :: List.replicate (d + 1) tick =
          earlier ++ byte newFrame :: List.replicate d tick ++ [tick] := by
        rw [List.replicate_succ', List.append_assoc, List.cons_append]
      rw [hlast, ticksSinceByte_tick, ih]

/-- The last mark of a silence is its byte or a tick. -/
theorem Silent.of_append {m : FrameMark} (h : Silent d (past ++ [m])) :
    (d = 0 ∧ m.isByte = true) ∨ ∃ e, d = e + 1 ∧ m = tick ∧ Silent e past := by
  obtain ⟨earlier, newFrame, heq⟩ := h
  cases d with
  | zero =>
      left
      obtain ⟨-, hm⟩ := List.append_inj' heq rfl
      cases hm
      exact ⟨rfl, rfl⟩
  | succ d =>
      right
      rw [List.replicate_succ', ← List.cons_append, ← List.append_assoc] at heq
      obtain ⟨hpast, hm⟩ := List.append_inj' heq rfl
      cases hm
      exact ⟨d, rfl, rfl, earlier, newFrame, hpast⟩

theorem not_silent_silence : ¬ Silent d (past ++ [silence]) := by
  intro h
  rcases h.of_append with ⟨-, hm⟩ | ⟨e, -, hm, -⟩
  · cases hm
  · cases hm

theorem Silent.not_opens (h : Silent d past) (hd : d < gap) : ¬ Opens gap past := by
  rintro (hfirst | hgap)
  · obtain ⟨earlier, newFrame, rfl⟩ := h
    have := hfirst (byte newFrame) (by simp)
    cases this
  · rw [h.ticksSinceByte_eq] at hgap
    omega

end Past

/-! ## The time line of a gap timer -/

/-- The time line of bytes and ticks under a timer that is stopped, or has counted the given number
of ticks. The timer raises the silence when it has counted `gap` ticks, and is stopped by it. -/
def timeline (gap : Nat) : Option Nat → List Signal → List FrameMark
  | _, [] => []
  | none, .byte :: rest => byte true :: timeline gap (some 0) rest
  | some _, .byte :: rest => byte false :: timeline gap (some 0) rest
  | none, .tick :: rest => tick :: timeline gap none rest
  | some d, .tick :: rest =>
      if d + 1 = gap then tick :: silence :: timeline gap none rest
      else tick :: timeline gap (some (d + 1)) rest

/-- No signal is lost. -/
theorem timeline_signals (gap : Nat) (timer : Option Nat) (signals : List Signal) :
    (timeline gap timer signals).filterMap signal? = signals := by
  induction signals generalizing timer with
  | nil => cases timer <;> rfl
  | cons signal rest ih =>
      cases signal with
      | byte => cases timer <;> simp [timeline, ih]
      | tick =>
          cases timer with
          | none => simp [timeline, ih]
          | some d =>
              rw [timeline]
              split <;> simp [List.filterMap_cons, ih]

/-- The callbacks of a time line complete the frame that is open, and are then those of frames. -/
theorem timeline_bracketed (gap : Nat) (timer : Option Nat) (signals : List Signal) :
    ∃ (n : Nat) (lengths : List Nat), (timeline gap timer signals).filter isCallback <+:
      (timer.elim [] fun _ => List.replicate n (byte false) ++ [silence]) ++
        lengths.flatMap frame := by
  induction signals generalizing timer with
  | nil => exact ⟨0, [], by cases timer <;> exact List.nil_prefix⟩
  | cons signal rest ih =>
      cases signal with
      | byte =>
          obtain ⟨n, lengths, h⟩ := ih (some 0)
          cases timer with
          | none =>
              -- the byte opens the first of the frames
              refine ⟨0, n :: lengths, ?_⟩
              simpa [timeline, frame, List.filter_cons] using h
          | some d =>
              refine ⟨n + 1, lengths, ?_⟩
              simpa [timeline, List.replicate_succ, List.filter_cons] using h
      | tick =>
          cases timer with
          | none => exact ih none
          | some d =>
              rw [timeline]
              split
              · obtain ⟨n, lengths, h⟩ := ih none
                refine ⟨0, lengths, ?_⟩
                simpa [List.filter_cons] using h
              · exact ih (some (d + 1))

/-- The timer knows what the time line so far says about the open frame. -/
def Keeps (gap : Nat) (past : List FrameMark) : Option Nat → Prop
  | none => Opens gap past ∧ ∀ d, ¬ Silent d past
  | some d => d < gap ∧ Silent d past

/-- The laws of a time line after `past`, mark by mark. -/
def Lawful (gap : Nat) : List FrameMark → List FrameMark → Prop
  | past, [] => ¬ Silent gap past
  | past, m :: rest =>
      ((m = silence ↔ Silent gap past) ∧
        ∀ newFrame, m = byte newFrame → (newFrame = true ↔ Opens gap past)) ∧
      Lawful gap (past ++ [m]) rest

namespace Keeps

variable {gap : Nat} {past : List FrameMark} {timer : Option Nat}

theorem of_byte (hgap : 0 < gap) (newFrame : Bool) : Keeps gap (past ++ [byte newFrame]) (some 0) :=
  ⟨hgap, silent_byte newFrame⟩

variable (h : Keeps gap past timer)

include h

/-- A gap that has passed is not left without its silence. -/
theorem not_silent : ¬ Silent gap past := by
  cases timer with
  | none => exact h.2 gap
  | some d =>
      intro hgap
      obtain ⟨hlt, hsilent⟩ := h
      have := hsilent.ticksSinceByte_eq.symm.trans hgap.ticksSinceByte_eq
      omega

theorem opens_iff : Opens gap past ↔ timer = none := by
  cases timer with
  | none => simp [h.1]
  | some d => simp [h.2.not_opens h.1]

theorem tick_stopped (hstopped : timer = none) : Keeps gap (past ++ [tick]) none := by
  subst hstopped
  obtain ⟨hopens, hnever⟩ := h
  refine ⟨hopens.after_tick, fun d hd => ?_⟩
  rcases hd.of_append with ⟨-, hm⟩ | ⟨e, -, -, he⟩
  · cases hm
  · exact hnever e he

end Keeps

/-- Every mark of a time line stands where the laws want it. -/
theorem timeline_lawful {gap : Nat} (hgap : 0 < gap) (signals : List Signal) :
    ∀ {timer past}, Keeps gap past timer → Lawful gap past (timeline gap timer signals) := by
  -- induction on the signals, with the timer as a summary of the past
  induction signals with
  | nil =>
      intro timer past h
      cases timer <;> exact h.not_silent
  | cons signal rest ih =>
      intro timer past h
      have hopens := h.opens_iff
      have hnot := h.not_silent
      cases signal with
      | byte =>
          cases timer with
          | none => exact ⟨by simp [hnot, hopens], ih (.of_byte hgap true)⟩
          | some d => exact ⟨by simp [hnot, hopens], ih (.of_byte hgap false)⟩
      | tick =>
          have htick : (tick = silence ↔ Silent gap past) ∧
              ∀ newFrame, tick = byte newFrame → (newFrame = true ↔ Opens gap past) := by
            simp [hnot]
          cases timer with
          | none => exact ⟨htick, ih (h.tick_stopped rfl)⟩
          | some d =>
              have hsilent := h.2.after_tick
              rw [timeline]
              split
              · next hfull =>
                -- the tick completes the gap, and the silence is the next mark
                rw [hfull] at hsilent
                refine ⟨htick, ⟨?_, ?_⟩, ih ⟨?_, fun _ => not_silent_silence⟩⟩
                · simp [hsilent]
                · simp
                · have hpassed : ticksSinceByte (past ++ [tick] ++ [silence]) = gap := by
                    rw [ticksSinceByte_silence, hsilent.ticksSinceByte_eq]
                  exact .inr (Nat.le_of_eq hpassed.symm)
              · next hearly =>
                have hlt := h.1
                exact ⟨htick, ih ⟨by omega, hsilent⟩⟩

theorem Lawful.at_mark {gap : Nat} {past earlier later : List FrameMark} {m : FrameMark}
    (h : Lawful gap past (earlier ++ m :: later)) :
    (m = silence ↔ Silent gap (past ++ earlier)) ∧
      ∀ newFrame, m = byte newFrame → (newFrame = true ↔ Opens gap (past ++ earlier)) := by
  induction earlier generalizing past with
  | nil => simpa using h.1
  | cons first earlier ih => simpa using ih h.2

theorem Lawful.at_end {gap : Nat} {past marks : List FrameMark} (h : Lawful gap past marks) :
    ¬ Silent gap (past ++ marks) := by
  induction marks generalizing past with
  | nil => simpa [Lawful] using h
  | cons m rest ih => simpa using ih h.2

/-- Under a timer that is stopped when it begins, a time line has the laws of frames. -/
theorem timeline_laws {gap : Nat} (hgap : 0 < gap) (signals : List Signal) :
    Laws gap (timeline gap none signals) := by
  have hstart : Keeps gap [] none := ⟨.inl (by simp), fun d hd => by simp [Silent] at hd⟩
  have hlawful := timeline_lawful hgap signals hstart
  obtain ⟨_, lengths, hprefix⟩ := timeline_bracketed gap none signals
  constructor
  · exact ⟨lengths, hprefix⟩
  · intro earlier m later hsplit
    rw [hsplit] at hlawful
    exact hlawful.at_mark.1
  · exact hlawful.at_end
  · intro earlier newFrame later hsplit
    rw [hsplit] at hlawful
    exact hlawful.at_mark.2 newFrame rfl

end FrameMark

end SerialGateway
