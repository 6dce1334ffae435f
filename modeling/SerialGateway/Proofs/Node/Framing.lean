import SerialGateway.Proofs.Bus.Frames
import SerialGateway.Proofs.Node.BusChannel
import SerialGateway.Proofs.Reentrant.Restricted

/-!
# Frames on the bus of a node

A node on the bench whose interrupts are served in time: a byte by `busInterrupt` when it has come,
and the compare match of the gap timer by `silenceInterrupt` in the tick that completes it
(`served`). Between these, and inside all callbacks, the surroundings may do what they like, as long
as it is no interrupt of the bus and takes no time on its timer. The callbacks of the bus then come
in well bracketed frames (`frames_bracketed`): whatever arrives, the time line of the run is the one
of the gap timer (`marks_served`), and that one keeps the laws of frames.
-/

set_option autoImplicit false

namespace SerialGateway.Node

open Bench History

variable {M : Type} {cap : Nat}

/-! ## Serving what arrives -/

/-- The call is no interrupt of the bus. -/
def Quiet (c : Call) : Prop := c ≠ .busInterrupt ∧ c ≠ .silenceInterrupt

/-- What the surroundings do takes no time on the gap timer. -/
def Timeless (e : Doing) : Prop := e.busEvent? = none

/-- Something that a node on the bench has to deal with. -/
inductive Arrival (M : Type) (cap : Nat) where
  /-- A byte comes, and its callback does `inside`. -/
  | byte (value : UInt8) (errors : LineErrors)
      (inside : Hook → CallTree interface Doing (Node M Devices cap))
  /-- A tick passes, and the callback of a silence that it completes does `inside`. -/
  | tick (inside : Hook → CallTree interface Doing (Node M Devices cap))
  /-- Anything else. -/
  | other (doings : CallTree interface Doing (Node M Devices cap))

namespace Arrival

/-- What the application does makes no call of the bus and lets no time pass. -/
def Unhurried : Arrival M cap → Prop
  | byte _ _ inside | tick inside => ∀ hook, (inside hook).Only Quiet Timeless
  | other doings => doings.Only Quiet Timeless

/-- What comes to the bus. -/
def signal? : Arrival M cap → Option Signal
  | byte _ _ _ => some .byte
  | tick _ => some .tick
  | other _ => none

end Arrival

/-- The timer runs, and has reached its compare value. -/
def CompareMatch (timer : Timer) : Prop := timer.running = true ∧ timer.count = timer.compare

instance (timer : Timer) : Decidable (CompareMatch timer) := inferInstanceAs (Decidable (_ ∧ _))

/-- Serve what arrives: a byte when it has come, and a compare match before anything else. -/
def served : List (Arrival M cap) → CallTree interface Doing (Node M Devices cap)
  | [] => .done
  | .byte value errors inside :: rest =>
      .act (.busByte value errors) fun _ => .call .busInterrupt inside fun _ => served rest
  | .tick inside :: rest =>
      .act (.elapse 1) fun n =>
        if CompareMatch n.devices.timer then .call .silenceInterrupt inside fun _ => served rest
        else served rest
  | .other doings :: rest => doings.followedBy (served rest)

/-- What a moment of a run shows on the time line. The bench lets ticks pass one by one. -/
@[simp] def frameMark? : Moment interface Doing (Node M Devices cap) → Option FrameMark
  | .entered _ (.callback (.busByte _ status)) _ => some (.byte status.isNewFrame)
  | .entered _ (.callback .busSilence) _ => some .silence
  | .acted (.elapse _) _ => some .tick
  | _ => none

/-- The time line of a run. -/
def marks (history : History interface Doing (Node M Devices cap)) : List FrameMark :=
  history.filterMap frameMark?

@[simp] theorem marks_nil : marks ([] : History interface Doing (Node M Devices cap)) = [] := rfl

@[simp] theorem marks_cons (m : Moment interface Doing (Node M Devices cap))
    (rest : History interface Doing (Node M Devices cap)) :
    marks (m :: rest) = (frameMark? m).toList ++ marks rest :=
  filterMap_cons_toList ..

@[simp] theorem marks_append (a b : History interface Doing (Node M Devices cap)) :
    marks (a ++ b) = marks a ++ marks b :=
  List.filterMap_append

/-! ## What the node keeps of the open frame -/

/-- The gap timer of the node is armed, and stands as `timer` says: stopped, or after a number of
ticks that does not exceed the gap. -/
structure Stands (timing : ChannelTiming) (timer : Option Nat) (n : Node M Devices cap) :
    Prop where
  timing_eq : n.shared.bus.timing = timing
  armed : n.devices.timer.compare = timing.interFrame
  running : n.devices.timer.running = timer.isSome
  count : ∀ d ∈ timer, n.devices.timer.count.toNat = d
  inGap : ∀ d ∈ timer, d ≤ timing.interFrame.toNat

namespace Stands

variable {timing : ChannelTiming} {timer : Option Nat} {n n' : Node M Devices cap}
  (h : Stands timing timer n)

include h

/-- A node that differs elsewhere stands the same. -/
theorem congr (hbus : n'.shared.bus = n.shared.bus)
    (hrunning : n'.devices.timer.running = n.devices.timer.running)
    (hcount : n'.devices.timer.count = n.devices.timer.count)
    (harmed : n'.devices.timer.compare = timing.interFrame) : Stands timing timer n' where
  timing_eq := by rw [hbus, h.timing_eq]
  armed := harmed
  running := by rw [hrunning, h.running]
  count := by
    rw [hcount]
    exact h.count
  inGap := h.inGap

theorem of_records_eq (hrecords : n'.records = n.records) : Stands timing timer n' := by
  have htimer : n'.devices.timer = n.devices.timer := congrArg (·.devices.timer) hrecords
  refine h.congr (congrArg Records.bus hrecords) ?_ ?_ ?_
  · rw [htimer]
  · rw [htimer]
  · rw [htimer, h.armed]

/-- The next byte opens a frame exactly when the timer is stopped: a timer that runs has not gone
past the gap. -/
theorem isNewFrame_busStatus [InterruptControl M] : n.busStatus.isNewFrame = timer.isNone := by
  rw [busStatus, RxStatus.isNewFrame_encode, GapDetector.startsFrame, h.running, h.timing_eq]
  cases timer with
  | none => rfl
  | some d =>
      have hcount := h.count d rfl
      have hgap := h.inGap d rfl
      have hnot : ¬ timing.interFrame < n.devices.timer.count := by
        rw [UInt16.lt_iff_toNat_lt]
        omega
      simp [hnot]

/-- A byte restarts the timer. -/
theorem byte (hbus : n'.shared.bus.timing = n.shared.bus.timing)
    (hrunning : n'.devices.timer.running = true) (hcount : n'.devices.timer.count = 0)
    (harmed : n'.devices.timer.compare = timing.interFrame) :
    Stands timing (some 0) n' where
  timing_eq := by rw [hbus, h.timing_eq]
  armed := harmed
  running := hrunning
  count := by
    rintro d ⟨⟩
    rw [hcount]
    rfl
  inGap := by
    rintro d ⟨⟩
    exact Nat.zero_le _

/-- A silence stops it. -/
theorem silence (hbus : n'.shared.bus.timing = n.shared.bus.timing)
    (hrunning : n'.devices.timer.running = false)
    (harmed : n'.devices.timer.compare = timing.interFrame) :
    Stands timing none n' where
  timing_eq := by rw [hbus, h.timing_eq]
  armed := harmed
  running := hrunning
  count := nofun
  inGap := nofun

end Stands

/-! ## Ticks -/

/-- The node after one tick of the gap timer. -/
def ticked (n : Node M Devices cap) : Node M Devices cap :=
  devicesPart.modify (Doing.elapse 1).apply n

/-- A stopped timer does not count. -/
theorem Stands.ticked_none {timing : ChannelTiming} {n : Node M Devices cap}
    (h : Stands timing none n) :
    Stands timing none n.ticked ∧ ¬ CompareMatch n.ticked.devices.timer := by
  have hsame : n.ticked.devices.timer = n.devices.timer := by
    show n.devices.timer.elapse 1 = n.devices.timer
    rw [Timer.elapse, h.running]
    rfl
  refine ⟨h.congr rfl ?_ ?_ ?_, fun hmatch => ?_⟩
  · rw [hsame]
  · rw [hsame]
  · rw [hsame, h.armed]
  · rw [hsame] at hmatch
    cases h.running.symm.trans hmatch.1

/-- A running timer counts the tick. It reaches its compare value with the last tick of the gap. -/
theorem Stands.ticked_some {timing : ChannelTiming} {d : Nat} {n : Node M Devices cap}
    (h : Stands timing (some d) n) (hopen : d < timing.interFrame.toNat) :
    (CompareMatch n.ticked.devices.timer ↔ d + 1 = timing.interFrame.toNat) ∧
      Stands timing (some (d + 1)) n.ticked := by
  have hd := h.count d rfl
  have hfits := timing.interFrame.toNat_lt
  have hticked : n.ticked.devices.timer =
      { n.devices.timer with count := Timer.addHeld n.devices.timer.count 1 } := by
    show n.devices.timer.elapse 1 = _
    rw [Timer.elapse, if_pos (show n.devices.timer.running = true from h.running)]
  have hcount : n.ticked.devices.timer.count.toNat = d + 1 := by
    have hheld := Timer.toNat_addHeld n.devices.timer.count 1
    rw [hd, UInt16.toNat_one] at hheld
    have hmin : min 65535 (d + 1) = d + 1 := by omega
    rw [hticked, ← hmin, ← hheld]
  have harmed : n.ticked.devices.timer.compare = timing.interFrame := by
    rw [hticked, ← h.armed]
  have hrunning : n.ticked.devices.timer.running = true := by
    rw [hticked]
    exact h.running
  constructor
  · rw [CompareMatch, ← UInt16.toNat_inj, hcount, harmed]
    exact and_iff_right hrunning
  · refine ⟨h.timing_eq, harmed, hrunning, ?_, ?_⟩
    · rintro _ ⟨⟩
      exact hcount
    · rintro _ ⟨⟩
      exact hopen

/-! ## Quiet surroundings -/

variable [InterruptControl M]

/-- A call leaves the compare value alone, or sets it to the gap once more. -/
theorem Stands.armed_reached {timing : ChannelTiming} {timer : Option Nat} {n : Node M Devices cap}
    (h : Stands timing timer n) (c : Call) :
    (start c n).reached.devices.timer.compare = timing.interFrame := by
  by_cases hbyte : c = .busInterrupt
  · subst hbyte
    exact h.armed
  · by_cases hsilence : c = .silenceInterrupt
    · subst hsilence
      exact h.armed
    · obtain ⟨-, htimer | htimer⟩ := timer_reached hbyte hsilence n
      · rw [htimer, h.armed]
      · rw [htimer, h.timing_eq]

/-- Quiet surroundings leave the frame as it stands. -/
theorem Stands.run {timing : ChannelTiming} {timer : Option Nat}
    {t : CallTree interface Doing (Node M Devices cap)} (ht : t.Only Quiet Timeless)
    {n : Node M Devices cap} (h : Stands timing timer n) :
    Stands timing timer (t.run (onBench M cap) n) := by
  refine ht.keeps ?_ ?_ ?_ h
  · intro c n hc h
    obtain ⟨hbus, hrunning, hcount⟩ := bus_reached hc.1 hc.2 n
    exact h.congr hbus hrunning hcount (h.armed_reached c)
  · intro c n hook n' resume inside hs hinside
    exact hinside.of_records_eq (records_resume c hs inside)
  · intro e n he h
    cases e with
    | consoleByte | busByte => exact h.congr rfl rfl rfl h.armed
    | elapse => cases he

/-- Quiet surroundings show nothing on the time line. -/
theorem marks_quiet {t : CallTree interface Doing (Node M Devices cap)}
    (ht : t.Only Quiet Timeless) (k : Nat) (n : Node M Devices cap) :
    marks (t.momentsFrom (onBench M cap) k n) = [] := by
  have hmoments := ht.moments (C := onBench M cap) k n
  have hrun := runs_momentsFrom (onBench M cap) t k n
  rw [marks, List.filterMap_eq_nil_iff]
  intro m hm
  cases m with
  | began | left | returned => rfl
  | acted e u =>
      have he := (hmoments _ hm).2 e u rfl
      cases e with
      | consoleByte | busByte => rfl
      | elapse => cases he
  | entered j hook u =>
      -- the hook belongs to a call that began in the tree
      obtain ⟨past, future, hsplit⟩ := List.append_of_mem hm
      obtain ⟨earlier, c, begun, resume, hpast, hs⟩ := hrun.entered_after_began hsplit
      have hbegan : .began j c begun ∈ t.momentsFrom (onBench M cap) k n := by
        rw [hsplit, hpast]
        simp
      have hc := (hmoments _ hbegan).1 j c begun rfl
      cases enters_of_start hs with
      | busByte => exact absurd rfl hc.1
      | busSilence => exact absurd rfl hc.2
      | consoleByte | task | masked => rfl

/-! ## The interrupts of the bus -/

section Interrupts

variable {timing : ChannelTiming} {timer : Option Nat} {n n' : Node M Devices cap}
  {inside : Hook → CallTree interface Doing (Node M Devices cap)}
  (hinside : ∀ hook, (inside hook).Only Quiet Timeless)

include hinside

/-- Of a call whose hook is quiet, the time line shows the entry of the hook. -/
theorem marks_entering {c : Call} {hook : Hook}
    {resume : Node M Devices cap → Answer c × Node M Devices cap}
    (hs : start c n = .entering hook n' resume)
    (next : Answer c → CallTree interface Doing (Node M Devices cap)) (k : Nat) :
    let after := resume ((inside hook).run (onBench M cap) n')
    ∃ j, marks ((CallTree.call (I := interface) c inside next).momentsFrom (onBench M cap) k n) =
      (frameMark? (.entered k hook n')).toList ++
        marks ((next after.1).momentsFrom (onBench M cap) j after.2) := by
  intro after
  have hstart : (onBench M cap).start c n = .entering hook n' resume := hs
  have hlive : ∀ u, (onBench M cap).halted u = false := fun _ => rfl
  refine ⟨k + 1 + calls ((inside hook).momentsFrom (onBench M cap) (k + 1) n'), ?_⟩
  simp only [CallTree.momentsFrom, hlive, Bool.false_eq_true, if_false, hstart, marks_cons,
    marks_append, marks_quiet (hinside hook), frameMark?, Option.toList_none, List.nil_append,
    List.append_nil]
  rfl

variable (h : Stands timing timer n)

include h

/-- A byte shows whether it opens a frame, and the frame is open after it. -/
theorem marks_busInterrupt
    (next : RxStatus → CallTree interface Doing (Node M Devices cap)) (k : Nat) :
    ∃ status j after, Stands timing (some 0) after ∧
      marks ((CallTree.call (I := interface) .busInterrupt inside next).momentsFrom
          (onBench M cap) k n) =
        .byte timer.isNone :: marks ((next status).momentsFrom (onBench M cap) j after) := by
  obtain ⟨n', hs, hbus, hrunning, hcount⟩ := start_busInterrupt n
  have harmed := h.armed_reached .busInterrupt
  rw [hs] at harmed
  have hentered : Stands timing (some 0) n' := h.byte (by rw [hbus]) hrunning hcount harmed
  obtain ⟨j, hmarks⟩ := marks_entering hinside hs next k
  rw [← h.isNewFrame_busStatus]
  exact ⟨n.busStatus, j, _, hentered.run (hinside _), hmarks⟩

/-- A silence closes the frame. -/
theorem marks_silenceInterrupt
    (next : Unit → CallTree interface Doing (Node M Devices cap)) (k : Nat) :
    ∃ j after, Stands timing none after ∧
      marks ((CallTree.call (I := interface) .silenceInterrupt inside next).momentsFrom
          (onBench M cap) k n) =
        .silence :: marks ((next ()).momentsFrom (onBench M cap) j after) := by
  obtain ⟨n', hs, hbus, hrunning⟩ := start_silenceInterrupt n
  have harmed := h.armed_reached .silenceInterrupt
  rw [hs] at harmed
  have hentered : Stands timing none n' := h.silence (by rw [hbus]) hrunning harmed
  obtain ⟨j, hmarks⟩ := marks_entering hinside hs next k
  exact ⟨j, _, hentered.run (hinside _), hmarks⟩

end Interrupts

/-! ## Every schedule -/

/-- The time line of a run is the one of its gap timer. -/
theorem marks_served {timing : ChannelTiming} {arrivals : List (Arrival M cap)}
    (hunhurried : ∀ a ∈ arrivals, a.Unhurried) {timer : Option Nat} {n : Node M Devices cap}
    (h : Stands timing timer n) (hopen : ∀ d ∈ timer, d < timing.interFrame.toNat) (k : Nat) :
    marks ((served arrivals).momentsFrom (onBench M cap) k n) =
      FrameMark.timeline timing.interFrame.toNat timer (arrivals.filterMap Arrival.signal?) := by
  -- induction on what arrives, each time from the node that the last arrival has left
  induction arrivals generalizing timer n k with
  | nil => cases timer <;> rfl
  | cons arrival rest ih =>
      have harrival := hunhurried arrival List.mem_cons_self
      have hrest : ∀ a ∈ rest, a.Unhurried := fun a ha => hunhurried a (List.mem_cons_of_mem _ ha)
      have hstopped : ∀ d ∈ (none : Option Nat), d < timing.interFrame.toNat := nofun
      cases arrival with
      | byte value errors inside =>
          have hcome : Stands timing timer
              (devicesPart.modify (Doing.busByte value errors).apply n) :=
            h.congr rfl rfl rfl h.armed
          obtain ⟨status, j, after, hafter, hmarks⟩ :=
            marks_busInterrupt harrival hcome (fun _ => served rest) k
          have hgap : ∀ d ∈ some 0, d < timing.interFrame.toNat := by
            rintro d ⟨⟩
            have hordered := UInt16.lt_iff_toNat_lt.1 timing.ordered
            omega
          rw [ih hrest hafter hgap j] at hmarks
          refine hmarks.trans ?_
          cases timer <;> rfl
      | tick inside =>
          have htick : marks ((served (.tick inside :: rest)).momentsFrom (onBench M cap) k n) =
              .tick :: marks ((if CompareMatch n.ticked.devices.timer then
                  CallTree.call (I := interface) .silenceInterrupt inside fun _ => served rest
                else served rest).momentsFrom (onBench M cap) k n.ticked) := rfl
          rw [htick]
          cases timer with
          | none =>
              obtain ⟨hticked, hearly⟩ := h.ticked_none
              rw [if_neg hearly, ih hrest hticked hstopped]
              rfl
          | some d =>
              obtain ⟨hmatch, hticked⟩ := h.ticked_some (hopen d rfl)
              show _ = FrameMark.timeline _ (some d) (.tick :: rest.filterMap Arrival.signal?)
              rw [FrameMark.timeline]
              by_cases hd : d + 1 = timing.interFrame.toNat
              · -- the tick completes the gap, and its silence is served before anything else
                obtain ⟨j, after, hafter, hmarks⟩ :=
                  marks_silenceInterrupt harrival hticked (fun _ => served rest) k
                rw [if_pos (hmatch.2 hd), if_pos hd, hmarks, ih hrest hafter hstopped]
              · have hearly : ∀ e ∈ some (d + 1), e < timing.interFrame.toNat := by
                  rintro e ⟨⟩
                  have := hopen d rfl
                  omega
                rw [if_neg (mt hmatch.1 hd), if_neg hd, ih hrest hticked hearly]
      | other doings =>
          show marks ((doings.followedBy (served rest)).momentsFrom (onBench M cap) k n) = _
          rw [CallTree.momentsFrom_followedBy, marks_append, marks_quiet harrival,
            ih hrest (h.run harrival) hopen]
          rfl

/-- The bus of a node in any state whose gap timer is stopped. Once the timer is armed, and with
every byte and every compare match served in time, the callbacks of the bus keep the laws of frames
for the gap of the channel, whatever arrives; and the time line shows every byte and every tick that
came. -/
theorem frames_bracketed (n : Node M Devices cap) (hstopped : n.devices.timer.running = false)
    (arrivals : List (Arrival M cap)) (hunhurried : ∀ a ∈ arrivals, a.Unhurried) :
    let t : CallTree interface Doing (Node M Devices cap) :=
      .call .armGapTimer (fun _ => .done) fun _ => served arrivals
    let history := t.moments (onBench M cap) n
    FrameMark.Laws n.shared.bus.timing.interFrame.toNat (marks history) ∧
      (marks history).filterMap FrameMark.signal? = arrivals.filterMap Arrival.signal? := by
  intro t history
  have harmed : Stands n.shared.bus.timing none (start .armGapTimer n).reached :=
    ⟨rfl, rfl, hstopped, nofun, nofun⟩
  have hmarks : marks history = FrameMark.timeline n.shared.bus.timing.interFrame.toNat none
      (arrivals.filterMap Arrival.signal?) :=
    marks_served hunhurried harmed nofun 2
  have hgap : 0 < n.shared.bus.timing.interFrame.toNat := by
    have hordered := UInt16.lt_iff_toNat_lt.1 n.shared.bus.timing.ordered
    omega
  rw [hmarks]
  exact ⟨FrameMark.timeline_laws hgap _, FrameMark.timeline_signals ..⟩

/-- Two bytes of a frame, its silence, and the first byte of the next one, for a gap of three ticks.
The callback of a byte reads the console. -/
theorem frames_bracketed_two_frames :
    let timing : ChannelTiming := ⟨1, 3, by decide⟩
    let n : Node Control Devices 4 := Node.new { enabled := true } timing {} 4 (by decide)
    let reading : Hook → CallTree interface Doing (Node Control Devices 4) :=
      fun _ => .call .read (fun _ => .done) fun _ => .done
    let arrivals : List (Arrival Control 4) :=
      [.byte 7 {} reading, .tick reading, .byte 8 {} reading, .tick reading, .tick reading,
        .tick reading, .byte 9 {} reading]
    let t : CallTree interface Doing (Node Control Devices 4) :=
      .call .armGapTimer (fun _ => .done) fun _ => served arrivals
    n.devices.timer.running = false ∧ (∀ a ∈ arrivals, a.Unhurried) ∧
      FrameMark.Laws 3 (marks (t.moments (onBench Control 4) n)) ∧
      marks (t.moments (onBench Control 4) n) =
        [.byte true, .tick, .byte false, .tick, .tick, .tick, .silence, .byte true] := by
  intro timing n reading arrivals t
  have hreading : ∀ hook, (reading hook).Only Quiet Timeless := by
    simp [reading, CallTree.Only, Quiet]
  have hunhurried : ∀ a ∈ arrivals, a.Unhurried := by
    simp [arrivals, Arrival.Unhurried, hreading]
  exact ⟨rfl, hunhurried, (frames_bracketed n rfl arrivals hunhurried).1,
    by decide +kernel⟩

end SerialGateway.Node
