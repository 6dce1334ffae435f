import SerialGateway.Bench.Devices
import SerialGateway.Proofs.Board.Registers
import SerialGateway.Proofs.Bus.Silence
import SerialGateway.Settings

/-!
# The timer of the board as the timer of the bench

The bench measures silences with a count of 16 bits that 65535 holds. The board measures them with a
count of 32 bits that is cut on reading, and with a running bit in a control word that holds more
than this bit. Whatever is done to both, by their owner or by a frame detector, and however much
time passes in between, the two give the same replies (`serve_eq_bench`), as long as the count of
the board has room for the ticks that pass.

`Mirrors` relates the two, and `SameElsewhere` says what of the memory stays as it was.
-/

set_option autoImplicit false

namespace SerialGateway

/-- A gap timer in a world in which time passes. -/
structure ClockedTimer (D : Type) extends GapTimer D where
  /-- Let ticks pass. -/
  elapse : UInt16 → D → D

namespace ClockedTimer

variable {D D' : Type}

/-- What can happen to a gap timer: it is used by its owner, it is used by a frame detector, or time
passes. -/
inductive Request where
  | restart
  | stop
  | setCompare (ticks : UInt16)
  | isRunning
  | count
  | byte (errors : LineErrors)
  | timeout
  | pass (ticks : UInt16)
  deriving DecidableEq, Repr

/-- What is answered. -/
inductive Reply where
  | none
  | running (yes : Bool)
  | counted (ticks : UInt16)
  | classified (status : RxStatus)
  deriving DecidableEq, Repr

/-- One request to a timer and its detector. -/
def answer (timer : ClockedTimer D) (g : GapDetector) (d : D) :
    Request → Reply × GapDetector × D
  | .restart => (.none, g, timer.restart d)
  | .stop => (.none, g, timer.stop d)
  | .setCompare ticks => (.none, g, timer.setCompare ticks d)
  | .isRunning => (.running (timer.running d), g, d)
  | .count => (.counted (timer.count d), g, d)
  | .byte errors =>
      let classified := g.onByte timer.toGapTimer errors d
      (.classified classified.1, classified.2)
  | .timeout => (.none, g, g.onTimeout timer.toGapTimer d)
  | .pass ticks => (.none, g, timer.elapse ticks d)

/-- The replies to a sequence of requests, and the state after it. -/
def serve (timer : ClockedTimer D) : List Request → GapDetector → D → List Reply × GapDetector × D
  | [], g, d => ([], g, d)
  | request :: rest, g, d =>
      let first := timer.answer g d request
      let later := timer.serve rest first.2.1 first.2.2
      (first.1 :: later.1, later.2)

/-- Wherever ticks pass in a sequence of requests, there is room for them. -/
def HasRoom (timer : ClockedTimer D) (room : UInt16 → D → Prop) :
    List Request → GapDetector → D → Prop
  | [], _, _ => True
  | request :: rest, g, d =>
      let first := timer.answer g d request
      (∀ ticks, request = .pass ticks → room ticks d) ∧ timer.HasRoom room rest first.2.1 first.2.2

/-- Under `R`, one timer cannot be told from another one, as long as it has room for the ticks that
pass. -/
structure Simulates (timer : ClockedTimer D) (room : UInt16 → D → Prop) (timer' : ClockedTimer D')
    (R : D → D' → Prop) : Prop where
  running : ∀ {d d'}, R d d' → timer.running d = timer'.running d'
  count : ∀ {d d'}, R d d' → timer.count d = timer'.count d'
  restart : ∀ {d d'}, R d d' → R (timer.restart d) (timer'.restart d')
  stop : ∀ {d d'}, R d d' → R (timer.stop d) (timer'.stop d')
  setCompare : ∀ {d d'} (ticks), R d d' → R (timer.setCompare ticks d) (timer'.setCompare ticks d')
  elapse : ∀ {d d'} (ticks), R d d' → room ticks d →
    R (timer.elapse ticks d) (timer'.elapse ticks d')

namespace Simulates

variable {timer : ClockedTimer D} {room : UInt16 → D → Prop} {timer' : ClockedTimer D'}
  {R : D → D' → Prop} (h : Simulates timer room timer' R)

include h

/-- Every request is answered alike, leaves the same detector, and keeps the relation. -/
theorem answer {d : D} {d' : D'} (hd : R d d') (g : GapDetector) (request : Request)
    (hroom : ∀ ticks, request = .pass ticks → room ticks d) :
    (timer.answer g d request).1 = (timer'.answer g d' request).1 ∧
      (timer.answer g d request).2.1 = (timer'.answer g d' request).2.1 ∧
      R (timer.answer g d request).2.2 (timer'.answer g d' request).2.2 := by
  cases request with
  | restart => exact ⟨rfl, rfl, h.restart hd⟩
  | stop => exact ⟨rfl, rfl, h.stop hd⟩
  | setCompare ticks => exact ⟨rfl, rfl, h.setCompare ticks hd⟩
  | isRunning => exact ⟨congrArg Reply.running (h.running hd), rfl, hd⟩
  | count => exact ⟨congrArg Reply.counted (h.count hd), rfl, hd⟩
  | byte errors =>
      -- the decision is taken on the timer before it is restarted
      have hstarts : g.startsFrame (timer.running d) (timer.count d) =
          g.startsFrame (timer'.running d') (timer'.count d') := by
        rw [h.running hd, h.count hd]
      refine ⟨congrArg Reply.classified ?_, rfl, h.restart hd⟩
      exact congrArg (RxStatus.encode · errors) hstarts
  | timeout => exact ⟨rfl, rfl, h.stop hd⟩
  | pass ticks => exact ⟨rfl, rfl, h.elapse ticks hd (hroom ticks rfl)⟩

theorem serve (requests : List Request) {d : D} {d' : D'} (hd : R d d') (g : GapDetector)
    (hroom : timer.HasRoom room requests g d) :
    (timer.serve requests g d).1 = (timer'.serve requests g d').1 ∧
      (timer.serve requests g d).2.1 = (timer'.serve requests g d').2.1 ∧
      R (timer.serve requests g d).2.2 (timer'.serve requests g d').2.2 := by
  -- the relation is kept from request to request, and with it the detectors stay the same
  induction requests generalizing d d' g with
  | nil => exact ⟨rfl, rfl, hd⟩
  | cons request rest ih =>
      obtain ⟨hfirst, hlater⟩ := hroom
      obtain ⟨hreply, hdetector, hnext⟩ := h.answer hd g request hfirst
      obtain ⟨hreplies, hend⟩ := ih hnext _ hlater
      simp only [ClockedTimer.serve]
      rw [← hdetector, hreply, hreplies]
      exact ⟨rfl, hend⟩

end Simulates

end ClockedTimer

/-- The timer of the bench, when time passes as the bench says. -/
def Bench.Timer.clocked : ClockedTimer Timer where
  toGapTimer := gapTimer
  elapse := elapse

namespace SilenceTimer

/-! ## The timer of the board when time passes -/

/-- Let ticks pass: the hardware counts them while the timer runs. -/
def elapse (ticks : UInt16) (m : Memory) : Memory :=
  if isRunning m then m.modify countReg (· + ticks.toUInt32) else m

/-- The timer of the board, when time passes in its hardware. -/
def clocked : ClockedTimer Memory where
  toGapTimer := gapTimer
  elapse := elapse

/-- The count does not start over when the ticks pass. -/
def Room (ticks : UInt16) (m : Memory) : Prop :=
  isRunning m = true → (m.read countReg).toNat + ticks.toNat < 2 ^ 32

/-- A memory shows the timer of the bench: its running bit, its count as far as 16 bits can tell,
and its compare value. -/
structure Mirrors (m : Memory) (t : Bench.Timer) : Prop where
  running : m.bit controlReg 0 = t.running
  count : min (m.read countReg).toNat 65535 = t.count.toNat
  compare : (m.read compareReg).toNat = t.compare.toNat

/-- A memory differs from another one in the words of the timer only, and of the control word in the
running bit only. -/
structure SameElsewhere (old m : Memory) : Prop where
  control : ∀ i, i ≠ 0 → m.bit controlReg i = old.bit controlReg i
  words : ∀ a, a ∉ [countReg, statusReg, controlReg, compareReg] → m.read a = old.read a

/-! ## One request -/

theorem elapse_words (m : Memory) (ticks : UInt16) {a : Address} (ha : a ≠ countReg) :
    (elapse ticks m).read a = m.read a := by
  rw [elapse]
  split
  · exact m.read_write_of_ne ha _
  · rfl

/-- Ticks that pass are counted by a running timer. -/
theorem elapse_count {ticks : UInt16} {m : Memory} (hroom : Room ticks m) :
    ((elapse ticks m).read countReg).toNat =
      (m.read countReg).toNat + if m.bit controlReg 0 then ticks.toNat else 0 := by
  rw [← isRunning_eq, elapse]
  split
  · next hrunning =>
    rw [Memory.modify, Memory.read_write_self, UInt32.toNat_add, UInt16.toNat_toUInt32,
      Nat.mod_eq_of_lt (hroom hrunning)]
  · rfl

namespace Mirrors

variable {m : Memory} {t : Bench.Timer} (h : Mirrors m t)

include h

theorem isRunning_eq : isRunning m = t.running :=
  (SilenceTimer.isRunning_eq m).trans h.running

/-- What the board cuts on reading is what the bench holds. -/
theorem count_eq : SilenceTimer.count m = t.count := by
  rw [← UInt16.toNat_inj, SilenceTimer.count, toNat_clampCount, ← h.count, Nat.min_comm]

theorem restart : Mirrors (restart m) (Bench.Timer.gapTimer.restart t) where
  running := by simp [restart_bit, Bench.Timer.gapTimer]
  count := by
    rw [restart_count]
    rfl
  compare := by
    rw [restart_words m (by decide)]
    exact h.compare

theorem stop : Mirrors (stop m) (Bench.Timer.gapTimer.stop t) where
  running := by simp [stop_bit, Bench.Timer.gapTimer]
  count := by
    rw [stop_words m (by decide)]
    exact h.count
  compare := by
    rw [stop_words m (by decide)]
    exact h.compare

theorem setCompare (ticks : UInt16) :
    Mirrors (setCompare ticks m) (Bench.Timer.gapTimer.setCompare ticks t) where
  running := by
    rw [Memory.bit, setCompare_words m ticks (by decide)]
    exact h.running
  count := by
    rw [setCompare_words m ticks (by decide)]
    exact h.count
  compare := by
    rw [SilenceTimer.setCompare, Memory.read_write_self, UInt16.toNat_toUInt32]
    rfl

/-- The sum of the board is not held, but it reads as the sum that the bench holds. -/
theorem elapse {ticks : UInt16} (hroom : Room ticks m) :
    Mirrors (elapse ticks m) (t.elapse ticks) where
  running := by
    rw [Memory.bit, elapse_words m ticks (by decide), Bench.Timer.elapse]
    split
    · exact h.running
    · exact h.running
  count := by
    have hcount := h.count
    rw [elapse_count hroom, h.running, Bench.Timer.elapse]
    split
    · -- up to 65535 both sums are exact, and beyond it both read as 65535
      rw [Bench.Timer.toNat_addHeld]
      omega
    · exact hcount
  compare := by
    rw [elapse_words m ticks (by decide), Bench.Timer.elapse]
    split
    · exact h.compare
    · exact h.compare

end Mirrors

namespace SameElsewhere

variable {old m m' : Memory}

theorem refl (m : Memory) : SameElsewhere m m := ⟨fun _ _ => rfl, fun _ _ => rfl⟩

theorem trans (h : SameElsewhere old m) (h' : SameElsewhere m m') : SameElsewhere old m' where
  control i hi := (h'.control i hi).trans (h.control i hi)
  words a ha := (h'.words a ha).trans (h.words a ha)

theorem restart (m : Memory) : SameElsewhere m (restart m) where
  control i hi := by simp [restart_bit, hi.symm]
  words a ha := restart_words m fun hmem => ha (List.mem_append_left [compareReg] hmem)

theorem stop (m : Memory) : SameElsewhere m (stop m) where
  control i hi := by simp [stop_bit, hi.symm]
  words a ha := stop_words m (by grind)

/-- A change of another word of the timer leaves the control word alone. -/
theorem of_words (hcontrol : m'.read controlReg = m.read controlReg)
    (hwords : ∀ a, a ∉ [countReg, statusReg, controlReg, compareReg] → m'.read a = m.read a) :
    SameElsewhere m m' where
  control i _ := by rw [Memory.bit, hcontrol, Memory.bit]
  words := hwords

theorem setCompare (ticks : UInt16) (m : Memory) : SameElsewhere m (setCompare ticks m) :=
  of_words (setCompare_words m ticks (by decide)) fun a ha =>
    setCompare_words m ticks (by grind)

theorem elapse (ticks : UInt16) (m : Memory) : SameElsewhere m (elapse ticks m) :=
  of_words (elapse_words m ticks (by decide)) fun a ha => elapse_words m ticks (by grind)

end SameElsewhere

/-! ## Every sequence of requests -/

theorem simulates (old : Memory) :
    clocked.Simulates Room Bench.Timer.clocked fun m t => SameElsewhere old m ∧ Mirrors m t where
  running h := h.2.isRunning_eq
  count h := h.2.count_eq
  restart h := ⟨h.1.trans (.restart _), h.2.restart⟩
  stop h := ⟨h.1.trans (.stop _), h.2.stop⟩
  setCompare ticks h := ⟨h.1.trans (.setCompare ticks _), h.2.setCompare ticks⟩
  elapse ticks h hroom := ⟨h.1.trans (.elapse ticks _), h.2.elapse hroom⟩

/-- From every memory that shows a timer of the bench, and for every sequence of requests: the board
gives the replies of the bench, whose detector goes the same way; the memory still shows the timer
of the bench; no bit of the control word has changed but the running bit; and no word of the memory
has changed but those of the timer. -/
theorem serve_eq_bench {m : Memory} {t : Bench.Timer} (h : Mirrors m t) (g : GapDetector)
    (requests : List ClockedTimer.Request) (hroom : clocked.HasRoom Room requests g m) :
    let board := clocked.serve requests g m
    let bench := Bench.Timer.clocked.serve requests g t
    board.1 = bench.1 ∧ board.2.1 = bench.2.1 ∧ Mirrors board.2.2 bench.2.2 ∧
      (∀ i, i ≠ 0 → board.2.2.bit controlReg i = m.bit controlReg i) ∧
      ∀ a, a ∉ [countReg, statusReg, controlReg, compareReg] → board.2.2.read a = m.read a := by
  intro board bench
  obtain ⟨hreplies, hdetector, hsame, hmirrors⟩ :=
    (simulates m).serve requests ⟨.refl m, h⟩ g hroom
  exact ⟨hreplies, hdetector, hmirrors, hsame.control, hsame.words⟩

/-- A silence of 131070 ticks with the timer running, which no longer fits 16 bits, and then a stop
and ticks that do not count. -/
theorem serve_eq_bench_long_silence :
    let m : Memory := ⟨[(controlReg, 0x81), (countReg, 3), (compareReg, 65535)]⟩
    let t : Bench.Timer := { running := true, count := 3 }
    let requests : List ClockedTimer.Request :=
      [.pass 65535, .pass 65535, .count, .byte { parity := true }, .setCompare 1822, .pass 7, .stop,
        .pass 9, .isRunning, .count, .byte .clean, .timeout]
    let board := clocked.serve requests { timing := Settings.busTiming } m
    Mirrors m t ∧ clocked.HasRoom Room requests { timing := Settings.busTiming } m ∧
      board.1 = [.none, .none, .counted 65535, .classified ⟨35⟩, .none, .none, .none, .none,
        .running false, .counted 7, .classified ⟨1⟩, .none] ∧
      board.2.2.bit controlReg 7 = true := by
  intro m t requests board
  have hmirrors : Mirrors m t := ⟨by decide, by decide, by decide⟩
  have hroom : clocked.HasRoom Room requests { timing := Settings.busTiming } m := by
    simp only [requests, ClockedTimer.HasRoom, ClockedTimer.Request.pass.injEq, forall_eq',
      reduceCtorEq, false_implies, implies_true, true_and, and_true, Room]
    decide +kernel
  obtain ⟨hreplies, -, -, hcontrol, -⟩ := serve_eq_bench hmirrors _ requests hroom
  exact ⟨hmirrors, hroom, hreplies.trans (by decide),
    (hcontrol 7 (by decide)).trans (by decide)⟩

end SilenceTimer

end SerialGateway
