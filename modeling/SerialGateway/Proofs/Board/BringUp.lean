import SerialGateway.Proofs.Board.BusReception
import SerialGateway.Proofs.Board.Fields

/-!
# Taking the board

The board is brought up once, by the first who asks for it. Some of the registers that are written
then belong to the gateway alone and get fixed values. The clock and pin registers are shared with
devices and pins that are none of the gateway's business, and of these only the gateway's own bits
and fields change, whatever else they hold (`Board.broughtUp_bringUp`). Whoever asks later gets
nothing and changes nothing, whatever has happened in between (`Gateway.board_taken_once`).
-/

set_option autoImplicit false

namespace SerialGateway

open History

namespace Board

/-! ## What bringing up writes -/

/-- The registers of the gateway alone, and their values once the board is up: the two serial units
with their bit rates, and the silence timer, which does not count. -/
def settledRegs : List (Address × Word) :=
  [(Uart.console.rateReg, 139), (Uart.console.controlReg, 0x200C),
    (Uart.bus.rateReg, 833), (Uart.bus.controlReg, 0x2004),
    (SilenceTimer.controlReg, 0), (SilenceTimer.prescalerReg, 15),
    (SilenceTimer.reloadReg, 0xFFFFFFFF), (SilenceTimer.eventReg, 1), (SilenceTimer.statusReg, 0)]

/-- The registers that the gateway shares with others. -/
def sharedRegs : List Address :=
  [pinClockReg, slowClockReg, fastClockReg, pinModeReg, lowFunctionReg, highFunctionReg]

/-- From `old` to `m` the board was brought up. Of the shared registers, a clock bit is set or as it
was, and the field of a pin is the gateway's or as it was. Pins 8 to 15 have their alternate
functions in a register of their own. -/
structure BroughtUp (old m : Memory) : Prop where
  pinClock : ∀ i, m.bit pinClockReg i = (old.bit pinClockReg i || decide (i = 0))
  slowClock : ∀ i, m.bit slowClockReg i = (old.bit slowClockReg i || decide (i = 0 ∨ i = 17))
  fastClock : ∀ i, m.bit fastClockReg i = (old.bit fastClockReg i || decide (i = 4))
  pinMode : ∀ pin, (m.read pinModeReg).field 2 pin =
    if pin ∈ [2, 3, 10] then 2 else (old.read pinModeReg).field 2 pin
  lowFunction : ∀ pin, (m.read lowFunctionReg).field 4 pin =
    if pin ∈ [2, 3] then 7 else (old.read lowFunctionReg).field 4 pin
  highFunction : ∀ pin, 8 ≤ pin → (m.read highFunctionReg).field 4 (pin - 8) =
    if pin = 10 then 7 else (old.read highFunctionReg).field 4 (pin - 8)
  settled : ∀ reg ∈ settledRegs, m.read reg.1 = reg.2
  timerStopped : SilenceTimer.isRunning m = false
  words : ∀ a, a ∉ sharedRegs ++ settledRegs.map Prod.fst → m.read a = old.read a

section

variable (m : Memory)

/-! ### Clocks -/

theorem changesOnly_enableClocks :
    m.ChangesOnly [pinClockReg, slowClockReg, fastClockReg] (enableClocks m) :=
  ((m.changesOnly_write pinClockReg _).write slowClockReg _).write fastClockReg _

theorem enableClocks_pinClock (i : Nat) :
    (enableClocks m).bit pinClockReg i = (m.bit pinClockReg i || decide (i = 0)) := by
  have hread : (enableClocks m).read pinClockReg = m.read pinClockReg ||| Word.bit 0 := by
    simp (disch := decide) only [enableClocks, Memory.setBits, Memory.modify,
      Memory.read_write_self, Memory.read_write_of_ne]
  rw [Memory.bit, hread, Word.testBit_or_bit (by decide)]
  simp [Memory.bit, eq_comm]

theorem enableClocks_slowClock (i : Nat) :
    (enableClocks m).bit slowClockReg i = (m.bit slowClockReg i || decide (i = 0 ∨ i = 17)) := by
  have hread : (enableClocks m).read slowClockReg =
      m.read slowClockReg ||| Word.bit 17 ||| Word.bit 0 := by
    simp (disch := decide) only [enableClocks, Memory.setBits, Memory.modify,
      Memory.read_write_self, Memory.read_write_of_ne, UInt32.or_assoc]
  rw [Memory.bit, hread, Word.testBit_or_bit (by decide), Word.testBit_or_bit (by decide)]
  simp [Memory.bit, eq_comm, Bool.or_assoc, Bool.or_comm]

theorem enableClocks_fastClock (i : Nat) :
    (enableClocks m).bit fastClockReg i = (m.bit fastClockReg i || decide (i = 4)) := by
  have hread : (enableClocks m).read fastClockReg = m.read fastClockReg ||| Word.bit 4 := by
    simp (disch := decide) only [enableClocks, Memory.setBits, Memory.modify,
      Memory.read_write_self, Memory.read_write_of_ne]
  rw [Memory.bit, hread, Word.testBit_or_bit (by decide)]
  simp [Memory.bit, eq_comm]

/-! ### Pins -/

theorem changesOnly_connectPins :
    m.ChangesOnly [pinModeReg, lowFunctionReg, highFunctionReg] (connectPins m) :=
  ((m.changesOnly_write pinModeReg _).write lowFunctionReg _).write highFunctionReg _

theorem connectPins_pinMode (pin : Nat) :
    ((connectPins m).read pinModeReg).field 2 pin =
      if pin ∈ [2, 3, 10] then 2 else (m.read pinModeReg).field 2 pin := by
  have hread : (connectPins m).read pinModeReg = setField 2 10 deviceMode
      (setField 2 3 deviceMode (setField 2 2 deviceMode (m.read pinModeReg))) := by
    simp (disch := decide) only [connectPins, Memory.modify, Memory.read_write_self,
      Memory.read_write_of_ne]
  have hfield : ∀ place : UInt32, place.toNat < 16 → ∀ v : Word,
      (setField 2 place deviceMode v).field 2 pin =
        if pin = place.toNat then 2 else v.field 2 pin := by
    intro place hplace v
    have hfits : (2 : UInt32).toNat * place.toNat + (2 : UInt32).toNat ≤ 32 := by
      show 2 * place.toNat + 2 ≤ 32
      omega
    exact field_setField (by decide) hfits (by decide) v pin
  rw [hread, hfield 10 (by decide), hfield 3 (by decide), hfield 2 (by decide)]
  have hplaces : (2 : UInt32).toNat = 2 ∧ (3 : UInt32).toNat = 3 ∧ (10 : UInt32).toNat = 10 :=
    ⟨rfl, rfl, rfl⟩
  simp only [hplaces, List.mem_cons, List.not_mem_nil, or_false]
  grind

/-- A pin of one of the two banks of alternate functions. -/
theorem field_setField_serialFunction {place : UInt32} (hplace : place.toNat < 8) (pin : Nat)
    (v : Word) :
    (setField 4 place serialFunction v).field 4 pin =
      if pin = place.toNat then 7 else v.field 4 pin := by
  have hfits : (4 : UInt32).toNat * place.toNat + (4 : UInt32).toNat ≤ 32 := by
    show 4 * place.toNat + 4 ≤ 32
    omega
  exact field_setField (by decide) hfits (by decide) v pin

theorem connectPins_lowFunction (pin : Nat) :
    ((connectPins m).read lowFunctionReg).field 4 pin =
      if pin ∈ [2, 3] then 7 else (m.read lowFunctionReg).field 4 pin := by
  have hread : (connectPins m).read lowFunctionReg =
      setField 4 3 serialFunction (setField 4 2 serialFunction (m.read lowFunctionReg)) := by
    simp (disch := decide) only [connectPins, Memory.modify, Memory.read_write_self,
      Memory.read_write_of_ne]
  rw [hread, field_setField_serialFunction (by decide), field_setField_serialFunction (by decide)]
  have hplaces : (2 : UInt32).toNat = 2 ∧ (3 : UInt32).toNat = 3 := ⟨rfl, rfl⟩
  simp only [hplaces, List.mem_cons, List.not_mem_nil, or_false]
  grind

theorem connectPins_highFunction (pin : Nat) :
    ((connectPins m).read highFunctionReg).field 4 pin =
      if pin = 2 then 7 else (m.read highFunctionReg).field 4 pin := by
  have hread : (connectPins m).read highFunctionReg =
      setField 4 2 serialFunction (m.read highFunctionReg) := by
    simp (disch := decide) only [connectPins, Memory.modify, Memory.read_write_self,
      Memory.read_write_of_ne]
  rw [hread, field_setField_serialFunction (by decide)]
  rfl

/-! ### Devices -/

theorem changesOnly_enable (u : Uart) (bitrate : UInt32) (sides : Word) :
    m.ChangesOnly [u.rateReg, u.controlReg] (u.enable bitrate sides m) :=
  (m.changesOnly_write u.rateReg _).write u.controlReg _

theorem changesOnly_prepareTimer :
    m.ChangesOnly [SilenceTimer.controlReg, SilenceTimer.prescalerReg, SilenceTimer.reloadReg,
      SilenceTimer.eventReg, SilenceTimer.statusReg] (prepareTimer m) :=
  ((((m.changesOnly_write SilenceTimer.controlReg _).write SilenceTimer.prescalerReg _).write
    SilenceTimer.reloadReg _).write SilenceTimer.eventReg _).write SilenceTimer.statusReg _

/-- After clocks and pins, the registers of the gateway alone are written, and no other ones. -/
theorem changesOnly_devices :
    (connectPins (enableClocks m)).ChangesOnly (settledRegs.map Prod.fst) (bringUp m) :=
  ((changesOnly_enable _ Uart.console _ _).trans (changesOnly_enable _ Uart.bus _ _)).trans
    (changesOnly_prepareTimer _)

theorem settled_bringUp : ∀ reg ∈ settledRegs, (bringUp m).read reg.1 = reg.2 := by
  have hconsoleRate : Uart.divisor Settings.consoleBitrate = 139 := rfl
  have hbusRate : Uart.divisor Settings.busBitrate = 833 := rfl
  have hconsoleSides : Uart.unitOn ||| (Uart.transmitterOn ||| Uart.receiverOn) = 0x200C := rfl
  have hbusSides : Uart.unitOn ||| Uart.receiverOn = 0x2004 := rfl
  have hprescaler : Settings.systemClock / Settings.gapTimerRate - 1 = 15 := rfl
  have hupdate : SilenceTimer.updateEvent = 1 := rfl
  intro reg hreg
  simp only [settledRegs, List.mem_cons, List.not_mem_nil, or_false] at hreg
  rcases hreg with rfl | rfl | rfl | rfl | rfl | rfl | rfl | rfl | rfl
  all_goals
    simp (disch := decide) only [bringUp, prepareTimer, Uart.enable, Memory.read_write_self,
      Memory.read_write_of_ne, hconsoleRate, hbusRate, hconsoleSides, hbusSides, hprescaler,
      hupdate]

/-! ## The board brought up -/

theorem notMem_of_apart {regs others : List Address}
    (h : regs.all (fun a => decide (a ∉ others)) = true) {a : Address} (ha : a ∈ regs) :
    a ∉ others :=
  of_decide_eq_true (List.all_eq_true.mp h a ha)

/-- Bringing up the board disturbs nothing that the gateway does not own. -/
theorem broughtUp_bringUp : BroughtUp m (bringUp m) := by
  -- a register is written in one of three stages, and the other two leave it alone
  have hclocks := changesOnly_enableClocks m
  have hpins := changesOnly_connectPins (enableClocks m)
  have hdevices := changesOnly_devices m
  have hclock : ∀ a ∈ [pinClockReg, slowClockReg, fastClockReg], ∀ i,
      (bringUp m).bit a i = (enableClocks m).bit a i := by
    intro a ha i
    rw [Memory.bit, hdevices a (notMem_of_apart (by decide) ha),
      hpins a (notMem_of_apart (by decide) ha)]
    rfl
  have hpin : ∀ a ∈ [pinModeReg, lowFunctionReg, highFunctionReg],
      (bringUp m).read a = (connectPins (enableClocks m)).read a ∧
        (enableClocks m).read a = m.read a := by
    intro a ha
    exact ⟨hdevices a (notMem_of_apart (by decide) ha), hclocks a (notMem_of_apart (by decide) ha)⟩
  constructor
  case pinClock => exact fun i => (hclock _ (by decide) i).trans (enableClocks_pinClock m i)
  case slowClock => exact fun i => (hclock _ (by decide) i).trans (enableClocks_slowClock m i)
  case fastClock => exact fun i => (hclock _ (by decide) i).trans (enableClocks_fastClock m i)
  case pinMode =>
    intro pin
    obtain ⟨hup, hprior⟩ := hpin pinModeReg (by decide)
    rw [hup, connectPins_pinMode, hprior]
  case lowFunction =>
    intro pin
    obtain ⟨hup, hprior⟩ := hpin lowFunctionReg (by decide)
    rw [hup, connectPins_lowFunction, hprior]
  case highFunction =>
    intro pin hpin8
    obtain ⟨hup, hprior⟩ := hpin highFunctionReg (by decide)
    rw [hup, connectPins_highFunction, hprior]
    -- pin 10 is the third one of the upper bank
    have hplace : pin - 8 = 2 ↔ pin = 10 := by omega
    simp only [hplace]
  case settled => exact settled_bringUp m
  case timerStopped =>
    have hcontrol : (bringUp m).read SilenceTimer.controlReg = 0 :=
      settled_bringUp m (SilenceTimer.controlReg, 0) (by decide)
    rw [SilenceTimer.isRunning, Memory.anyBit, hcontrol]
    rfl
  case words => exact (hclocks.trans hpins).trans hdevices

end

end Board

namespace Gateway

variable {A : Type}

/-! ## Once -/

/-- Somebody has asked for the board. -/
def BoardAsked (past : History (interface A) (Memory → Memory) (Gateway A)) : Prop :=
  ∃ k g, .began k .takeBoard g ∈ past

/-- What becomes of call `k`, which asks in `g` for the board, after `past`. The first who asks is
given the board, and nothing changes but what bringing it up writes to the memory. All others are
given nothing, and nothing changes at all. -/
structure BoardLaw (past : History (interface A) (Memory → Memory) (Gateway A)) (k : Nat)
    (g : Gateway A) (future : History (interface A) (Memory → Memory) (Gateway A)) : Prop where
  first : ¬ BoardAsked past → ∃ m rest,
    future = .returned k .takeBoard true
      { g with node := { g.node with devices := m }, boardTaken := true } :: rest ∧
    Board.BroughtUp g.node.devices m
  later : BoardAsked past → ∃ rest, future = .returned k .takeBoard false g :: rest

theorem modify_memory (f : Memory → Memory) (g : Gateway A) :
    memoryPart.modify f g = { g with node := { g.node with devices := f g.node.devices } } := rfl

theorem takeBoard_of_free {g : Gateway A} (h : ¬ g.boardTaken = true) :
    g.takeBoard = (true, { g with
      node := { g.node with devices := Board.bringUp g.node.devices }, boardTaken := true }) := by
  rw [takeBoard, if_neg h, modify_memory]

theorem takeBoard_of_taken {g : Gateway A} (h : g.boardTaken = true) : g.takeBoard = (false, g) :=
  if_pos h

/-- Whoever asks for the board sees that it is taken from then on. -/
def boardAsked? : Call A → Gateway A → Option Bool
  | .takeBoard, _ => some true
  | .register _, _ | .startTick, _ | .reset, _ | .node _, _ => none

theorem asked_of_seen {past : History (interface A) (Memory → Memory) (Gateway A)} {taken : Bool}
    (hseen : taken ∈ past.seen boardAsked?) : taken = true ∧ BoardAsked past := by
  obtain ⟨now, hnow, hcall⟩ := List.mem_filterMap.1 hseen
  cases now with
  | began k c g =>
      cases c with
      | takeBoard =>
          cases hcall
          exact ⟨rfl, k, g, hnow⟩
      | register | startTick | reset | node => cases hcall
  | entered | left | returned | acted => cases hcall

theorem getLast?_seen_boardAsked (past : History (interface A) (Memory → Memory) (Gateway A)) :
    (past.seen boardAsked?).getLast?.getD false = true ↔ BoardAsked past := by
  cases hlast : (past.seen boardAsked?).getLast? with
  | none =>
      have hnone : ¬ BoardAsked past := by
        rintro ⟨k, g, hasked⟩
        have hseen : true ∈ past.seen boardAsked? := List.mem_filterMap.2 ⟨_, hasked, rfl⟩
        rw [List.getLast?_eq_none_iff.1 hlast] at hseen
        cases hseen
      simpa using hnone
  | some taken =>
      obtain ⟨htaken, hasked⟩ := asked_of_seen (List.mem_of_getLast? hlast)
      exact iff_of_true htaken hasked

theorem remembers_boardAsked [SystemReset] : Remembers (component A) boardTaken boardAsked? where
  start c g := by
    cases c with
    | register | startTick | reset => rfl
    | takeBoard =>
        show g.takeBoard.2.boardTaken = true
        rw [takeBoard]
        split
        · assumption
        · rfl
    | node c =>
        exact shows_node (shows_boardTaken_forward c g)
          (shows_boardTaken_forward c g.fetchApplication) fun _ => rfl
  act _ _ := rfl

/-- The law of the board in every run from a gateway whose board nobody has taken. -/
theorem boardLaw_of_moments [SystemReset]
    {t : CallTree (interface A) (Memory → Memory) (Gateway A)} {g₀ : Gateway A}
    (hstart : g₀.boardTaken = false)
    {past future : History (interface A) (Memory → Memory) (Gateway A)} {k : Nat} {g : Gateway A}
    (hsplit : t.moments (component A) g₀ = past ++ .began k .takeBoard g :: future) :
    BoardLaw past k g future := by
  obtain ⟨hmoments, -⟩ := (remembers_boardAsked.invariant false).of_tree t hstart
  have hflag : g.boardTaken = (past.seen boardAsked?).getLast?.getD false :=
    hmoments past _ future hsplit
  have htaken : g.boardTaken = true ↔ BoardAsked past := by
    rw [hflag]
    exact getLast?_seen_boardAsked past
  obtain ⟨rest, hnext⟩ := (runs_moments (component A) t g₀).follows hsplit
  have hreturned : future = .returned k .takeBoard g.takeBoard.1 g.takeBoard.2 :: rest := hnext
  constructor
  case first =>
    intro hnot
    rw [takeBoard_of_free (mt htaken.1 hnot)] at hreturned
    exact ⟨Board.bringUp g.node.devices, rest, hreturned, Board.broughtUp_bringUp g.node.devices⟩
  case later =>
    intro hasked
    rw [takeBoard_of_taken (htaken.2 hasked)] at hreturned
    exact ⟨rest, hreturned⟩

/-- In every run of the gateway from its start on any memory, the first call that asks for the board
is given it, and the board is then brought up, without disturbing what the gateway does not own.
Every later call is given nothing and changes nothing, whatever has been done in between. -/
theorem board_taken_once [SystemReset] (A : Type) (m : Memory)
    (t : CallTree (interface A) (Memory → Memory) (Gateway A)) :
    let history := t.moments (component A) (powerOn A m)
    ∀ past k g future, history = past ++ .began k .takeBoard g :: future →
      BoardLaw past k g future := by
  intro history past k g future hsplit
  exact boardLaw_of_moments rfl hsplit

/-- A board whose shared registers are full of ones is taken, then written over, and asked for
again. The mode of pin 4 and the function of pin 0 stay as they are beside those of pins 2 and 3,
and what was written over stays written over. -/
theorem board_taken_once_among_ones :
    let ones : Memory := ⟨Board.sharedRegs.map fun a => (a, 0xFFFFFFFF)⟩
    let t : CallTree (interface Unit) (Memory → Memory) (Gateway Unit) :=
      .call .takeBoard (fun _ => .done) fun _ =>
        .act (Memory.write · Board.pinModeReg 5) fun _ =>
          .call .takeBoard (fun _ => .done) fun _ => .done
    let history : History (interface Unit) (Memory → Memory) (Gateway Unit) :=
      t.moments (component Unit) (powerOn Unit ones)
    ∃ g v u rest,
      history = .began 1 .takeBoard g :: .returned 1 .takeBoard true v ::
        .acted (Memory.write · Board.pinModeReg 5) u :: .began 2 .takeBoard u ::
          .returned 2 .takeBoard false u :: rest ∧
      (v.node.devices.read Board.pinModeReg).field 2 3 = 2 ∧
      (v.node.devices.read Board.pinModeReg).field 2 4 = 3 ∧
      (v.node.devices.read Board.lowFunctionReg).field 4 3 = 7 ∧
      (v.node.devices.read Board.lowFunctionReg).field 4 0 = 15 ∧
      v.node.devices.read Uart.bus.rateReg = 833 ∧
      u.node.devices.read Board.pinModeReg = 5 := by
  intro ones t history
  have hfirst := board_taken_once Unit ones t [] 1 _ _ rfl
  have hlater := board_taken_once Unit ones t [_, _, _] 2 _ _ rfl
  obtain ⟨m, rest, hgiven, hup⟩ := hfirst.first (by rintro ⟨k, g, hasked⟩; cases hasked)
  obtain ⟨rest', hrefused⟩ := hlater.later ⟨1, _, .head _⟩
  -- the memory that was brought up is the one that the call returns with
  obtain ⟨hreturned, -⟩ := List.cons.inj hgiven
  have hmemory : Board.bringUp ones = m :=
    congrArg (fun now => now.world.node.devices) hreturned
  subst hmemory
  refine ⟨_, _, _, rest', congrArg (fun future => _ :: _ :: _ :: _ :: future) hrefused, ?_, ?_, ?_,
    ?_, ?_, ?_⟩
  · exact (hup.pinMode 3).trans (if_pos (by decide))
  · exact (hup.pinMode 4).trans (by decide)
  · exact (hup.lowFunction 3).trans (if_pos (by decide))
  · exact (hup.lowFunction 0).trans (by decide)
  · exact hup.settled (Uart.bus.rateReg, 833) (by decide)
  · exact Memory.read_write_self ..

end Gateway

end SerialGateway
