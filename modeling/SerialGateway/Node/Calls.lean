import SerialGateway.Node.Basic

/-!
# The calls of a gateway node

What this module delivers: the node as a component. Four calls come from
interrupts: a byte on the console, a byte on the bus, silence on the bus, and the
base tick. The others come from the foreground. Each interrupt call completes its
bookkeeping in a section of its own, leaves the section, and only then enters the
application's callback, which may call the node again.
-/

set_option autoImplicit false

namespace SerialGateway.Node

/-- The callbacks of an application. -/
inductive Callback where
  /-- A byte has come on the console, and is in the ring. -/
  | consoleByte (byte : UInt8)
  /-- A byte has come on the bus. -/
  | busByte (byte : UInt8) (status : RxStatus)
  /-- The bus was silent for an inter-frame gap. -/
  | busSilence
  /-- A task is due. -/
  | task (tier : Tier)
  deriving DecidableEq, Repr

/-- What a call of the node may enter. -/
inductive Hook where
  /-- The body of an atomic section. -/
  | masked
  /-- A callback of the application. -/
  | callback (c : Callback)
  deriving DecidableEq, Repr

/-- What the console interrupt did with its byte. -/
inductive ConsoleOutcome where
  /-- Stored and handed to the application. -/
  | delivered
  /-- Stored over the oldest unread byte, and handed to the application. -/
  | overflowed
  /-- The byte completes a reboot request. It was not stored. -/
  | rebootRequested
  deriving DecidableEq, Repr

/-- The calls of a node. -/
inductive Call where
  /-- The console receiver has a byte. -/
  | consoleInterrupt
  /-- The bus receiver has a byte. -/
  | busInterrupt
  /-- The gap timer has reached its compare value. -/
  | silenceInterrupt
  /-- The base tick. -/
  | tickInterrupt
  /-- Run a body with interrupts masked. -/
  | atomic
  /-- Set the timeout of the gap timer. -/
  | armGapTimer
  /-- How many console bytes are unread. -/
  | available
  /-- Take the oldest unread console byte. -/
  | read
  /-- Look at an unread console byte. -/
  | peek (offset : Nat)
  /-- How many console bytes were overwritten. -/
  | overflows
  /-- Forget all console input, also what the receiver holds. -/
  | flush
  /-- The capacity of the console ring. -/
  | capacity
  /-- Mark an event pending. -/
  | setEvent (e : Event)
  /-- Clear an event. -/
  | clearEvent (e : Event)
  /-- Whether an event is pending. -/
  | isPending (e : Event)
  /-- The traffic on the bus. -/
  | busStats
  /-- The silence thresholds of the bus. -/
  | busTiming
  /-- How many cadence steps found a task running. -/
  | taskOverruns
  deriving DecidableEq, Repr

/-- The answers of a node. -/
abbrev Answer : Call → Type
  | .consoleInterrupt => ConsoleOutcome
  | .busInterrupt => RxStatus
  | .tickInterrupt => Dispatch
  | .available | .capacity => Nat
  | .read | .peek _ => Option UInt8
  | .overflows | .taskOverruns => UInt8
  | .setEvent _ | .clearEvent _ | .isPending _ => Bool
  | .busStats => ChannelStats
  | .busTiming => ChannelTiming
  | .silenceInterrupt | .atomic | .armGapTimer | .flush => Unit

/-- What can be asked of a node. -/
abbrev interface : Interface where
  Call := Call
  Answer := Answer
  Hook := Hook

variable {M D : Type} {cap : Nat} [InterruptControl M] [Peripherals D]

/-- Enter a callback when all bookkeeping is done, and answer `a` after it. -/
def notify {A : Type} (c : Callback) (a : A) (n : Node M D cap) : Step Hook (Node M D cap) A :=
  .entering (.callback c) n fun n => (a, n)

/-- Account for a console byte: a byte that completes a reboot request is not
stored. -/
def acceptConsole (byte : UInt8) (s : SharedState cap) : ConsoleOutcome × SharedState cap :=
  let fed := s.reboot.feed byte
  let s := { s with reboot := fed.2 }
  if fed.1 then (.rebootRequested, s)
  else
    let pushed := s.console.push byte
    (if pushed.1 then .delivered else .overflowed, { s with console := pushed.2 })

/-- A byte on the console. It is taken before the section begins. -/
def consoleInterrupt (n : Node M D cap) : Step Hook (Node M D cap) ConsoleOutcome :=
  let taken := Peripherals.console.take n.devices
  let byte := taken.1
  let r := { n with devices := taken.2 }.exclusively fun s d =>
    let accepted := acceptConsole byte s
    (accepted.1, accepted.2, d)
  match r.1 with
  | .rebootRequested => .answer r
  | .delivered | .overflowed => notify (.consoleByte byte) r.1 r.2

/-- A byte on the bus. Its errors are read before it is taken, and both before
the section begins. -/
def busInterrupt (n : Node M D cap) : Step Hook (Node M D cap) RxStatus :=
  let errors := Peripherals.bus.errors n.devices
  let taken := Peripherals.bus.take n.devices
  let r := { n with devices := taken.2 }.exclusively fun s d =>
    let classified := s.bus.onByte Peripherals.gap errors d
    (classified.1, { s with bus := classified.2.1 }, classified.2.2)
  notify (.busByte taken.1 r.1) r.1 r.2

/-- Silence on the bus. -/
def silenceInterrupt (n : Node M D cap) : Step Hook (Node M D cap) Unit :=
  let r := n.exclusively fun s d => ((), s, s.bus.onTimeout Peripherals.gap d)
  notify .busSilence () r.2

/-- The base tick; its hooks are the tasks. -/
def tickInterrupt (n : Node M D cap) : Step Hook (Node M D cap) Dispatch :=
  ((Scheduler.tick (schedulerPart.get n)).within schedulerPart n).route fun tier =>
    some (.callback (.task tier))

/-- A body with interrupts masked. -/
def atomic (n : Node M D cap) : Step Hook (Node M D cap) Unit :=
  .entering .masked { n with guard := n.guard.disable } fun n =>
    ((), { n with guard := n.guard.restore })

/-- A call on a node. -/
def start : (c : Call) → Node M D cap → Step Hook (Node M D cap) (Answer c)
  | .consoleInterrupt, n => n.consoleInterrupt
  | .busInterrupt, n => n.busInterrupt
  | .silenceInterrupt, n => n.silenceInterrupt
  | .tickInterrupt, n => n.tickInterrupt
  | .atomic, n => n.atomic
  | .armGapTimer, n => .answer (n.exclusively fun s d => ((), s, s.bus.arm Peripherals.gap d))
  | .available, n => .answer (n.consult fun s => s.console.available)
  | .read, n => .answer (n.exclusively fun s d =>
      let r := s.console.pop
      (r.1, { s with console := r.2 }, d))
  | .peek offset, n => .answer (n.consult fun s => s.console.peek offset)
  | .overflows, n => .answer (n.consult fun s => s.console.overflows)
  | .flush, n => .answer (n.exclusively fun s d =>
      let r := s.console.flush Peripherals.console d
      ((), { s with console := r.1 }, r.2))
  | .capacity, n => .finished cap n
  | .setEvent e, n => .answer (n.exclusively fun s d =>
      let r := s.events.set e
      (r.1, { s with events := r.2 }, d))
  | .clearEvent e, n => .answer (n.exclusively fun s d =>
      let r := s.events.clear e
      (r.1, { s with events := r.2 }, d))
  | .isPending e, n => .finished (n.shared.events.isPending e) n
  | .busStats, n => .answer (n.consult fun s => s.bus.stats)
  | .busTiming, n => .answer (n.consult fun s => s.bus.timing)
  | .taskOverruns, n => .finished n.shared.scheduler.overruns n

/-- A node. What the surroundings do is done to the devices: bytes arrive, and
time passes. -/
def component (M D : Type) (cap : Nat) [InterruptControl M] [Peripherals D] :
    Component interface (Node M D cap) (D → D) where
  start := start
  act f := devicesPart.modify f

end SerialGateway.Node
