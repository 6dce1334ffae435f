import SerialGateway.Device.Peripherals

/-!
# Simulated devices

What this module delivers: the devices of the test bench. A receiver is a queue
of bytes with their errors; it hands over a zero byte when it is empty. The gap
timer counts only when the bench lets time pass (`Timer.elapse`), and holds its
count at 65535.
-/

set_option autoImplicit false

namespace SerialGateway.Bench

/-- Bytes that wait in a receiver, oldest first, each with its errors. -/
abbrev ByteQueue : Type := List (UInt8 × LineErrors)

namespace ByteQueue

/-- Queue a byte. -/
def latch (byte : UInt8) (errors : LineErrors) (q : ByteQueue) : ByteQueue := q ++ [(byte, errors)]

/-- Take the oldest byte. -/
def take : ByteQueue → UInt8 × ByteQueue
  | [] => (0, [])
  | (byte, _) :: rest => (byte, rest)

/-- A queue of bytes as a receiver. -/
def receiver : Receiver ByteQueue where
  pending q := !q.isEmpty
  errors q := (q.head?.map Prod.snd).getD .clean
  take := take
  backlog := List.length

theorem runsDry_receiver : receiver.RunsDry := by
  intro q hq
  cases q with
  | nil => cases hq
  | cons b rest => exact Nat.lt_succ_self rest.length

/-- Draining a queue leaves no byte behind. -/
theorem drain_receiver (q : ByteQueue) : receiver.drain q = [] := by
  have hempty : (!(receiver.drain q).isEmpty) = false := runsDry_receiver.pending_drain q
  simpa using hempty

end ByteQueue

/-- A silence timer under the control of the bench. -/
structure Timer where
  /-- The timer is counting. -/
  running : Bool := false
  /-- The ticks it has counted; 65535 stays. -/
  count : UInt16 := 0
  /-- The compare value. -/
  compare : UInt16 := 65535
  /-- How often the timer was restarted. -/
  restarts : Nat := 0
  deriving DecidableEq, Repr

namespace Timer

/-- The sum of two counts, held at 65535. -/
def addHeld (a b : UInt16) : UInt16 := if b ≤ 65535 - a then a + b else 65535

/-- Let time pass; a stopped timer does not count. -/
def elapse (ticks : UInt16) (t : Timer) : Timer :=
  if t.running then { t with count := addHeld t.count ticks } else t

/-- Set the timer by hand. -/
def set (running : Bool) (count : UInt16) (t : Timer) : Timer := { t with running, count }

/-- The timer as a gap timer. -/
def gapTimer : GapTimer Timer where
  running := running
  count := count
  restart t := { t with count := 0, running := true, restarts := t.restarts + 1 }
  stop t := { t with running := false }
  setCompare ticks t := { t with compare := ticks }

end Timer

/-- The devices of a node on the bench. -/
structure Devices where
  /-- The bytes on the console line. -/
  console : ByteQueue := []
  /-- The bytes on the bus. -/
  bus : ByteQueue := []
  /-- The gap timer. -/
  timer : Timer := {}

namespace Devices

/-- The console line. -/
def consolePart : Part Devices ByteQueue where
  get d := d.console
  put q d := { d with console := q }

/-- The bus line. -/
def busPart : Part Devices ByteQueue where
  get d := d.bus
  put q d := { d with bus := q }

/-- The gap timer. -/
def timerPart : Part Devices Timer where
  get d := d.timer
  put t d := { d with timer := t }

instance : Peripherals Devices where
  console := ByteQueue.receiver.within consolePart
  bus := ByteQueue.receiver.within busPart
  gap := Timer.gapTimer.within timerPart

end Devices

end SerialGateway.Bench
