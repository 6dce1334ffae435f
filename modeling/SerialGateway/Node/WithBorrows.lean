import SerialGateway.Node.Calls
import SerialGateway.Reentrant.CallTree

/-!
# A node with its borrows

What this module delivers: the node with the borrows of its shared state written
out. The console ring, the reboot detector and the bus detector are cells, which
must be borrowed before they are used. A cell counts its borrows, and a borrow
that does not go together with those there are halts the node.

Every call takes its cells inside its section, one at a time, and gives each
back as soon as it has used it (`Body.borrowing`). The events and the scheduler
are not in cells, and the calls that need no other part of the shared state are
those of the plain node.
-/

set_option autoImplicit false

namespace SerialGateway

/-! ## Borrows of one cell -/

/-- How a cell is borrowed. -/
inductive Borrow where
  /-- To so many readers; to none if the cell is free. -/
  | reading (readers : Nat)
  /-- To one writer. -/
  | writing
  deriving DecidableEq, Repr

/-- Why a cell cannot be borrowed. -/
inductive BorrowError where
  /-- It was to be read, and somebody writes it or its readers cannot be counted any more. -/
  | alreadyWritten
  /-- It was to be written, and somebody reads or writes it. -/
  | alreadyBorrowed
  deriving DecidableEq, Repr

/-- What a cell is borrowed for. -/
inductive Purpose where
  | read
  | write
  deriving DecidableEq, Repr

namespace Borrow

/-- Nobody has borrowed the cell. -/
def free : Borrow := .reading 0

/-- The largest number of readers that a signed word counts. -/
def maxReaders : Nat := 0x7FFFFFFF

/-- Borrow a cell once more: together with other readers, or alone to write it. -/
def acquire : Purpose → Borrow → Except BorrowError Borrow
  | .read, .reading readers =>
      if readers < maxReaders then .ok (.reading (readers + 1)) else .error .alreadyWritten
  | .read, .writing => .error .alreadyWritten
  | .write, .reading 0 => .ok .writing
  | .write, .reading (_ + 1) => .error .alreadyBorrowed
  | .write, .writing => .error .alreadyBorrowed

/-- Give a borrow back. -/
def release : Purpose → Borrow → Borrow
  | .read, .reading readers => .reading (readers - 1)
  | .read, .writing => .writing
  | .write, _ => free

end Borrow

namespace Node

/-! ## The cells of a node -/

/-- The cells of a node. -/
inductive Cell where
  | console
  | reboot
  | bus
  deriving DecidableEq, Repr

/-- How each cell is borrowed. -/
abbrev Borrows := Cell → Borrow

/-- All cells are free. -/
def Borrows.clear : Borrows := fun _ => .free

/-- One cell is borrowed differently. -/
def Borrows.set (borrows : Borrows) (cell : Cell) (b : Borrow) : Borrows :=
  fun other => if other = cell then b else borrows other

namespace Cell

/-- What is in a cell. -/
abbrev Content (cap : Nat) : Cell → Type
  | console => Ring cap
  | reboot => RebootSequence
  | bus => GapDetector

variable {cap : Nat}

/-- Look into a cell. -/
def get (s : SharedState cap) : (cell : Cell) → cell.Content cap
  | console => s.console
  | reboot => s.reboot
  | bus => s.bus

/-- Replace what is in a cell. -/
def put (s : SharedState cap) : (cell : Cell) → cell.Content cap → SharedState cap
  | console, ring => { s with console := ring }
  | reboot, sequence => { s with reboot := sequence }
  | bus, detector => { s with bus := detector }

end Cell

/-! ## Inside a section -/

/-- What the body of a section works on. -/
structure Inside (D : Type) (cap : Nat) where
  borrows : Borrows
  shared : SharedState cap
  devices : D

/-- The body of a section, which may fail to borrow a cell. -/
def Body (D : Type) (cap : Nat) (A : Type) : Type :=
  Inside D cap → Except BorrowError A × Inside D cap

namespace Body

variable {D A B : Type} {cap : Nat}

/-- Go on with what the first body answers; a body that failed is not gone on with. -/
def andThen (first : Body D cap A) (next : A → Body D cap B) : Body D cap B := fun w =>
  match first w with
  | (.ok a, w') => next a w'
  | (.error e, w') => (.error e, w')

/-- Answer without a borrow. -/
def answer (a : A) : Body D cap A := fun w => (.ok a, w)

/-- Borrow a cell, use what is in it, and give it back. -/
def borrowing (purpose : Purpose) (cell : Cell)
    (use : cell.Content cap → D → A × cell.Content cap × D) : Body D cap A := fun w =>
  match Borrow.acquire purpose (w.borrows cell) with
  | .error e => (.error e, w)
  | .ok held =>
      let used := use (cell.get w.shared) w.devices
      let borrows := w.borrows.set cell held
      (.ok used.1,
        { borrows := borrows.set cell (Borrow.release purpose (borrows cell))
          shared := cell.put w.shared used.2.1
          devices := used.2.2 })

/-- Borrow a cell to read what is in it. -/
def reading (cell : Cell) (use : cell.Content cap → D → A × D) : Body D cap A :=
  borrowing .read cell fun content d => ((use content d).1, content, (use content d).2)

/-- Borrow a cell to change what is in it. -/
def writing (cell : Cell) (use : cell.Content cap → D → A × cell.Content cap × D) : Body D cap A :=
  borrowing .write cell use

end Body

/-! ## The node -/

/-- A node with the borrows of its cells. -/
structure WithBorrows (M D : Type) (cap : Nat) where
  node : Node M D cap
  borrows : Borrows
  /-- A borrow has failed. -/
  stopped : Bool

namespace WithBorrows

variable {M D A : Type} {cap : Nat}

/-- A node with all cells free. -/
def intact (n : Node M D cap) : WithBorrows M D cap := ⟨n, .clear, false⟩

/-- The node without its borrows. -/
def nodePart : Part (WithBorrows M D cap) (Node M D cap) where
  get w := w.node
  put n w := { w with node := n }

/-- A step of the plain node that borrows nothing. -/
def unborrowed {A : Type} (s : Step Hook (Node M D cap) A) (w : WithBorrows M D cap) :
    Step Hook (WithBorrows M D cap) (Except BorrowError A) :=
  (s.within nodePart w).andThen fun a w => (.ok a, w)

variable [InterruptControl M]

/-- Run a body inside one atomic section. A borrow that fails halts the node where it stands. -/
def exclusively (w : WithBorrows M D cap) (body : Body D cap A) :
    Except BorrowError A × WithBorrows M D cap :=
  let guard := w.node.guard.disable
  match body ⟨w.borrows, w.node.shared, w.node.devices⟩ with
  | (.ok a, i) =>
      (.ok a, { w with node := ⟨guard.restore, i.shared, i.devices⟩, borrows := i.borrows })
  | (.error e, i) =>
      (.error e, ⟨⟨guard, i.shared, i.devices⟩, i.borrows, true⟩)

/-- Answer with what a section has answered, after the callback that the answer asks for. -/
def notifying (callback : A → Option Callback) (r : Except BorrowError A × WithBorrows M D cap) :
    Step Hook (WithBorrows M D cap) (Except BorrowError A) :=
  match r.1 with
  | .error e => .finished (.error e) r.2
  | .ok a =>
      match callback a with
      | none => .finished (.ok a) r.2
      | some c => .entering (.callback c) r.2 fun w => (.ok a, w)

/-- Account for a console byte. The reboot detector is given back before the ring is borrowed. -/
def acceptConsole (byte : UInt8) : Body D cap ConsoleOutcome :=
  let feeding : Body D cap Bool :=
    .writing .reboot fun sequence d => ((sequence.feed byte).1, (sequence.feed byte).2, d)
  let pushing : Body D cap Bool :=
    .writing .console fun ring d => ((ring.push byte).1, (ring.push byte).2, d)
  feeding.andThen fun completes =>
    if completes then .answer .rebootRequested
    else pushing.andThen fun fits => .answer (if fits then .delivered else .overflowed)

/-- The callback for a console byte. -/
def consoleCallback (byte : UInt8) : ConsoleOutcome → Option Callback
  | .rebootRequested => none
  | .delivered | .overflowed => some (.consoleByte byte)

variable [Peripherals D]

/-- A call on a node with its borrows. The events and the scheduler are not in cells. -/
def start : (c : Call) → WithBorrows M D cap →
    Step Hook (WithBorrows M D cap) (Except BorrowError (Answer c))
  | .consoleInterrupt, w =>
      let taken := Peripherals.console.take w.node.devices
      notifying (consoleCallback taken.1)
        (exclusively { w with node := { w.node with devices := taken.2 } } (acceptConsole taken.1))
  | .busInterrupt, w =>
      let errors := Peripherals.bus.errors w.node.devices
      let taken := Peripherals.bus.take w.node.devices
      notifying (fun status => some (.busByte taken.1 status))
        (exclusively { w with node := { w.node with devices := taken.2 } }
          (.writing .bus fun detector d => detector.onByte Peripherals.gap errors d))
  | .silenceInterrupt, w =>
      notifying (fun _ => some .busSilence)
        (w.exclusively (.writing .bus fun detector d =>
          ((), detector, detector.onTimeout Peripherals.gap d)))
  | .armGapTimer, w => notifying (fun _ => none)
      (w.exclusively (.reading .bus fun detector d => ((), detector.arm Peripherals.gap d)))
  | .available, w => notifying (fun _ => none)
      (w.exclusively (.reading .console fun ring d => (ring.available, d)))
  | .read, w => notifying (fun _ => none)
      (w.exclusively (.writing .console fun ring d => (ring.pop.1, ring.pop.2, d)))
  | .peek offset, w => notifying (fun _ => none)
      (w.exclusively (.reading .console fun ring d => (ring.peek offset, d)))
  | .overflows, w => notifying (fun _ => none)
      (w.exclusively (.reading .console fun ring d => (ring.overflows, d)))
  | .flush, w => notifying (fun _ => none)
      (w.exclusively (.writing .console fun ring d => ((), ring.flush Peripherals.console d)))
  | .busStats, w => notifying (fun _ => none)
      (w.exclusively (.reading .bus fun detector d => (detector.stats, d)))
  | .busTiming, w => notifying (fun _ => none)
      (w.exclusively (.reading .bus fun detector d => (detector.timing, d)))
  | .tickInterrupt, w => unborrowed (Node.start .tickInterrupt w.node) w
  | .atomic, w => unborrowed (Node.start .atomic w.node) w
  | .capacity, w => unborrowed (Node.start .capacity w.node) w
  | .setEvent e, w => unborrowed (Node.start (.setEvent e) w.node) w
  | .clearEvent e, w => unborrowed (Node.start (.clearEvent e) w.node) w
  | .isPending e, w => unborrowed (Node.start (.isPending e) w.node) w
  | .taskOverruns, w => unborrowed (Node.start .taskOverruns w.node) w

/-- Calls of a node with its borrows, to whatever depth, and what else its surroundings do. -/
abbrev Calls (M D : Type) (cap : Nat) : Type :=
  CallTree (interface.fallible BorrowError) (D → D) (WithBorrows M D cap)

/-- A node with its borrows, in the surroundings of a node. -/
def component (M D : Type) (cap : Nat) [InterruptControl M] [Peripherals D] :
    Component (interface.fallible BorrowError) (WithBorrows M D cap) (D → D) where
  start := start
  act f w := nodePart.modify (devicesPart.modify f) w
  halted w := w.stopped

end WithBorrows

end Node

end SerialGateway
