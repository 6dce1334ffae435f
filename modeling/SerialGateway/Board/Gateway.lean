import SerialGateway.Board.Core
import SerialGateway.Board.Setup
import SerialGateway.Node.Calls

/-!
# The gateway on its board

What this module delivers: the one node of the board, with the application that
is registered for its callbacks, as a component. The calls of the node are
forwarded. An interrupt call first fetches the application, in a section of its
own; before one is registered, callbacks do nothing. A reboot request on the
console resets the system. That halts the gateway: the interrupt does not get
back to what it has interrupted, and nothing else happens.
-/

set_option autoImplicit false

namespace SerialGateway

/-- The gateway, for applications of type `A`. -/
structure Gateway (A : Type) where
  /-- The node of the board. -/
  node : Node Primask Memory Settings.consoleCapacity
  /-- The registered application. -/
  application : Option A := none
  /-- The board was taken. -/
  boardTaken : Bool := false
  /-- A reset was requested. -/
  resetRequested : Bool := false

namespace Gateway

variable {A : Type}

/-- The gateway when the processor starts, on a given memory. -/
def powerOn (A : Type) (m : Memory) : Gateway A where
  node := Node.new {} Settings.busTiming m Settings.consoleCapacity (by decide)

/-- The node of a gateway. -/
def nodePart : Part (Gateway A) (Node Primask Memory Settings.consoleCapacity) where
  get g := g.node
  put n g := { g with node := n }

/-- The memory of a gateway. -/
def memoryPart : Part (Gateway A) Memory where
  get g := g.node.devices
  put m g := { g with node := { g.node with devices := m } }

/-- The interrupt mask of a gateway. -/
def primaskPart : Part (Gateway A) Primask where
  get g := g.node.guard.controller
  put p g :=
    { g with node := { g.node with guard := { g.node.guard with controller := p } } }

/-- What a call of the gateway may enter. -/
inductive Hook (A : Type) where
  /-- The body of an atomic section. -/
  | masked
  /-- A callback of an application. -/
  | callback (application : A) (c : Node.Callback)
  deriving DecidableEq, Repr

/-- The calls of a gateway. -/
inductive Call (A : Type) where
  /-- Register the application. -/
  | register (application : A)
  /-- Take the board, and bring it up. -/
  | takeBoard
  /-- Start the base tick. -/
  | startTick
  /-- Reset the system. -/
  | reset
  /-- A call of the node. -/
  | node (c : Node.Call)

/-- The answers of a gateway. The board is taken by the first who asks. -/
abbrev Answer : Call A → Type
  | .takeBoard => Bool
  | .node c => Node.Answer c
  | .register _ | .startTick | .reset => Unit

/-- What can be asked of a gateway. -/
abbrev interface (A : Type) : Interface where
  Call := Call A
  Answer := Answer
  Hook := Hook A

/-- Register an application. -/
def register (application : A) (g : Gateway A) : Gateway A :=
  { g with node := (g.node.consult fun _ => ()).2, application := some application }

/-- Take the board, if nobody has. -/
def takeBoard (g : Gateway A) : Bool × Gateway A :=
  if g.boardTaken then (false, g)
  else (true, { memoryPart.modify Board.bringUp g with boardTaken := true })

/-- Request a reset of the system, and wait for it. -/
def reset [SystemReset] (g : Gateway A) : Gateway A :=
  { memoryPart.modify SystemReset.request g with resetRequested := true }

/-- Look up the application, inside a section. -/
def fetchApplication (g : Gateway A) : Gateway A :=
  { g with node := (g.node.consult fun _ => ()).2 }

/-- The hook of a gateway for a hook of its node. A callback needs an
application. -/
def hookFor (application : Option A) : Node.Hook → Option (Hook A)
  | .masked => some .masked
  | .callback c => application.map (.callback · c)

/-- A call of the node, with the callbacks of the registered application. -/
def forward {B : Type} (call : Node Primask Memory Settings.consoleCapacity →
      Step Node.Hook (Node Primask Memory Settings.consoleCapacity) B) (g : Gateway A) :
    Step (Hook A) (Gateway A) B :=
  ((call g.node).within nodePart g).route (hookFor g.application)

/-- The console interrupt; a reboot request resets the system. -/
def consoleInterrupt [SystemReset] (g : Gateway A) :
    Step (Hook A) (Gateway A) Node.ConsoleOutcome :=
  (g.fetchApplication.forward Node.consoleInterrupt).andThen fun outcome g =>
    (outcome, if outcome = .rebootRequested then g.reset else g)

/-- A call on a gateway. -/
def start [SystemReset] : (c : Call A) → Gateway A → Step (Hook A) (Gateway A) (Answer c)
  | .register a, g => .finished () (g.register a)
  | .takeBoard, g => .answer g.takeBoard
  | .startTick, g => .finished () (memoryPart.modify Core.startTick g)
  | .reset, g => .finished () g.reset
  | .node .consoleInterrupt, g => g.consoleInterrupt
  | .node .busInterrupt, g => g.fetchApplication.forward Node.busInterrupt
  | .node .silenceInterrupt, g => g.fetchApplication.forward Node.silenceInterrupt
  | .node .tickInterrupt, g => g.fetchApplication.forward Node.tickInterrupt
  | .node c, g => g.forward (Node.start c)

/-- A gateway. What the surroundings do is done to the memory: it holds the
registers of the devices. -/
def component (A : Type) [SystemReset] : Component (interface A) (Gateway A) (Memory → Memory) where
  start := start
  act f := memoryPart.modify f
  halted g := g.resetRequested

end Gateway

end SerialGateway
