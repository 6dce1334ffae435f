import SerialGateway.Bus.Detector
import SerialGateway.Console.Reboot
import SerialGateway.Event
import SerialGateway.Interrupt.Section
import SerialGateway.Ring.Basic
import SerialGateway.Schedule.Scheduler

/-!
# A gateway node

What this module delivers: everything that the interrupt handlers and the
foreground of one node share (`SharedState`), and the node itself: that state,
the guard that keeps the two apart, and the devices the node is attached to.
`Node.exclusively` is how the state is reached: inside one atomic section, and
without a way to open another.
-/

set_option autoImplicit false

namespace SerialGateway

/-- What the interrupt handlers and the foreground of a node share. -/
structure SharedState (cap : Nat) where
  /-- Unread console bytes. -/
  console : Ring cap
  /-- The detector of the reboot request. -/
  reboot : RebootSequence := {}
  /-- Pending conditions. -/
  events : EventRegister := {}
  /-- The frame detector of the bus. -/
  bus : GapDetector
  /-- The task scheduler. -/
  scheduler : Scheduler := {}

/-- A node with an interrupt controller `M` and devices `D`, whose console ring
holds `cap` bytes. -/
structure Node (M D : Type) (cap : Nat) where
  /-- The guard around the shared state. -/
  guard : AtomicSection M
  /-- The shared state. -/
  shared : SharedState cap
  /-- The devices. -/
  devices : D

namespace Node

variable {M D : Type} {cap : Nat}

/-- A node at its start. -/
def new (controller : M) (timing : ChannelTiming) (devices : D) (cap : Nat) (h : 0 < cap) :
    Node M D cap where
  guard := { controller }
  shared := { console := Ring.empty cap h, bus := { timing } }
  devices := devices

/-- The interrupt controller of a node. -/
def controllerPart : Part (Node M D cap) M where
  get n := n.guard.controller
  put m n := { n with guard := { n.guard with controller := m } }

/-- The devices of a node. -/
def devicesPart : Part (Node M D cap) D where
  get n := n.devices
  put d n := { n with devices := d }

/-- The scheduler of a node and the interrupt controller it works with. -/
def schedulerPart : Part (Node M D cap) (Scheduler × M) where
  get n := (n.shared.scheduler, n.guard.controller)
  put v n :=
    { n with
      guard := { n.guard with controller := v.2 }
      shared := { n.shared with scheduler := v.1 } }

/-- Use the shared state and the devices inside one atomic section. -/
def exclusively [InterruptControl M] {A : Type} (n : Node M D cap)
    (f : SharedState cap → D → A × SharedState cap × D) : A × Node M D cap :=
  let guard := n.guard.disable
  let r := f n.shared n.devices
  (r.1, { guard := guard.restore, shared := r.2.1, devices := r.2.2 })

/-- Read the shared state inside one atomic section. -/
def consult [InterruptControl M] {A : Type} (n : Node M D cap) (f : SharedState cap → A) :
    A × Node M D cap :=
  n.exclusively fun s d => (f s, s, d)

/-- A section without an inner one leaves interrupts as it found them. -/
theorem isEnabled_exclusively [InterruptControl M] {A : Type} (n : Node M D cap)
    (f : SharedState cap → D → A × SharedState cap × D) :
    (n.exclusively f).2.guard.isEnabled = n.guard.isEnabled :=
  AtomicSection.isEnabled_restore_disable n.guard

end Node

end SerialGateway
