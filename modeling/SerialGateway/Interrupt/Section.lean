import SerialGateway.Interrupt.Control
import SerialGateway.Reentrant.Component

/-!
# Atomic sections

What this module delivers: sections of code in which interrupts are masked. The
guard remembers in one flag whether interrupts were enabled when the section
began and unmasks them at its end only then. It does not count nesting: an
inner section overwrites the flag, and the outer one then ends masked.

`free` brackets a body; as a call it enters the body as its hook.
-/

set_option autoImplicit false

namespace SerialGateway

/-- A guard around an interrupt controller. -/
structure AtomicSection (M : Type) where
  /-- The controller. -/
  controller : M
  /-- Interrupts were enabled when the last section began. -/
  wereEnabled : Bool := false
  deriving DecidableEq, Repr

namespace AtomicSection

variable {M : Type} [InterruptControl M]

/-- Interrupts are delivered. -/
def isEnabled (s : AtomicSection M) : Bool := InterruptControl.isEnabled s.controller

/-- Ask the controller whether interrupts are delivered. -/
def ask (s : AtomicSection M) : Bool × AtomicSection M :=
  (s.isEnabled, { s with controller := InterruptControl.query s.controller })

/-- Begin a section: remember whether interrupts are enabled, and mask them. -/
def disable (s : AtomicSection M) : AtomicSection M where
  controller := InterruptControl.mask (InterruptControl.query s.controller)
  wereEnabled := s.isEnabled

/-- End a section: unmask interrupts if they were enabled when it began. -/
def restore (s : AtomicSection M) : AtomicSection M :=
  if s.wereEnabled then { s with controller := InterruptControl.unmask s.controller } else s

theorem isEnabled_disable (s : AtomicSection M) : s.disable.isEnabled = false := by
  simp [disable, isEnabled]

/-- A section without an inner one leaves interrupts as it found them. -/
theorem isEnabled_restore_disable (s : AtomicSection M) :
    s.disable.restore.isEnabled = s.isEnabled := by
  rw [isEnabled, isEnabled]
  cases h : InterruptControl.isEnabled s.controller <;> simp [disable, restore, isEnabled, h]

/-- The calls of a guard. -/
inductive Call where
  /-- Begin a section. -/
  | disable
  /-- End a section. -/
  | restore
  /-- Ask whether interrupts are delivered. -/
  | ask
  /-- Run a body inside a section. -/
  | free
  deriving DecidableEq, Repr

/-- The answers of a guard: only a question has one. -/
abbrev Answer : Call → Type
  | .ask => Bool
  | .disable | .restore | .free => Unit

/-- The calls of a guard; the only hook is the body of `free`. -/
abbrev interface : Interface where
  Call := Call
  Answer := Answer
  Hook := Unit

/-- A call on a guard. -/
def start : (c : Call) → AtomicSection M → Step Unit (AtomicSection M) (Answer c)
  | .disable, s => .finished () s.disable
  | .restore, s => .finished () s.restore
  | .ask, s => .answer s.ask
  | .free, s => .entering () s.disable fun s => ((), s.restore)

/-- A guard. The surroundings may do to the controller what they like. -/
def component (M : Type) [InterruptControl M] : Component interface (AtomicSection M) (M → M) where
  start := start
  act f s := { s with controller := f s.controller }

end AtomicSection

end SerialGateway
