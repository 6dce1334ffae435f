import SerialGateway.Counter
import SerialGateway.Interrupt.Control
import SerialGateway.Reentrant.Component
import SerialGateway.Schedule.Tier
import SerialGateway.Settings

/-!
# Tiered task scheduling

What this module delivers: the scheduler that the base tick drives. Every fifth
tick is a cadence step; a step runs the task of one tier, with interrupts
delivered meanwhile, so that reception is not held off by application work. A
tick that arrives during a task still counts. If it is a cadence step it runs
nothing and is counted as an overrun.

A tick is a `Step`: all that a nested tick can see is in place when the task is
entered.
-/

set_option autoImplicit false

namespace SerialGateway

/-- What a base tick did. -/
inductive Dispatch where
  /-- No cadence step. -/
  | pending
  /-- A cadence step during a task that was still running. -/
  | overrun
  /-- A cadence step, with the tier that ran, if the step has one. -/
  | ran (tier : Option Tier)
  deriving DecidableEq, Repr

/-- The state of the scheduler. -/
structure Scheduler where
  /-- Base ticks since the last cadence step. -/
  subTicks : UInt8 := 0
  /-- The cadence, which wraps at 256. -/
  cadence : UInt8 := 0
  /-- A dispatching tick has not returned. -/
  busy : Bool := false
  /-- Cadence steps that found the scheduler busy; 255 stays. -/
  overruns : UInt8 := 0
  deriving DecidableEq, Repr

namespace Scheduler

variable {M : Type} [InterruptControl M]

/-- The scheduler at its next cadence step. -/
def stepCadence (s : Scheduler) : Scheduler :=
  { s with subTicks := 0, cadence := s.cadence + 1 }

/-- End a dispatch: interrupts that were masked when it began are masked again. -/
def endDispatch (tier : Option Tier) (wasEnabled : Bool) (w : Scheduler × M) :
    Dispatch × (Scheduler × M) :=
  (.ran tier, { w.1 with busy := false },
    if wasEnabled then w.2 else InterruptControl.mask w.2)

/-- Begin a dispatch at the cadence that `s` has reached. -/
def dispatch (s : Scheduler) (m : M) : Step Tier (Scheduler × M) Dispatch :=
  let wasEnabled := InterruptControl.isEnabled m
  let opened := ({ s with busy := true }, InterruptControl.unmask (InterruptControl.query m))
  match Tier.ofCadence? s.cadence with
  | none => .answer (endDispatch none wasEnabled opened)
  | some tier => .entering tier opened (endDispatch (some tier) wasEnabled)

/-- A base tick. -/
def tick (w : Scheduler × M) : Step Tier (Scheduler × M) Dispatch :=
  let s := w.1
  if s.subTicks + 1 < Settings.subTicksPerCadence then
    .finished .pending ({ s with subTicks := s.subTicks + 1 }, w.2)
  else
    let s := s.stepCadence
    if s.busy then
      .finished .overrun ({ s with overruns := Counter.bump8 s.overruns }, w.2)
    else s.dispatch w.2

/-- The calls of a scheduler: the base tick, whose hooks are the tasks. -/
abbrev interface : Interface where
  Call := Unit
  Answer _ := Dispatch
  Hook := Tier

/-- A scheduler and its interrupt controller. The surroundings may do to the
controller what they like. -/
def component (M : Type) [InterruptControl M] :
    Component interface (Scheduler × M) (M → M) where
  start _ w := tick w
  act f w := (w.1, f w.2)

end Scheduler

end SerialGateway
