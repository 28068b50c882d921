import Cadence.Task
import Cadence.Effect
/-!
A simulated session: the heap, the flows, the scheduled tasks, the collapsed effects with what
they hold back, and the clock.
-/

namespace Cadence

/-- Bounds on one tick, which turn a tick that would never end into an error. -/
structure Limits where
  rounds : Nat := 10000
  steps : Nat := 100000
  deriving DecidableEq

/-- The state of a session; `journal` holds the exchanges of its latest tick, the last one first. -/
structure Simulation (σ : Type) where
  heap : Heap := {}
  flows : FlowTable σ := {}
  tasks : TaskTable σ := {}
  effects : EffectTable := {}
  replay : ReplayStore := {}
  now : Tick := 0
  limits : Limits := {}
  journal : List (Exchange σ) := []

namespace Simulation

variable {σ : Type}

def empty : Simulation σ := {}

def withLimits (limits : Limits) : Simulation σ :=
  { limits := limits }

def setLimits (sim : Simulation σ) (limits : Limits) : Simulation σ :=
  { sim with limits }

def register (sim : Simulation σ) (object : Object) : String × Simulation σ :=
  let (address, heap) := sim.heap.register object
  (address, { sim with heap })

def setNode (sim : Simulation σ) (address : Address) (node : String) : Simulation σ :=
  { sim with heap := sim.heap.setNode address node }

def spawn (sim : Simulation σ) (recipe : Recipe σ) : FlowId × Simulation σ :=
  let (id, flows) := sim.flows.create recipe none false sim.now
  (id, { sim with flows })

def schedule (sim : Simulation σ) (name : String) (schedule : Schedule) (recipe : Recipe σ) :
    TaskId × Simulation σ :=
  let (id, tasks) := sim.tasks.add name schedule recipe sim.now
  (id, { sim with tasks })

def addEffect (sim : Simulation σ) (id : String) (nodes : List String) : Simulation σ :=
  { sim with effects := sim.effects.register id nodes }

def flush (sim : Simulation σ) : List TickReport × Simulation σ :=
  (sim.replay.held, { sim with replay := {} })

def isIdle (sim : Simulation σ) : Bool :=
  !sim.flows.hasLive && sim.tasks.scheduled.isEmpty

/-- Forgets flows, tasks and what was held back, but keeps the heap and the effects. -/
def resetStacks (sim : Simulation σ) : Simulation σ :=
  { sim with flows := {}, tasks := {}, replay := {}, now := 0, journal := [] }

def reset (sim : Simulation σ) : Simulation σ :=
  { sim.resetStacks with heap := sim.heap.reset, effects := {} }

end Simulation

end Cadence
