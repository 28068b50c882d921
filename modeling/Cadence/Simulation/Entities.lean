import Cadence.Flow.Sets
import Cadence.Simulation.Basic
/-!
A snapshot of every flow and task of a simulation.
-/

namespace Cadence

structure FlowSummary where
  id : FlowId
  name : String
  spawnedAt : Tick
  depth : Nat
  current : Option Address

def Flow.summary {σ : Type} (flow : Flow σ) : FlowSummary where
  id := flow.id
  name := flow.name
  spawnedAt := flow.spawnedAt
  depth := flow.stack.openFrames.length
  current := flow.stack.current?

structure FlowListing where
  active : List FlowId
  suspended : List FlowId
  completed : List FlowId
  cancelled : List FlowId

namespace FlowTable

variable {σ : Type}

def activeSummaries (table : FlowTable σ) : List FlowSummary :=
  table.collect fun _ phase =>
    match phase with
    | .active flow => some flow.summary
    | _ => none

def suspendedSummaries (table : FlowTable σ) : List (FlowSummary × Wait) :=
  table.collect fun _ phase =>
    match phase with
    | .suspended flow wait => some (flow.summary, wait)
    | _ => none

def completedFlows (table : FlowTable σ) : List Completion :=
  table.collect fun _ phase =>
    match phase with
    | .completed completion => some completion
    | _ => none

def cancelledFlows (table : FlowTable σ) : List Cancellation :=
  table.collect fun _ phase =>
    match phase with
    | .cancelled cancellation => some cancellation
    | _ => none

def listing (table : FlowTable σ) : FlowListing where
  active := table.activations.map (·.1)
  suspended := table.waiting
  completed := table.collect fun id phase =>
    match phase with
    | .completed _ => some id
    | _ => none
  cancelled := table.collect fun id phase =>
    match phase with
    | .cancelled _ => some id
    | _ => none

end FlowTable

namespace FlowSets

variable {σ : Type}

def activeSummaries (sets : FlowSets σ) : List FlowSummary :=
  sets.active.toList.map fun (_, flow) => flow.summary

def suspendedSummaries (sets : FlowSets σ) : List (FlowSummary × PlacedWait) :=
  sets.suspended.toList.filterMap fun (_, flow) => sets.waits[flow.id]?.map (flow.summary, ·)

def completedFlows (sets : FlowSets σ) : List Completion :=
  sets.completed.toList.map Prod.snd

def cancelledFlows (sets : FlowSets σ) : List Cancellation :=
  sets.cancelled.toList.map Prod.snd

def listing (sets : FlowSets σ) : FlowListing where
  active := sets.active.keys
  suspended := sets.suspended.keys
  completed := sets.completed.keys
  cancelled := sets.cancelled.keys

end FlowSets

structure TaskSummary where
  id : TaskId
  name : String
  isTimer : Bool
  period : Nat
  registeredAt : Tick
  spawned : List String

def Task.summary {σ : Type} (task : Task σ) : TaskSummary where
  id := task.id
  name := task.name
  isTimer :=
    match task.schedule with
    | .timer _ _ _ => true
    | .interval _ _ _ => false
  period := task.schedule.period
  registeredAt := task.registeredAt
  spawned := task.spawned

structure Entities where
  tick : Tick
  active : List FlowSummary
  suspended : List (FlowSummary × Wait)
  completed : List Completion
  cancelled : List Cancellation
  scheduledTasks : List TaskSummary
  completedTasks : List TaskSummary

def Entities.isEmpty (entities : Entities) : Bool :=
  entities.active.isEmpty && entities.suspended.isEmpty && entities.completed.isEmpty
    && entities.cancelled.isEmpty && entities.scheduledTasks.isEmpty
    && entities.completedTasks.isEmpty

def Simulation.entities {σ : Type} (sim : Simulation σ) : Entities where
  tick := sim.now
  active := sim.flows.activeSummaries
  suspended := sim.flows.suspendedSummaries
  completed := sim.flows.completedFlows
  cancelled := sim.flows.cancelledFlows
  scheduledTasks := sim.tasks.scheduled.map Task.summary
  completedTasks := sim.tasks.completed.map Task.summary

end Cadence
