import Cadence.Flow.Table
/-!
Timers and intervals. Each scheduled task is stepped once per tick; when it fires it starts a flow
from its recipe.
-/

namespace Cadence

/-- When a task fires, and how far it has come. A period of zero counts as one. -/
inductive Schedule where
  | timer (after elapsed : Nat) (fired : Bool)
  | interval (every elapsed spawned : Nat)
  deriving DecidableEq

inductive Firing where
  | idle
  | spawn (name : String)
  deriving DecidableEq

namespace Schedule

def ofTimer (after : Nat) : Schedule :=
  timer after 0 false

def ofInterval (every : Nat) : Schedule :=
  interval every 0 0

def period : Schedule → Nat
  | timer after _ _ => after
  | interval every _ _ => every

def isFinished : Schedule → Bool
  | timer _ _ fired => fired
  | interval _ _ _ => false

def next (schedule : Schedule) (name : String) : Option Firing × Schedule :=
  match schedule with
  | timer after elapsed true => (none, timer after elapsed true)
  | timer after elapsed false =>
    if elapsed + 1 < max after 1 then (some .idle, timer after (elapsed + 1) false)
    else (some (.spawn name), timer after (elapsed + 1) true)
  | interval every elapsed spawned =>
    if (elapsed + 1) % max every 1 = 0 then
      (some (.spawn s!"{name}#{spawned + 1}"), interval every (elapsed + 1) (spawned + 1))
    else (some .idle, interval every (elapsed + 1) spawned)

end Schedule

structure Task (σ : Type) where
  id : TaskId
  name : String
  schedule : Schedule
  registeredAt : Tick
  spawned : List String := []
  recipe : Recipe σ

/-- The tasks registered so far, task `n` at place `n - 1`, finished ones included. -/
structure TaskTable (σ : Type) where
  tasks : List (Task σ) := []

namespace TaskTable

variable {σ : Type}

def empty : TaskTable σ := {}

def scheduled (table : TaskTable σ) : List (Task σ) :=
  table.tasks.filter fun task => !task.schedule.isFinished

def completed (table : TaskTable σ) : List (Task σ) :=
  table.tasks.filter fun task => task.schedule.isFinished

def ids (table : TaskTable σ) : List TaskId :=
  table.scheduled.map Task.id

def find? (table : TaskTable σ) : TaskId → Option (Task σ)
  | 0 => none
  | n + 1 => table.tasks[n]?

def add (table : TaskTable σ) (name : String) (schedule : Schedule) (recipe : Recipe σ)
    (now : Tick) : TaskId × TaskTable σ :=
  let id := table.tasks.length + 1
  (id, { tasks := table.tasks ++ [{ id, name, schedule, registeredAt := now, recipe }] })

/-- Steps a scheduled task; if it fires, its recipe is given back under the flow's name. -/
def tick (id : TaskId) : Engine (TaskTable σ) (Option (Recipe σ)) := fun table =>
  match table.find? id with
  | none => .error (.unknownTask id) table
  | some task =>
    if task.schedule.isFinished then .error (.unknownTask id) table
    else
      let (firing, schedule) := task.schedule.next task.name
      let spawned? :=
        match firing with
        | some (.spawn name) => some name
        | _ => none
      let task := { task with schedule, spawned := task.spawned ++ spawned?.toList }
      .ok (spawned?.map fun name => { task.recipe with name })
        { tasks := table.tasks.set (id - 1) task }

end TaskTable

end Cadence
