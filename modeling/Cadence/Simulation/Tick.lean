import Cadence.Simulation.Process
/-!
A tick runs in rounds. Each round steps every scheduled task and every activation of a flow that
the tick has not covered yet; a round can bring up new work, so rounds repeat until there is none.
Only then does the clock advance.
-/

namespace Cadence

/--
What a tick has stepped: tasks, and for flow `n` at place `n - 1` its latest activation. An
activation never comes back once a later one has begun.
-/
structure Coverage where
  tasks : List TaskId := []
  flows : Array (Option Nat) := #[]

namespace Coverage

def covers (covered : Coverage) (key : FlowId × Nat) : Bool :=
  match key.1 with
  | 0 => false
  | n + 1 => covered.flows[n]?.join = some key.2

def cover (flows : Array (Option Nat)) (key : FlowId × Nat) : Array (Option Nat) :=
  match key.1 with
  | 0 => flows
  | n + 1 =>
    let missing := n + 1 - flows.size
    (flows ++ Array.replicate missing none).setIfInBounds n (some key.2)

def add (covered : Coverage) (tasks : List TaskId) (flows : List (FlowId × Nat)) : Coverage where
  tasks := tasks ++ covered.tasks
  flows := flows.foldl cover covered.flows

end Coverage

namespace Simulation

variable {σ : Type}

def pendingTasks (sim : Simulation σ) (covered : Coverage) : List TaskId :=
  sim.tasks.ids.filter (· ∉ covered.tasks)

def pendingFlows (sim : Simulation σ) (covered : Coverage) : List (FlowId × Nat) :=
  sim.flows.activations.filter fun key => !covered.covers key

def stepTasks (tick : Tick) : List TaskId → Engine (Simulation σ) Unit
  | [] => return ()
  | id :: ids => do
    stepTask id
    stepTasks tick ids
where
  stepTask (id : TaskId) : Engine (Simulation σ) Unit := fun sim =>
    match TaskTable.tick id sim.tasks with
    | .error e tasks => .error e { sim with tasks }
    | .ok none tasks => .ok () { sim with tasks }
    | .ok (some recipe) tasks =>
      .ok () { sim with tasks, flows := (sim.flows.create recipe none false tick).2 }

/--
Steps activations of flows. An earlier flow of the round may have cancelled, suspended or resumed
a later one, whose activation is then passed over.
-/
def stepFlows [Coroutine σ] (tick : Tick) :
    List (FlowId × Nat) → Engine (Simulation σ) (List Report)
  | [] => return []
  | (id, activation) :: rest => do
    let current := ((← get).flows.active? id).map Flow.activation
    let reports ← if current = some activation then process id tick else pure []
    let later ← stepFlows tick rest
    return reports ++ later

def runRounds [Coroutine σ] (tick : Tick) (limit : Nat) :
    Nat → Coverage → List Report → Engine (Simulation σ) (List Report)
  | remaining, covered, reports => do
    let tasks := (← get).pendingTasks covered
    if tasks.isEmpty ∧ ((← get).pendingFlows covered).isEmpty then return reports
    match remaining with
    | 0 => throw (.tickBudgetExceeded tick (limit + 1))
    | remaining + 1 =>
      stepTasks tick tasks
      let flows := (← get).pendingFlows covered
      let fresh ← stepFlows tick flows
      runRounds tick limit remaining (covered.add tasks flows) (reports ++ fresh)

/-- Advances the simulation by one tick. A tick that fails leaves the clock where it was. -/
def tick [Coroutine σ] : Engine (Simulation σ) TickReport := do
  modify fun sim => { sim with journal := [] }
  let sim ← get
  let reports ← runRounds sim.now sim.limits.rounds sim.limits.rounds {} []
  modify fun sim => { sim with now := sim.now + 1 }
  return { tick := sim.now, reports }

end Simulation

end Cadence
