import Cadence.Simulation.Basic
import Cadence.Flow.Step
/-!
Stepping one flow until it sleeps, waits or completes. What each step produced is surfaced, or
held back where it stays inside one collapsed effect.
-/

namespace Cadence

structure Stage (σ : Type) where
  flow : Flow σ
  heap : Heap
  replay : ReplayStore
  journal : List (Exchange σ)

namespace Stage

variable {σ : Type}

def releaseEdges (resumption : Resumption) (tick : Tick) : List Response :=
  resumption.released.filterMap fun released =>
    released.lastAddress.map fun source =>
      { traffic := .resolveDependency source resumption.caller released.value, tick }

def isPrimed (top : Record) : Bool :=
  top.operations.any fun operation =>
    match operation with
    | .provideGiven _ => true
    | _ => false

/-- Accounts for a resumption, once: edges are drawn if the awaited values are consumed. -/
def takeResumption (tick : Tick) : Engine (Stage σ) (List Response) := fun stage =>
  match stage.flow.resumption with
  | none => .ok [] stage
  | some resumption =>
    let stage := { stage with flow := { stage.flow with resumption := none } }
    match stage.flow.stack.peek 0 with
    | .error e => .error e stage
    | .ok top =>
      if !isPrimed top then .error (.resumeWithoutSuspension stage.flow.id) stage
      else if !resumption.isDependency then .ok [] stage
      else .ok (releaseEdges resumption tick) stage

def advance [Coroutine σ] (tick : Tick) : Engine (Stage σ) (Outcome σ) := fun stage =>
  let stepped := stage.flow.step stage.heap tick
  let stage :=
    { stage with
      flow := stepped.flow, heap := stepped.heap,
      journal := stepped.exchange.toList ++ stage.journal }
  match stepped.result with
  | .ok outcome => .ok outcome stage
  | .error e => .error e stage

def spawnEdge (outcome : Outcome σ) (tick : Tick) : Engine (Stage σ) (List Response) := do
  let root ← liftExcept (← get).flow.stack.root
  match root.address?, outcome.responses.head?.map Response.traffic with
  | some caller, some (.load address params) =>
    return [{ traffic := .call caller address params root.isDependency, tick }]
  | _, _ => return []
where
  liftExcept {α : Type} : Except EngineError α → Engine (Stage σ) α
    | .ok a => pure a
    | .error e => throw e

/-- Holds the responses of a step back if one effect encloses them; else they surface. -/
def route (effects : EffectTable) (tick : Tick) (responses : List Response) :
    Engine (Stage σ) (Option Report) := fun stage =>
  if responses.isEmpty then .ok none stage
  else
    let result := Report.yielded stage.flow.id stage.flow.name responses
    match effects.isInternal stage.heap responses with
    | .error e => .error e stage
    | .ok true => .ok none { stage with replay := stage.replay.hold tick result }
    | .ok false => .ok (some result) stage

/--
Steps the flow up to its next boundary. `pending` goes in front of the first responses, and
`surfaced` holds the results so far, the last one first.
-/
def drive [Coroutine σ] (effects : EffectTable) (tick : Tick) (limit : Nat) :
    Nat → List Response → List Report → Engine (Stage σ) (List Report × Boundary σ)
  | 0, _, _ => do throw (.stepBudgetExceeded (← get).flow.id (limit + 1))
  | steps + 1, pending, surfaced => do
    let isFirst := (← get).flow.stepsTaken = 0
    let outcome ← advance tick
    let edge ← if isFirst then spawnEdge outcome tick else pure []
    let result? ← route effects tick (pending ++ edge ++ outcome.responses)
    let surfaced := result?.toList ++ surfaced
    match outcome.boundary with
    | some boundary => return (surfaced.reverse, boundary)
    | none => drive effects tick limit steps [] surfaced

def run [Coroutine σ] (effects : EffectTable) (tick : Tick) (limit : Nat) :
    Engine (Stage σ) (List Report × Boundary σ) := do
  let pending ← takeResumption tick
  drive effects tick limit limit pending []

end Stage

namespace Simulation

variable {σ : Type}

def onFlows {α : Type} (operation : Engine (FlowTable σ) α) : Engine (Simulation σ) α :=
  fun sim =>
    let flows := sim.flows
    let sim := { sim with flows := {} }
    match operation flows with
    | .ok a flows => .ok a { sim with flows }
    | .error e flows => .error e { sim with flows }

def commit (sim : Simulation σ) (stage : Stage σ) : Simulation σ :=
  { sim with
    flows := sim.flows.update stage.flow, heap := stage.heap, replay := stage.replay,
    journal := stage.journal }

def await (id : FlowId) (request : Request σ) (caller : Address) (tick : Tick) :
    Engine (Simulation σ) (List Cancellation) := fun sim =>
  match request.strategy.check id request.recipes.length with
  | .error e => .error e sim
  | .ok () =>
    onFlows (fun flows =>
      let (dependencies, flows) :=
        FlowTable.createAll (some caller) request.isDependency tick request.recipes flows
      let wait : Wait :=
        ⟨request.strategy, caller, request.isDependency, dependencies, tick⟩
      FlowTable.suspend id wait tick flows) sim

def process [Coroutine σ] (id : FlowId) (tick : Tick) : Engine (Simulation σ) (List Report) :=
  fun sim =>
    match sim.flows.active? id with
    | none => .error (.notActive id) sim
    | some flow =>
      match Stage.run sim.effects tick sim.limits.steps
          ⟨flow, sim.heap, sim.replay, sim.journal⟩ with
      | .error e stage => .error e (sim.commit stage)
      | .ok (reports, boundary) stage => conclude flow.name reports boundary (sim.commit stage)
where
  conclude (name : String) (reports : List Report) (boundary : Boundary σ) :
      Engine (Simulation σ) (List Report) := do
    match boundary with
    | .halt => return reports
    | .await request caller => do
      discard <| await id request caller tick
      return reports
    | .complete value lastAddress => do
      let cancelled ← onFlows (FlowTable.complete id value lastAddress tick)
      return reports ++ [.constructed id name value cancelled]

end Simulation

end Cadence
