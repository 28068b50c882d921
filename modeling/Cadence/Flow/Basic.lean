import Cadence.Flow.Coroutine
import Cadence.Flow.Stack
import Cadence.Traffic
/-!
Flows and the waits they are suspended on.
-/

namespace Cadence

structure Wait where
  strategy : Strategy
  caller : Address
  isDependency : Bool
  dependencies : List FlowId
  submittedAt : Tick

structure Released where
  flow : FlowId
  lastAddress : Option Address
  value : Json

/-- How a flow came back from its wait, until the step after it has told so. -/
structure Resumption where
  resumedAt : Tick
  caller : Address
  isDependency : Bool
  released : List Released

def Strategy.check (strategy : Strategy) (flow : FlowId) (count : Nat) :
    Except EngineError Unit :=
  match strategy with
  | .single =>
    if count = 1 then .ok ()
    else .error (.invalidAwait flow s!"SINGLE awaits exactly one flow, got {count}")
  | .race =>
    if count = 0 then .error (.invalidAwait flow "RACE needs at least one flow")
    else .ok ()
  | .all => .ok ()

structure Flow (σ : Type) where
  id : FlowId
  name : String
  spawnedAt : Tick
  stack : Stack
  coroutine : σ
  activation : Nat := 0
  stepsTaken : Nat := 0
  resumption : Option Resumption := none

namespace Flow

variable {σ : Type}

def ofRecipe (id : FlowId) (recipe : Recipe σ) (caller : Option Address) (isDependency : Bool)
    (tick : Tick) : Flow σ where
  id := id
  name := recipe.name
  spawnedAt := tick
  stack := { flow := id, records := [Record.entry caller recipe.args isDependency] }
  coroutine := recipe.start

def cancellation (flow : Flow σ) (parent : FlowId) (caller : Option Address) (tick : Tick) :
    Cancellation where
  id := flow.id
  name := flow.name
  parent := parent
  caller := caller
  rootCaller := flow.stack.records.getLast?.bind Record.address?
  openFrames := flow.stack.openFrames
  spawnedAt := flow.spawnedAt
  cancelledAt := tick

end Flow

structure AwaitGraph where
  isLive : FlowId → Bool
  dependencies : FlowId → List FlowId

namespace AwaitGraph

def unseen (graph : AwaitGraph) (seen : List FlowId) : List FlowId → List FlowId
  | [] => []
  | id :: ids =>
    if graph.isLive id ∧ id ∉ seen then id :: unseen graph (id :: seen) ids
    else unseen graph seen ids

/-- Breadth-first search; `found` holds the flows reached so far, in the order they were. -/
def explore (graph : AwaitGraph) (root : FlowId) :
    Nat → List FlowId → List FlowId → List FlowId
  | 0, _, found => found
  | _, [], found => found
  | fuel + 1, id :: queue, found =>
    let fresh := graph.unseen (root :: found) (graph.dependencies id)
    explore graph root fuel (queue ++ fresh) (found ++ fresh)

end AwaitGraph

end Cadence
