import Cadence.Flow.Table
import Std.Data.TreeMap.Basic
/-!
The flows kept in four sets, one for each phase of their life, with a separate table of the waits of
those that are suspended. An operation takes a flow out of one set before it puts it into another.
-/

namespace Cadence

open Std (TreeMap)

structure PlacedWait where
  flow : FlowId
  wait : Wait

structure FlowSets (σ : Type) where
  lastId : FlowId := 0
  completions : Nat := 0
  active : TreeMap FlowId (Flow σ) := {}
  suspended : TreeMap FlowId (Flow σ) := {}
  completed : TreeMap FlowId Completion := {}
  cancelled : TreeMap FlowId Cancellation := {}
  waits : TreeMap FlowId PlacedWait := {}

namespace FlowSets

variable {σ : Type}

def empty : FlowSets σ := {}

def isLive (sets : FlowSets σ) (id : FlowId) : Bool :=
  sets.active.contains id || sets.suspended.contains id

def hasLive (sets : FlowSets σ) : Bool :=
  !(sets.active.isEmpty && sets.suspended.isEmpty)

def activations (sets : FlowSets σ) : List (FlowId × Nat) :=
  sets.active.toList.map fun (_, flow) => (flow.id, flow.activation)

def create (sets : FlowSets σ) (recipe : Recipe σ) (caller : Option Address)
    (isDependency : Bool) (tick : Tick) : FlowId × FlowSets σ :=
  let id := sets.lastId + 1
  let flow := Flow.ofRecipe id recipe caller isDependency tick
  (id, { sets with lastId := id, active := sets.active.insert id flow })

def edit (id : FlowId) (change : Flow σ → Flow σ) : Engine (FlowSets σ) Unit := fun sets =>
  match sets.active[id]? with
  | none => .error (.notActive id) sets
  | some flow => .ok () { sets with active := sets.active.insert id (change flow) }

def dependencies (sets : FlowSets σ) (id : FlowId) : List FlowId :=
  match sets.waits[id]? with
  | some placed => placed.wait.dependencies
  | none => []

def graph (sets : FlowSets σ) : AwaitGraph where
  isLive := sets.isLive
  dependencies := sets.dependencies

def liveDescendants (sets : FlowSets σ) (id : FlowId) : List FlowId :=
  sets.graph.explore id (sets.lastId + 1) [id] []

def takeLive? (sets : FlowSets σ) (id : FlowId) : Option (Flow σ × FlowSets σ) :=
  match sets.active[id]? with
  | some flow => some (flow, { sets with active := sets.active.erase id })
  | none =>
    match sets.suspended[id]? with
    | some flow => some (flow, { sets with suspended := sets.suspended.erase id })
    | none => none

def tearDown (parent : FlowId) (caller : Option Address) (tick : Tick) :
    List FlowId → FlowSets σ → List Cancellation × FlowSets σ
  | [], sets => ([], sets)
  | id :: ids, sets =>
    match sets.takeLive? id with
    | none => tearDown parent caller tick ids sets
    | some (flow, sets) =>
      let cancellation := { flow.cancellation parent caller tick with id }
      let sets :=
        { sets with
          waits := sets.waits.erase id
          cancelled := sets.cancelled.insert id cancellation }
      let (cancellations, sets) := tearDown parent caller tick ids sets
      (cancellation :: cancellations, sets)

def cancel (id parent : FlowId) (caller : Option Address) (tick : Tick) :
    Engine (FlowSets σ) (List Cancellation) := fun sets =>
  if sets.isLive id then
    let (cancellations, sets) := tearDown parent caller tick (id :: sets.liveDescendants id) sets
    .ok cancellations sets
  else .error (.cancelNotAlive id) sets

def cancelLosers (winner : Option FlowId) (parent : FlowId) (caller : Address) (tick : Tick) :
    List FlowId → Engine (FlowSets σ) (List Cancellation)
  | [] => return []
  | id :: ids => do
    let first ←
      if some id ≠ winner ∧ (← get).isLive id then cancel id parent (some caller) tick
      else pure []
    let rest ← cancelLosers winner parent caller tick ids
    return first ++ rest

def released? (sets : FlowSets σ) (id : FlowId) : Option Released :=
  sets.completed[id]?.map fun done => ⟨id, done.lastAddress, done.value⟩

def firstCompleted? (sets : FlowSets σ) (ids : List FlowId) : Option Completion :=
  (ids.filterMap (sets.completed[·]?)).foldl
    (fun first? done =>
      match first? with
      | none => some done
      | some first => if done.order < first.order then some done else some first)
    none

def outcome? (sets : FlowSets σ) (wait : Wait) : Option (Json × List Released) :=
  match wait.strategy with
  | .single => do
    let id ← wait.dependencies.head?
    let released ← sets.released? id
    return (released.value, [released])
  | .all => do
    let released ← wait.dependencies.mapM sets.released?
    return (.arr (released.map Released.value), released)
  | .race => do
    let winner ← sets.firstCompleted? wait.dependencies
    let released ← sets.released? winner.id
    return (released.value, [released])

/--
Moves a flow from the suspended to the active ones, with the awaited value pending on its top
record. It is already out of the one set when it turns out to have no record.
-/
def resume (placed : PlacedWait) (value : Json) (released : List Released) (tick : Tick) :
    Engine (FlowSets σ) Unit := fun sets =>
  match sets.suspended[placed.flow]? with
  | none => .error (.resumeWithoutSuspension placed.flow) sets
  | some flow =>
    let sets := { sets with suspended := sets.suspended.erase placed.flow }
    match flow.stack.modify 0 (·.push (.provideGiven value)) with
    | .error e => .error e sets
    | .ok stack =>
      let resumption : Resumption :=
        ⟨tick, placed.wait.caller, placed.wait.isDependency, released⟩
      let flow :=
        { flow with
          stack, activation := flow.activation + 1, resumption := some resumption }
      .ok () { sets with active := sets.active.insert placed.flow flow }

def dropLosers (id : FlowId) (wait : Wait) (released : List Released) (tick : Tick) :
    Engine (FlowSets σ) (List Cancellation) := fun sets =>
  if wait.strategy = .race then
    cancelLosers (released.head?.map Released.flow) id wait.caller tick wait.dependencies sets
  else .ok [] sets

def release (id : FlowId) (placed : PlacedWait) (value : Json) (released : List Released)
    (tick : Tick) : Engine (FlowSets σ) (List Cancellation) := do
  let cancelled ← dropLosers id placed.wait released tick
  resume placed value released tick
  return cancelled

/-- Settles the wait under an id, if there still is one and it is satisfied. -/
def settle (id : FlowId) (tick : Tick) : Engine (FlowSets σ) (List Cancellation) := fun sets =>
  match sets.waits[id]? with
  | none => .ok [] sets
  | some placed =>
    match sets.outcome? placed.wait with
    | none => .ok [] sets
    | some (value, released) =>
      release id placed value released tick { sets with waits := sets.waits.erase id }

def settleEach (tick : Tick) : List FlowId → Engine (FlowSets σ) (List Cancellation)
  | [] => return []
  | id :: ids => do
    let cancelled ← settle id tick
    let later ← settleEach tick ids
    return cancelled ++ later

def resolve (tick : Tick) : Engine (FlowSets σ) (List Cancellation) := fun sets =>
  settleEach tick sets.waits.keys sets

def checkSuspension (sets : FlowSets σ) (placed : PlacedWait) : Except EngineError (Flow σ) := do
  if sets.suspended.contains placed.flow then throw (.alreadySuspended placed.flow)
  placed.wait.strategy.check placed.flow placed.wait.dependencies.length
  match sets.active[placed.flow]? with
  | some flow => return flow
  | none => throw (.notActive placed.flow)

def suspensionWarnings (sets : FlowSets σ) (placed : PlacedWait) : List Warning :=
  match sets.checkSuspension placed with
  | .ok _ =>
    (placed.wait.dependencies.filter sets.cancelled.contains).map (.awaitsCancelled placed.flow)
  | .error _ => []

def suspend (placed : PlacedWait) (tick : Tick) : Engine (FlowSets σ) (List Cancellation) :=
  fun sets =>
    match sets.checkSuspension placed with
    | .error e => .error e sets
    | .ok flow =>
      resolve tick
        { sets with
          active := sets.active.erase placed.flow
          suspended := sets.suspended.insert placed.flow flow
          waits := sets.waits.insert placed.flow placed }

def complete (id : FlowId) (value : Json) (lastAddress : Option Address) (tick : Tick) :
    Engine (FlowSets σ) (List Cancellation) := fun sets =>
  match sets.active[id]? with
  | none => .error (.notActive id) sets
  | some flow =>
    let completion : Completion :=
      { id, name := flow.name, value, lastAddress, spawnedAt := flow.spawnedAt,
        completedAt := tick, order := sets.completions + 1 }
    resolve tick
      { sets with
        active := sets.active.erase id
        completions := sets.completions + 1
        completed := sets.completed.insert id completion }

end FlowSets

end Cadence
