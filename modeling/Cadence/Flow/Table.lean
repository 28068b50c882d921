import Cadence.Flow.Basic
import Cadence.Warning
/-!
The table of all flows. Each flow is in one phase of its life; a suspended flow carries the wait
that it is suspended on. After every suspension and completion the waits that have become
satisfied are settled: a race first cancels the flows that lost, then the waiting flow resumes.
-/

namespace Cadence

/-- Operations on `S` that may fail; what they changed before they failed stays changed. -/
abbrev Engine (S : Type) := EStateM EngineError S

inductive Phase (σ : Type) where
  | active (flow : Flow σ)
  | suspended (flow : Flow σ) (wait : Wait)
  | completed (completion : Completion)
  | cancelled (cancellation : Cancellation)

/--
The phases of the flows created so far, that of flow `n` at place `n - 1`, and the number of
completions. A flow that could not be resumed has no phase.
-/
structure FlowTable (σ : Type) where
  phases : Array (Option (Phase σ)) := #[]
  completions : Nat := 0

namespace FlowTable

variable {σ : Type}

def empty : FlowTable σ := {}

/-! ## Looking up -/

def find? (table : FlowTable σ) : FlowId → Option (Phase σ)
  | 0 => none
  | n + 1 => table.phases[n]?.join

def active? (table : FlowTable σ) (id : FlowId) : Option (Flow σ) :=
  match table.find? id with
  | some (.active flow) => some flow
  | _ => none

def suspended? (table : FlowTable σ) (id : FlowId) : Option (Flow σ × Wait) :=
  match table.find? id with
  | some (.suspended flow wait) => some (flow, wait)
  | _ => none

def completed? (table : FlowTable σ) (id : FlowId) : Option Completion :=
  match table.find? id with
  | some (.completed completion) => some completion
  | _ => none

def cancelled? (table : FlowTable σ) (id : FlowId) : Option Cancellation :=
  match table.find? id with
  | some (.cancelled cancellation) => some cancellation
  | _ => none

def live? (table : FlowTable σ) (id : FlowId) : Option (Flow σ) :=
  match table.find? id with
  | some (.active flow) | some (.suspended flow _) => some flow
  | _ => none

def isLive (table : FlowTable σ) (id : FlowId) : Bool :=
  (table.live? id).isSome

def collect {α : Type} (table : FlowTable σ) (view : FlowId → Phase σ → Option α) : List α :=
  go table.phases.size []
where
  go : Nat → List α → List α
    | 0, found => found
    | n + 1, found =>
      match table.phases[n]? with
      | some (some phase) =>
        match view (n + 1) phase with
        | some a => go n (a :: found)
        | none => go n found
      | _ => go n found

def activations (table : FlowTable σ) : List (FlowId × Nat) :=
  table.collect fun id phase =>
    match phase with
    | .active flow => some (id, flow.activation)
    | _ => none

def waiting (table : FlowTable σ) : List FlowId :=
  table.collect fun id phase =>
    match phase with
    | .suspended _ _ => some id
    | _ => none

def hasLive (table : FlowTable σ) : Bool :=
  !(table.collect fun id _ => if table.isLive id then some id else none).isEmpty

/-! ## Changing phases -/

def put (table : FlowTable σ) (id : FlowId) (phase : Option (Phase σ)) : FlowTable σ :=
  match id with
  | 0 => table
  | n + 1 => { table with phases := table.phases.setIfInBounds n phase }

def update (table : FlowTable σ) (flow : Flow σ) : FlowTable σ :=
  table.put flow.id (some (.active flow))

def create (table : FlowTable σ) (recipe : Recipe σ) (caller : Option Address)
    (isDependency : Bool) (tick : Tick) : FlowId × FlowTable σ :=
  let id := table.phases.size + 1
  let flow := Flow.ofRecipe id recipe caller isDependency tick
  (id, { table with phases := table.phases.push (some (.active flow)) })

def createAll (caller : Option Address) (isDependency : Bool) (tick : Tick) :
    List (Recipe σ) → FlowTable σ → List FlowId × FlowTable σ
  | [], table => ([], table)
  | recipe :: recipes, table =>
    let (id, table) := table.create recipe caller isDependency tick
    let (ids, table) := createAll caller isDependency tick recipes table
    (id :: ids, table)

/-! ## The await graph -/

def dependencies (table : FlowTable σ) (id : FlowId) : List FlowId :=
  match table.suspended? id with
  | some (_, wait) => wait.dependencies
  | none => []

def graph (table : FlowTable σ) : AwaitGraph where
  isLive := table.isLive
  dependencies := table.dependencies

@[simp] theorem graph_isLive (table : FlowTable σ) (id : FlowId) :
    table.graph.isLive id = table.isLive id := rfl

@[simp] theorem graph_dependencies (table : FlowTable σ) (id : FlowId) :
    table.graph.dependencies id = table.dependencies id := rfl

/--
The live flows that a flow waits for, directly or through others, in breadth-first order. Each
flow enters the queue at most once, so the number of flows bounds the search.
-/
def liveDescendants (table : FlowTable σ) (id : FlowId) : List FlowId :=
  table.graph.explore id (table.phases.size + 1) [id] []

/-! ## Cancelling -/

def tearDown (parent : FlowId) (caller : Option Address) (tick : Tick) :
    List FlowId → FlowTable σ → List Cancellation × FlowTable σ
  | [], table => ([], table)
  | id :: ids, table =>
    match table.live? id with
    | none => tearDown parent caller tick ids table
    | some flow =>
      let cancellation := flow.cancellation parent caller tick
      let table := table.put id (some (.cancelled cancellation))
      let (cancellations, table) := tearDown parent caller tick ids table
      (cancellation :: cancellations, table)

def cancelTree (table : FlowTable σ) (id parent : FlowId) (caller : Option Address)
    (tick : Tick) : List Cancellation × FlowTable σ :=
  tearDown parent caller tick (id :: table.liveDescendants id) table

def cancel (id parent : FlowId) (caller : Option Address) (tick : Tick) :
    Engine (FlowTable σ) (List Cancellation) := fun table =>
  if table.isLive id then
    let (cancellations, table) := table.cancelTree id parent caller tick
    .ok cancellations table
  else .error (.cancelNotAlive id) table

/-- Cancels the trees of those flows of a race that are still live, but for the winner. -/
def cancelLosers (winner : Option FlowId) (parent : FlowId) (caller : Address) (tick : Tick) :
    List FlowId → Engine (FlowTable σ) (List Cancellation)
  | [] => return []
  | id :: ids => do
    let first ←
      if some id ≠ winner ∧ (← get).isLive id then cancel id parent (some caller) tick
      else pure []
    let rest ← cancelLosers winner parent caller tick ids
    return first ++ rest

/-! ## Settling waits -/

def released? (table : FlowTable σ) (id : FlowId) : Option Released :=
  (table.completed? id).map fun done => ⟨id, done.lastAddress, done.value⟩

def firstCompleted? (table : FlowTable σ) (ids : List FlowId) : Option Completion :=
  (ids.filterMap table.completed?).foldl
    (fun first? done =>
      match first? with
      | none => some done
      | some first => if done.order < first.order then some done else some first)
    none

def outcome? (table : FlowTable σ) (wait : Wait) : Option (Json × List Released) :=
  match wait.strategy with
  | .single => do
    let id ← wait.dependencies.head?
    let released ← table.released? id
    return (released.value, [released])
  | .all => do
    let released ← wait.dependencies.mapM table.released?
    return (.arr (released.map Released.value), released)
  | .race => do
    let winner ← table.firstCompleted? wait.dependencies
    return (winner.value, [⟨winner.id, winner.lastAddress, winner.value⟩])

/-- A wait that is being settled no longer leads to the flows it was for. -/
def withdraw (table : FlowTable σ) (id : FlowId) : FlowTable σ :=
  match table.suspended? id with
  | some (flow, wait) =>
    table.put id (some (.suspended flow { wait with dependencies := [] }))
  | none => table

/-- Makes a suspended flow active again, with the awaited value pending on its top record. -/
def resume (id : FlowId) (wait : Wait) (value : Json) (released : List Released) (tick : Tick) :
    Engine (FlowTable σ) Unit := fun table =>
  match table.suspended? id with
  | none => .error (.resumeWithoutSuspension id) table
  | some (flow, _) =>
    match flow.stack.modify 0 (·.push (.provideGiven value)) with
    | .error e => .error e (table.put id none)
    | .ok stack =>
      let resumption : Resumption := ⟨tick, wait.caller, wait.isDependency, released⟩
      let flow :=
        { flow with
          stack, activation := flow.activation + 1, resumption := some resumption }
      .ok () (table.put id (some (.active flow)))

def dropLosers (id : FlowId) (wait : Wait) (released : List Released) (tick : Tick) :
    Engine (FlowTable σ) (List Cancellation) := fun table =>
  if wait.strategy = .race then
    cancelLosers (released.head?.map Released.flow) id wait.caller tick wait.dependencies
      (table.withdraw id)
  else .ok [] table

def release (id : FlowId) (wait : Wait) (value : Json) (released : List Released) (tick : Tick) :
    Engine (FlowTable σ) (List Cancellation) := do
  let cancelled ← dropLosers id wait released tick
  resume id wait value released tick
  return cancelled

def settle (id : FlowId) (tick : Tick) : Engine (FlowTable σ) (List Cancellation) :=
  fun table =>
    match table.suspended? id with
    | none => .ok [] table
    | some (_, wait) =>
      match table.outcome? wait with
      | none => .ok [] table
      | some (value, released) => release id wait value released tick table

def settleEach (tick : Tick) : List FlowId → Engine (FlowTable σ) (List Cancellation)
  | [] => return []
  | id :: ids => do
    let cancelled ← settle id tick
    let later ← settleEach tick ids
    return cancelled ++ later

def ready (table : FlowTable σ) : List FlowId :=
  table.collect fun id phase =>
    match phase with
    | .suspended _ wait => if (table.outcome? wait).isSome then some id else none
    | _ => none

/--
Settles every satisfied wait, in the order of the waiting flows' ids. Settling one of them can
cancel the flow of a later one, but it completes none, so no other wait becomes satisfied.
-/
def resolve (tick : Tick) : Engine (FlowTable σ) (List Cancellation) := fun table =>
  settleEach tick table.ready table

/-! ## Suspending and completing -/

def checkSuspension (table : FlowTable σ) (id : FlowId) (wait : Wait) :
    Except EngineError (Flow σ) := do
  if (table.suspended? id).isSome then throw (.alreadySuspended id)
  wait.strategy.check id wait.dependencies.length
  match table.active? id with
  | some flow => return flow
  | none => throw (.notActive id)

def suspensionWarnings (table : FlowTable σ) (id : FlowId) (wait : Wait) : List Warning :=
  match table.checkSuspension id wait with
  | .ok _ =>
    (wait.dependencies.filter fun dependency => (table.cancelled? dependency).isSome).map
      (.awaitsCancelled id)
  | .error _ => []

def suspend (id : FlowId) (wait : Wait) (tick : Tick) :
    Engine (FlowTable σ) (List Cancellation) := fun table =>
  match table.checkSuspension id wait with
  | .error e => .error e table
  | .ok flow => resolve tick (table.put id (some (.suspended flow wait)))

def complete (id : FlowId) (value : Json) (lastAddress : Option Address) (tick : Tick) :
    Engine (FlowTable σ) (List Cancellation) := fun table =>
  match table.active? id with
  | none => .error (.notActive id) table
  | some flow =>
    let completion : Completion :=
      { id, name := flow.name, value, lastAddress, spawnedAt := flow.spawnedAt,
        completedAt := tick, order := table.completions + 1 }
    let table := table.put id (some (.completed completion))
    resolve tick { table with completions := table.completions + 1 }

end FlowTable

end Cadence
