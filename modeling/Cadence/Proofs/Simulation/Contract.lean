import Cadence.Proofs.Flow.Step
import Cadence.Proofs.FlowTable.Pruning
/-!
What the engine may rely on while it steps coroutines, and what it keeps up for each flow in return.
A contract is a parameter of the proofs about a tick: one that asks for nothing is met by every
coroutine, and one that says more is met by the methods of a scenario.
-/

namespace Cadence

structure Terms (σ : Type) where
  heap : Heap → Prop
  starts : σ → Prop
  running : List Record → σ → Prop
  parked : List Record → σ → Prop
  faults : EngineError → Prop

variable {σ : Type}

def Terms.Keeps (terms : Terms σ) (flow : Flow σ) : Except EngineError (Outcome σ) → Prop
  | .error e => terms.faults e ∧ terms.running flow.stack.records flow.coroutine
  | .ok outcome =>
    match outcome.boundary with
    | none | some .halt => terms.running flow.stack.records flow.coroutine
    | some (.await request _) =>
      terms.parked flow.stack.records flow.coroutine ∧
        (∀ recipe ∈ request.recipes, terms.starts recipe.start) ∧
        ∀ e, request.strategy.check flow.id request.recipes.length = .error e →
          terms.faults e ∧ terms.running flow.stack.records flow.coroutine
    | some (.complete _ _) => True

/-- Terms that the coroutines of a kind keep to. -/
structure Contract (σ : Type) [Coroutine σ] extends Terms σ where
  grow : ∀ {before after}, before.Grows after → heap before → heap after
  start : ∀ {state} (caller : Option Address) (args : List Json) (isDependency : Bool),
    starts state → running [Record.entry caller args isDependency] state
  resume : ∀ {top below state} (value : Json), Stack.Parked (top :: below) →
    parked (top :: below) state → running (top.push (.provideGiven value) :: below) state
  step : ∀ {memory : Heap} {flow : Flow σ} (tick : Tick), heap memory → flow.Sound memory →
    running flow.stack.records flow.coroutine →
      toTerms.Keeps (flow.step memory tick).flow (flow.step memory tick).result

theorem Strategy.isFault_of_check {strategy : Strategy} {flow : FlowId} {count : Nat}
    {e : EngineError} (refused : strategy.check flow count = .error e) : e.isFault = true := by
  unfold check at refused
  cases strategy with
  | single =>
      simp only at refused
      split at refused
      · cases refused
      · cases refused; rfl
  | all => cases refused
  | race =>
      simp only at refused
      split at refused
      · cases refused; rfl
      · cases refused

def Contract.any (σ : Type) [Coroutine σ] : Contract σ where
  heap _ := True
  starts _ := True
  running _ _ := True
  parked _ _ := True
  faults e := e.isFault = true
  grow _ _ := trivial
  start _ _ _ _ := trivial
  resume _ _ _ := trivial
  step {memory flow} tick _ sound _ := by
    obtain ⟨-, -, -, accepts⟩ := Flow.step_advances sound tick
    unfold Terms.Keeps
    cases result : (flow.step memory tick).result with
    | error e =>
        rw [result] at accepts
        exact ⟨accepts, trivial⟩
    | ok outcome =>
        simp only
        split
        · trivial
        · trivial
        · exact ⟨trivial, fun _ _ => trivial, fun _ refused =>
            ⟨Strategy.isFault_of_check refused, trivial⟩⟩
        · trivial

namespace Contract

variable [Coroutine σ] (contract : Contract σ)

def Traced (heap : Heap) (resumption : Resumption) : Prop :=
  heap.hasNode resumption.caller = true ∧ ∀ released ∈ resumption.released, ∀ address,
    released.lastAddress = some address → heap.hasNode address = true

structure Active (heap : Heap) (id : FlowId) (flow : Flow σ) : Prop where
  named : flow.id = id
  sound : flow.Sound heap
  running : contract.running flow.stack.records flow.coroutine
  primed : ∀ resumption, flow.resumption = some resumption →
    Traced heap resumption ∧ ∃ top below value,
      flow.stack.records = top :: below ∧ top.operations = [.provideGiven value]

structure Suspended (heap : Heap) (id : FlowId) (flow : Flow σ) (wait : Wait) : Prop where
  named : flow.id = id
  maps : heap.Maps flow.stack.records
  still : Stack.Parked flow.stack.records
  parked : contract.parked flow.stack.records flow.coroutine
  shapely : wait.strategy.check id wait.dependencies.length = .ok ()
  caller : heap.hasNode wait.caller = true

def Admits (heap : Heap) (id : FlowId) : Phase σ → Prop
  | .active flow => contract.Active heap id flow
  | .suspended flow wait => contract.Suspended heap id flow wait
  | .completed done => ∀ address, done.lastAddress = some address → heap.hasNode address = true
  | .cancelled _ => True

variable {contract} {heap after : Heap} {id : FlowId} {flow : Flow σ} {wait : Wait}
  {phase : Phase σ}

theorem Traced.grows {resumption : Resumption} (traced : Traced heap resumption)
    (grows : heap.Grows after) : Traced after resumption :=
  ⟨grows.nodes _ traced.1, fun released member address place =>
    grows.nodes address (traced.2 released member address place)⟩

theorem Admits.grows (admits : contract.Admits heap id phase) (grows : heap.Grows after) :
    contract.Admits after id phase := by
  cases phase with
  | active flow =>
      obtain ⟨named, sound, running, primed⟩ := admits
      refine ⟨named, ⟨sound.shape, sound.maps.grows grows⟩, running, fun resumption resumed => ?_⟩
      exact (primed resumption resumed).imp_left (·.grows grows)
  | suspended flow wait =>
      exact { admits with maps := admits.maps.grows grows, caller := grows.nodes _ admits.caller }
  | completed done => exact fun address place => grows.nodes address (admits address place)
  | cancelled cancellation => trivial

theorem admits_ofRecipe {recipe : Recipe σ} (starts : contract.starts recipe.start)
    {caller : Option Address} (mapped : ∀ address, caller = some address → heap.hasNode address = true)
    (isDependency : Bool) (tick : Tick) :
    contract.Admits heap id (.active (Flow.ofRecipe id recipe caller isDependency tick)) where
  named := rfl
  sound := by
    refine ⟨.entry rfl (.inr rfl), fun record member address place => ?_⟩
    obtain rfl : record = Record.entry caller recipe.args isDependency := by
      simpa [Flow.ofRecipe] using member
    exact mapped address place
  running := contract.start caller recipe.args isDependency starts
  primed := by simp [Flow.ofRecipe]

theorem Admits.settled {table later : FlowTable σ} {tick : Tick}
    (settled : FlowTable.Settled table tick later)
    (admits : ∀ id phase, table.find? id = some phase → contract.Admits heap id phase)
    (found : later.find? id = some phase) : contract.Admits heap id phase := by
  refine settled.forall_phases admits (fun _ _ _ _ _ => trivial)
    (fun id flow wait value released stack waits outcome pushed _ => ?_) id phase found
  obtain ⟨named, maps, still, parked, shapely, caller⟩ := admits id _ waits
  obtain ⟨top, below, records, rfl⟩ := Stack.modify_top_ok pushed
  rw [records] at maps still parked
  refine ⟨named, ⟨still.resume value, fun record member => ?_⟩,
    contract.resume value still parked, fun resumption resumed => ?_⟩
  · rcases List.mem_cons.1 member with rfl | member
    · exact maps top (List.mem_cons_self ..)
    · exact maps record (List.mem_cons_of_mem _ member)
  · obtain rfl : ⟨tick, wait.caller, wait.isDependency, released⟩ = resumption := by
      simpa [Flow.resumed] using resumed
    refine ⟨⟨caller, fun one member address place => ?_⟩, _, below, value, rfl, ?_⟩
    · obtain ⟨id', done, finished, same⟩ :=
        (FlowTable.resolves_of_outcome? outcome).completed one member
      refine admits id' _ (FlowTable.completed?_eq_some.1 finished) address ?_
      rw [same] at place
      exact place
    · simp [Record.push, still.idle top (List.mem_cons_self ..)]

end Contract

end Cadence
