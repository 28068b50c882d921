import Cadence.Proofs.Simulation.Process
/-!
One turn of a flow. It is stepped to its next boundary, which leaves it active, suspended on flows
that are created for it, or completed; after that the waits that have become satisfied are settled.
-/

namespace Cadence

variable {σ : Type}

structure Flow.Kin (flow later : Flow σ) : Prop where
  id : later.id = flow.id
  name : later.name = flow.name
  spawnedAt : later.spawnedAt = flow.spawnedAt
  activation : later.activation = flow.activation

structure Simulation.Rests (before after : Simulation σ) : Prop where
  tasks : after.tasks = before.tasks
  now : after.now = before.now
  limits : after.limits = before.limits
  effects : after.effects = before.effects

namespace Contract

open FlowTable

variable [Coroutine σ] {contract : Contract σ} {tick : Tick}
  {keeps keeps' : Option (Boundary σ) → Flow σ → List (Exchange σ) → Prop}

theorem Carries.and_steady
    {carried : Option (Boundary σ) → Heap → Flow σ → List (Exchange σ) → Prop}
    {fails : EngineError → Heap → Flow σ → List (Exchange σ) → Prop}
    (carries : contract.Carries tick carried fails) (steady : contract.Steady tick keeps) :
    contract.Carries tick (fun boundary heap flow journal =>
      carried boundary heap flow journal ∧ keeps boundary flow journal)
      fun e heap flow journal => fails e heap flow journal ∧ keeps none flow journal := by
  intro memory flow journal heap sound running kept
  have stepped := carries memory flow journal heap sound running kept.1
  have stepped' := steady memory flow journal heap sound running kept.2
  cases result : (flow.step memory tick).result with
  | ok outcome =>
      rw [result] at stepped stepped'
      exact ⟨stepped, stepped'⟩
  | error e =>
      rw [result] at stepped stepped'
      exact ⟨stepped, stepped'⟩

theorem steady_kin (contract : Contract σ) (tick : Tick) (start : Flow σ) :
    contract.Steady tick fun _ flow _ => start.Kin flow := by
  intro memory flow journal heap sound running kin
  obtain ⟨⟨input, -, ⟨records, same⟩, -⟩, -⟩ := Flow.step_advances sound tick
  have kin' : start.Kin (flow.step memory tick).flow := by
    rw [same]
    exact ⟨kin.id, kin.name, kin.spawnedAt, kin.activation⟩
  split
  · exact kin'
  · exact kin'

/-- How a turn of flow `id` ends, with what its steps have kept up. -/
inductive Turn (keeps : Option (Boundary σ) → Flow σ → List (Exchange σ) → Prop) (tick : Tick)
    (id : Nat) (start : Flow σ) (journal : List (Exchange σ)) (before : FlowTable σ) :
    FlowTable σ → Prop
  | halted {flow : Flow σ} (kin : start.Kin flow) (kept : keeps (some .halt) flow journal) :
      Turn keeps tick id start journal before (before.put id (some (.active flow)))
  | waiting {flow : Flow σ} {request : Request σ} {caller : Address}
      {cancelled : List Cancellation} {after : FlowTable σ} (kin : start.Kin flow)
      (kept : keeps (some (.await request caller)) flow journal)
      (shapely : request.strategy.check id request.recipes.length = .ok ())
      (resolved : resolve tick (before.awaiting id flow request caller tick) = .ok cancelled after) :
      Turn keeps tick id start journal before after
  | completed {flow : Flow σ} {value : Json} {last : Option Address}
      {cancelled : List Cancellation} {after : FlowTable σ} (kin : start.Kin flow)
      (kept : keeps (some (.complete value last)) flow journal)
      (resolved : resolve tick (before.completing id ⟨id, start.name, value, last, start.spawnedAt,
        tick, before.completions + 1⟩) = .ok cancelled after) :
      Turn keeps tick id start journal before after

inductive BrokenTurn (keeps : Option (Boundary σ) → Flow σ → List (Exchange σ) → Prop) (id : Nat)
    (start : Flow σ) (journal : List (Exchange σ)) (before : FlowTable σ) : FlowTable σ → Prop
  | stopped {flow : Flow σ} (kin : start.Kin flow) (kept : keeps none flow journal) :
      BrokenTurn keeps id start journal before (before.put id (some (.active flow)))
  | refused {flow : Flow σ} {request : Request σ} {caller : Address} {e : EngineError}
      (kin : start.Kin flow) (kept : keeps (some (.await request caller)) flow journal)
      (shapeless : request.strategy.check id request.recipes.length = .error e) :
      BrokenTurn keeps id start journal before (before.put id (some (.active flow)))

end Contract

namespace Simulation

open Contract FlowTable

variable [Coroutine σ] {contract : Contract σ} {sim : Simulation σ} {lineage : Lineage} {id : Nat}
  {tick : Tick} {flow : Flow σ}

theorem process_carries {keeps : Option (Boundary σ) → Heap → Flow σ → List (Exchange σ) → Prop}
    {fails : EngineError → Heap → Flow σ → List (Exchange σ) → Prop}
    (holds : contract.Holds ⟨sim, lineage⟩) (found : sim.flows.find? id = some (.active flow))
    (carries : contract.Carries tick keeps fails)
    (exhausted : ∀ e heap flow journal, e.isBudgetExhausted = true →
      keeps none heap flow journal → fails e heap flow journal)
    (kept : keeps none sim.heap { flow with resumption := none } sim.journal) :
    match process id tick sim with
    | .ok _ after => Turn (fun boundary => keeps boundary after.heap) tick id flow after.journal
        sim.flows after.flows ∧ sim.Rests after
    | .error e after => sim.Rests after ∧ ∃ later, flow.Kin later ∧
        after.flows = sim.flows.put id (some (.active later)) ∧
        (fails e after.heap later after.journal ∨ ∃ request caller,
          keeps (some (.await request caller)) after.heap later after.journal ∧
            request.strategy.check id request.recipes.length = .error e) := by
  have active : contract.Active sim.heap id flow := holds.orders.admits id _ found
  -- Beside `keeps`, the run keeps what makes the later flow one of kin.
  have ran := Stage.run_carries (carries.and_steady (contract.steady_kin tick flow))
    (fun e heap later journal spent kept => ⟨exhausted e heap later journal spent kept.1, kept.2⟩)
    ⟨flow, sim.heap, sim.replay, sim.journal⟩ sim.effects sim.limits.steps holds.heap active
    ⟨kept, rfl, rfl, rfl, rfl⟩ _ rfl
  simp only [process, active?_eq_some.2 found]
  cases stopped : Stage.run sim.effects tick sim.limits.steps
      ⟨flow, sim.heap, sim.replay, sim.journal⟩ with
  | error e stage =>
      rw [stopped] at ran
      obtain ⟨⟨-, drives⟩, failed, kin⟩ := ran
      exact ⟨⟨rfl, rfl, rfl, rfl⟩, _, kin, sim.commit_flows drives.named, .inl failed⟩
  | ok result stage =>
      rw [stopped] at ran
      obtain ⟨reports, boundary⟩ := result
      obtain ⟨drives, kept, kin⟩ := ran
      have written := sim.commit_flows drives.named
      cases boundary with
      | halt =>
          show Turn (fun boundary => keeps boundary stage.heap) tick id flow stage.journal sim.flows
            (sim.commit stage).flows ∧ _
          rw [written]
          exact ⟨.halted kin kept, rfl, rfl, rfl, rfl⟩
      | await request caller =>
          simp only [conclude_await]
          cases check : request.strategy.check id request.recipes.length with
          | error e =>
              simp only [await, check]
              exact ⟨⟨rfl, rfl, rfl, rfl⟩, _, kin, written, .inr ⟨request, caller, kept, check⟩⟩
          | ok =>
              obtain ⟨cancelled, flows, done, resolved, -⟩ := await_ok holds found drives check tick
              simp only [done]
              exact ⟨.waiting kin kept check resolved, rfl, rfl, rfl, rfl⟩
      | complete value last =>
          obtain ⟨cancelled, flows, done, resolved, -⟩ := complete_ok holds found drives tick
          rw [kin.name, kin.spawnedAt] at resolved
          simp only [conclude_complete, done]
          exact ⟨.completed kin kept resolved, rfl, rfl, rfl, rfl⟩

theorem process_turn {keeps : Option (Boundary σ) → Flow σ → List (Exchange σ) → Prop}
    (holds : contract.Holds ⟨sim, lineage⟩)
    (found : sim.flows.find? id = some (.active flow)) (steady : contract.Steady tick keeps)
    (kept : keeps none { flow with resumption := none } sim.journal) :
    match process id tick sim with
    | .ok _ after => Turn keeps tick id flow after.journal sim.flows after.flows ∧ sim.Rests after
    | .error _ after =>
      BrokenTurn keeps id flow after.journal sim.flows after.flows ∧ sim.Rests after := by
  have carried := process_carries holds found steady.carries (fun _ _ _ _ _ kept => kept) kept
  cases done : process id tick sim with
  | ok reports after => rwa [done] at carried
  | error e after =>
      rw [done] at carried
      obtain ⟨rests, later, kin, written, kept | ⟨request, caller, kept, check⟩⟩ := carried
      · exact ⟨written ▸ .stopped kin kept, rests⟩
      · exact ⟨written ▸ .refused kin kept check, rests⟩

end Simulation

end Cadence
