import Cadence.Proofs.FlowTable.Boundary
import Cadence.Proofs.Simulation.Lineage
import Cadence.Proofs.Simulation.Stage
import Cadence.Proofs.Task
/-!
What a simulation keeps up between any two of its operations, and how stepping one flow to its next
boundary and carrying that out keeps it up.
-/

namespace Cadence

namespace Contract

variable {σ : Type} [Coroutine σ]

/-- Each flow is in a state that the contract admits, and those that were spawned are awaited. -/
structure Orders (contract : Contract σ) (heap : Heap) (lineage : Lineage)
    (table : FlowTable σ) : Prop where
  forest : table.Forest lineage []
  admits : ∀ id phase, table.find? id = some phase → contract.Admits heap id phase

structure Holds (contract : Contract σ) (tracked : Tracked σ) : Prop where
  orders : contract.Orders tracked.sim.heap tracked.lineage tracked.sim.flows
  unsettled : tracked.sim.flows.Unsettled
  heap : contract.heap tracked.sim.heap
  tasks : tracked.sim.tasks.Sound contract.starts

variable {contract : Contract σ} {sim : Simulation σ} {lineage : Lineage} {table : FlowTable σ}
  {heap : Heap} {id : Nat} {tick : Tick} {flow : Flow σ} {stage : Stage σ}

theorem Orders.resumable (orders : contract.Orders heap lineage table) : table.Resumable := by
  intro id flow wait found
  have suspended := orders.admits id _ found
  exact ⟨suspended.shapely, suspended.still.shape.ne_nil⟩

theorem Orders.resolve (orders : contract.Orders heap lineage table) (tick : Tick) :
    ∃ cancelled after, FlowTable.resolve tick table = .ok cancelled after ∧
      contract.Orders heap lineage after ∧ after.Unsettled ∧
        after.phases.size = table.phases.size := by
  obtain ⟨cancelled, after, done, forest, settled, unsettled⟩ :=
    orders.forest.resolve orders.resumable tick
  refine ⟨cancelled, after, done, ⟨forest, fun id phase found => ?_⟩, unsettled, settled.size⟩
  exact Admits.settled settled orders.admits found

theorem Orders.update (orders : contract.Orders sim.heap lineage sim.flows)
    (found : sim.flows.find? id = some (.active flow))
    (drives : contract.Drives id sim.heap none stage) :
    contract.Orders stage.heap lineage (sim.flows.put id (some (.active stage.flow))) where
  forest := orders.forest.put_active found stage.flow
  admits other phase known := by
    rw [FlowTable.find?_put found] at known
    split at known
    next same =>
      obtain rfl := Option.some.inj known
      exact same ▸ drives.active
    next distinct => exact (orders.admits other phase known).grows drives.grows

theorem Orders.complete (orders : contract.Orders sim.heap lineage sim.flows)
    (found : sim.flows.find? id = some (.active flow)) {value : Json} {last : Option Address}
    (drives : contract.Drives id sim.heap (some (.complete value last)) stage)
    {completion : Completion} (named : completion.id = id)
    (from_last : completion.lastAddress = last) (completions : Nat) :
    contract.Orders stage.heap lineage
      { (sim.flows.put id (some (.active stage.flow))).put id (some (.completed completion)) with
        completions } := by
  have active : (sim.flows.put id (some (.active stage.flow))).find? id =
      some (.active stage.flow) := FlowTable.find?_put_self found
  have forest := orders.forest.put_active found stage.flow
  have dead : FlowTable.Forest ((sim.flows.put id (some (.active stage.flow))).put id
      (some (.completed completion))) lineage [] :=
    forest.put_idle (FlowTable.isLive_of_active active) (by simp) (by rintro _ ⟨⟩; exact named) rfl
      fun _ => forest.not_live_of_idle (FlowTable.dependencies_of_active active)
  refine ⟨dead.count completions, fun other phase known => ?_⟩
  replace known := (FlowTable.find?_put active other).symm.trans known
  split at known
  next same =>
    obtain rfl := Option.some.inj known
    intro address place
    exact drives.reached address (from_last ▸ place)
  next distinct =>
    rw [FlowTable.find?_put found, if_neg distinct] at known
    exact (orders.admits other phase known).grows drives.grows

theorem Orders.await (orders : contract.Orders sim.heap lineage sim.flows)
    (found : sim.flows.find? id = some (.active flow)) {request : Request σ} {caller : Address}
    (drives : contract.Drives id sim.heap (some (.await request caller)) stage)
    (shapely : request.strategy.check id request.recipes.length = .ok ()) (tick : Tick) :
    let made := FlowTable.createAll (some caller) request.isDependency tick request.recipes
      (sim.flows.put id (some (.active stage.flow)))
    contract.Orders stage.heap (lineage ++ List.replicate request.recipes.length (some id))
      (made.2.put id (some (.suspended stage.flow
        ⟨request.strategy, caller, request.isDependency, made.1, tick⟩))) := by
  intro made
  have active : (sim.flows.put id (some (.active stage.flow))).find? id =
      some (.active stage.flow) := FlowTable.find?_put_self found
  obtain ⟨parked, starts, -, still, mapped⟩ := drives.reached
  obtain ⟨size, length, old, -⟩ := FlowTable.createAll_spec (some caller) request.isDependency tick
    request.recipes (sim.flows.put id (some (.active stage.flow)))
  have active' : made.2.find? id = some (.active stage.flow) :=
    (old id (FlowTable.le_size_of_find? active).2).trans active
  refine ⟨(orders.forest.put_active found stage.flow).await active .., fun other phase known => ?_⟩
  rw [FlowTable.find?_put active'] at known
  split at known
  next same =>
    obtain rfl := Option.some.inj known
    subst same
    exact ⟨drives.named, drives.sound.maps, still, parked, by rw [length]; exact shapely, mapped⟩
  next distinct =>
    rcases FlowTable.find?_createAll known with known | ⟨recipe, member, rfl⟩
    · rw [FlowTable.find?_put found, if_neg distinct] at known
      exact (orders.admits other phase known).grows drives.grows
    · refine admits_ofRecipe (starts recipe member) (fun address place => ?_) _ tick
      obtain rfl := Option.some.inj place
      exact mapped

end Contract

namespace Tracked

variable {σ : Type} {sim : Simulation σ} {lineage : Lineage}

theorem follow_eq {sim' : Simulation σ} {n : Nat} (origin : Option FlowId)
    (size : sim'.flows.phases.size = lineage.length + n) :
    (Tracked.mk sim lineage).follow origin sim' = ⟨sim', lineage ++ List.replicate n origin⟩ := by
  simp [follow, size]

theorem follow_same {sim' : Simulation σ} {origin : Option FlowId}
    (size : sim'.flows.phases.size = lineage.length) :
    (Tracked.mk sim lineage).follow origin sim' = ⟨sim', lineage⟩ := by
  simp [follow, size]

end Tracked

namespace Simulation

open Contract

variable {σ α : Type} {sim : Simulation σ}

theorem onFlows_ok {operation : Engine (FlowTable σ) α} {a : α} {flows : FlowTable σ}
    (done : operation sim.flows = .ok a flows) :
    onFlows operation sim = .ok a { sim with flows } := by
  simp only [onFlows, done]

theorem conclude_await {id : FlowId} {tick : Tick} (name : String) (reports : List Report)
    (request : Request σ) (caller : Address) :
    process.conclude id tick name reports (.await request caller) sim =
      match await id request caller tick sim with
      | .ok _ after => .ok reports after
      | .error e after => .error e after := by
  show EStateM.bind (EStateM.map _ (await id request caller tick)) _ sim = _
  unfold EStateM.bind EStateM.map
  cases await id request caller tick sim <;> rfl

theorem conclude_complete {id : FlowId} {tick : Tick} (name : String) (reports : List Report)
    (value : Json) (last : Option Address) :
    process.conclude id tick name reports (.complete value last) sim =
      match onFlows (FlowTable.complete id value last tick) sim with
      | .ok cancelled after => .ok (reports ++ [.constructed id name value cancelled]) after
      | .error e after => .error e after := by
  show EStateM.bind (onFlows (FlowTable.complete id value last tick)) _ sim = _
  unfold EStateM.bind
  cases onFlows (FlowTable.complete id value last tick) sim <;> rfl

variable {lineage : Lineage} {id : Nat} {tick : Tick} {flow : Flow σ} {stage : Stage σ}

theorem commit_flows (sim : Simulation σ) (named : stage.flow.id = id) :
    (sim.commit stage).flows = sim.flows.put id (some (.active stage.flow)) := by
  rw [← named]
  rfl

theorem await_eq {table flows : FlowTable σ} (found : table.find? id = some (.active flow))
    {later : Flow σ} {request : Request σ} {caller : Address} {cancelled : List Cancellation}
    (shapely : request.strategy.check id request.recipes.length = .ok ())
    (written : sim.flows = table.put id (some (.active later)))
    (resolved : FlowTable.resolve tick (table.awaiting id later request caller tick) =
      .ok cancelled flows) :
    await id request caller tick sim = .ok cancelled { sim with flows } := by
  have active : (table.put id (some (.active later))).find? id = some (.active later) :=
    FlowTable.find?_put_self found
  obtain ⟨grown, length, old, -⟩ := FlowTable.createAll_spec (some caller)
    request.isDependency tick request.recipes (table.put id (some (.active later)))
  let made := FlowTable.createAll (some caller) request.isDependency tick request.recipes
    (table.put id (some (.active later)))
  let wait : Wait := ⟨request.strategy, caller, request.isDependency, made.1, tick⟩
  have shapely' : wait.strategy.check id wait.dependencies.length = .ok () := by
    simp only [wait, made, length, shapely]
  have active' : made.2.find? id = some (.active later) :=
    (old id (FlowTable.le_size_of_find? active).2).trans active
  simp only [await, shapely]
  refine onFlows_ok ?_
  rw [written]
  exact (FlowTable.suspend_eq active' shapely' tick).trans resolved

variable [Coroutine σ] {contract : Contract σ}

theorem commit_holds (holds : contract.Holds ⟨sim, lineage⟩)
    (found : sim.flows.find? id = some (.active flow))
    (drives : contract.Drives id sim.heap none stage) :
    contract.Holds ((Tracked.mk sim lineage).follow (some id) (sim.commit stage)) := by
  have written := sim.commit_flows drives.named
  rw [Tracked.follow_same (by simp [written, holds.orders.forest.size])]
  refine ⟨?_, ?_, drives.heap, holds.tasks⟩
  · show contract.Orders stage.heap lineage (sim.commit stage).flows
    rw [written]
    exact holds.orders.update found drives
  · show (sim.commit stage).flows.Unsettled
    rw [written]
    exact holds.unsettled.put_active found stage.flow

theorem await_ok (holds : contract.Holds ⟨sim, lineage⟩)
    (found : sim.flows.find? id = some (.active flow)) {request : Request σ} {caller : Address}
    (drives : contract.Drives id sim.heap (some (.await request caller)) stage)
    (shapely : request.strategy.check id request.recipes.length = .ok ()) (tick : Tick) :
    ∃ cancelled flows, await id request caller tick (sim.commit stage) =
        .ok cancelled { sim.commit stage with flows } ∧
      FlowTable.resolve tick (sim.flows.awaiting id stage.flow request caller tick) =
        .ok cancelled flows ∧
      contract.Orders stage.heap (lineage ++ List.replicate request.recipes.length (some id)) flows ∧
      flows.Unsettled ∧ flows.phases.size = sim.flows.phases.size + request.recipes.length := by
  obtain ⟨cancelled, flows, settled, orders, unsettled, size⟩ :=
    (holds.orders.await found drives shapely tick).resolve tick
  have written := sim.commit_flows drives.named
  have grown := (FlowTable.awaiting_spec found stage.flow request caller tick).1
  exact ⟨cancelled, flows, await_eq found shapely written settled, settled, orders, unsettled,
    size.trans grown⟩

theorem await_holds (holds : contract.Holds ⟨sim, lineage⟩)
    (found : sim.flows.find? id = some (.active flow)) {request : Request σ} {caller : Address}
    (drives : contract.Drives id sim.heap (some (.await request caller)) stage) (tick : Tick) :
    match await id request caller tick (sim.commit stage) with
    | .ok _ after => contract.Holds ((Tracked.mk sim lineage).follow (some id) after)
    | .error e after =>
      contract.Stops e ∧ contract.Holds ((Tracked.mk sim lineage).follow (some id) after) := by
  obtain ⟨-, -, refused, -, -⟩ := drives.reached
  rw [drives.named] at refused
  cases check : request.strategy.check id request.recipes.length with
  | error e =>
      simp only [await, check]
      obtain ⟨fault, running⟩ := refused e check
      exact ⟨.inl fault, commit_holds holds found { drives with reached := running }⟩
  | ok =>
      obtain ⟨cancelled, flows, done, -, orders, unsettled, size⟩ :=
        await_ok holds found drives check tick
      have same := holds.orders.forest.size
      simp only at same
      rw [done]
      simp only
      rw [Tracked.follow_eq (some id) (size.trans (by rw [same]))]
      exact ⟨orders, unsettled, drives.heap, holds.tasks⟩

theorem complete_ok (holds : contract.Holds ⟨sim, lineage⟩)
    (found : sim.flows.find? id = some (.active flow)) {value : Json} {last : Option Address}
    (drives : contract.Drives id sim.heap (some (.complete value last)) stage) (tick : Tick) :
    ∃ cancelled flows, onFlows (FlowTable.complete id value last tick) (sim.commit stage) =
        .ok cancelled { sim.commit stage with flows } ∧
      FlowTable.resolve tick (sim.flows.completing id ⟨id, stage.flow.name, value, last,
        stage.flow.spawnedAt, tick, sim.flows.completions + 1⟩) = .ok cancelled flows ∧
      contract.Orders stage.heap lineage flows ∧ flows.Unsettled ∧
        flows.phases.size = sim.flows.phases.size := by
  have written := sim.commit_flows drives.named
  have active : (sim.flows.put id (some (.active stage.flow))).find? id =
      some (.active stage.flow) := FlowTable.find?_put_self found
  let done : Completion := ⟨id, stage.flow.name, value, last, stage.flow.spawnedAt, tick,
    sim.flows.completions + 1⟩
  have completes := FlowTable.complete_of_active active value last tick
  simp only [FlowTable.completing_put, FlowTable.completions_put] at completes
  have finished : contract.Orders stage.heap lineage (sim.flows.completing id done) := by
    have orders := holds.orders.complete found drives (show done.id = id from rfl) rfl
      (sim.flows.completions + 1)
    rwa [FlowTable.put_put] at orders
  obtain ⟨cancelled, flows, settled, orders, unsettled, size⟩ := finished.resolve tick
  refine ⟨cancelled, flows, onFlows_ok ?_, settled, orders, unsettled, ?_⟩
  · rw [written, completes, settled]
  · simpa [FlowTable.completing] using size

theorem complete_holds (holds : contract.Holds ⟨sim, lineage⟩)
    (found : sim.flows.find? id = some (.active flow)) {value : Json} {last : Option Address}
    (drives : contract.Drives id sim.heap (some (.complete value last)) stage) (tick : Tick) :
    ∃ cancelled after,
      onFlows (FlowTable.complete id value last tick) (sim.commit stage) = .ok cancelled after ∧
        contract.Holds ((Tracked.mk sim lineage).follow (some id) after) := by
  obtain ⟨cancelled, flows, done, -, orders, unsettled, size⟩ :=
    complete_ok holds found drives tick
  refine ⟨cancelled, _, done, ?_⟩
  rw [Tracked.follow_same (size.trans holds.orders.forest.size)]
  exact ⟨orders, unsettled, drives.heap, holds.tasks⟩

/-- Processing an active flow fails only if its coroutine is at fault or the budget exhausted. -/
theorem process_spec (id : Nat) (tick : Tick) :
    Engine.Triple (fun tracked => contract.Holds tracked ∧
        ∃ flow, tracked.sim.flows.find? id = some (.active flow))
      (Tracked.track (some id) (process id tick)) (fun _ after => contract.Holds after)
      (fun e after => contract.Stops e ∧ contract.Holds after) := by
  rintro ⟨sim, lineage⟩ ⟨holds, flow, found⟩
  simp only at found
  have active : contract.Active sim.heap id flow := holds.orders.admits id _ found
  have ran := Stage.run_spec (contract.steady_any tick) ⟨flow, sim.heap, sim.replay, sim.journal⟩
    sim.effects sim.limits.steps holds.heap active trivial _ rfl
  simp only [Tracked.track, process, FlowTable.active?_eq_some.2 found]
  cases stopped : Stage.run sim.effects tick sim.limits.steps
      ⟨flow, sim.heap, sim.replay, sim.journal⟩ with
  | error e stage =>
      rw [stopped] at ran
      obtain ⟨⟨stops, drives⟩, -⟩ := ran
      exact ⟨stops, commit_holds holds found drives⟩
  | ok result stage =>
      rw [stopped] at ran
      obtain ⟨reports, boundary⟩ := result
      obtain ⟨drives, -⟩ := ran
      cases boundary with
      | halt => exact commit_holds holds found { drives with reached := drives.reached }
      | await request caller =>
          have awaited := await_holds holds found drives tick
          simp only [conclude_await]
          cases done : await id request caller tick (sim.commit stage) with
          | ok cancelled after => rwa [done] at awaited
          | error e after => rwa [done] at awaited
      | complete value last =>
          obtain ⟨cancelled, after, done, holds'⟩ := complete_holds holds found drives tick
          simp only [conclude_complete, done]
          exact holds'

end Simulation

end Cadence
