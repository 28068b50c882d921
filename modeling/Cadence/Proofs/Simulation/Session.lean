import Cadence.Flow.Playback
import Cadence.Proofs.Simulation.Tick
import Mathlib.Logic.Function.Iterate
/-!
Sessions: whatever operations a simulation goes through, with whatever coroutines, no flow is
orphaned and no flow waits in vain.
-/

namespace Cadence

variable {σ : Type}

inductive Simulation.Operation (σ : Type) where
  | register (object : Object)
  | setNode (address : Address) (node : String)
  | spawn (recipe : Recipe σ)
  | timer (name : String) (after : Nat) (recipe : Recipe σ)
  | interval (name : String) (every : Nat) (recipe : Recipe σ)
  | addEffect (id : String) (nodes : List String)
  | setLimits (limits : Limits)
  | tick
  | flush
  | reset
  | resetStacks

namespace Simulation.Operation

variable [Coroutine σ]

def apply (operation : Simulation.Operation σ) (sim : Simulation σ) : Simulation σ :=
  match operation with
  | register object => (sim.register object).2
  | setNode address node => sim.setNode address node
  | spawn recipe => (sim.spawn recipe).2
  | timer name after recipe => (sim.schedule name (.ofTimer after) recipe).2
  | interval name every recipe => (sim.schedule name (.ofInterval every) recipe).2
  | addEffect id nodes => sim.addEffect id nodes
  | setLimits limits => sim.setLimits limits
  | tick => Simulation.tick.after sim
  | flush => sim.flush.2
  | reset => sim.reset
  | resetStacks => sim.resetStacks

def follow (operation : Simulation.Operation σ) (tracked : Tracked σ) : Tracked σ :=
  match operation with
  | tick => Tracked.tick.after tracked
  | reset | resetStacks => ⟨operation.apply tracked.sim, []⟩
  | operation => tracked.follow none (operation.apply tracked.sim)

theorem sim_follow (operation : Simulation.Operation σ) (tracked : Tracked σ) :
    (operation.follow tracked).sim = operation.apply tracked.sim := by
  cases operation with
  | tick =>
      simp only [follow, apply, Engine.after]
      rw [Tracked.mirrors_tick tracked]
      cases Tracked.tick tracked <;> rfl
  | _ => rfl

end Simulation.Operation

def Simulation.session [Coroutine σ] (limits : Limits) (operations : List (Simulation.Operation σ)) :
    Simulation σ :=
  operations.foldl (fun sim operation => operation.apply sim) (Simulation.withLimits limits)

def Tracked.session [Coroutine σ] (limits : Limits) (operations : List (Simulation.Operation σ)) :
    Tracked σ :=
  operations.foldl (fun tracked operation => operation.follow tracked)
    ⟨Simulation.withLimits limits, []⟩

def Lineage.ofSession [Coroutine σ] (limits : Limits) (operations : List (Simulation.Operation σ)) : Lineage :=
  (Tracked.session limits operations).lineage

theorem Simulation.foldl_beside [Coroutine σ] {S : Type} {view : S → Simulation σ}
    {step : Simulation.Operation σ → S → S} {keeps : S → Prop}
    (each : ∀ operation state, keeps state →
      view (step operation state) = operation.apply (view state) ∧ keeps (step operation state))
    (operations : List (Simulation.Operation σ)) {state : S} (holds : keeps state) :
    view (operations.foldl (fun state operation => step operation state) state) =
        operations.foldl (fun sim operation => operation.apply sim) (view state) ∧
      keeps (operations.foldl (fun state operation => step operation state) state) := by
  induction operations generalizing state with
  | nil => exact ⟨rfl, holds⟩
  | cons operation operations ih =>
      obtain ⟨same, holds⟩ := each operation state holds
      rw [List.foldl_cons, List.foldl_cons, ← same]
      exact ih holds

theorem Tracked.sim_session [Coroutine σ] (limits : Limits) (operations : List (Simulation.Operation σ)) :
    (Tracked.session limits operations).sim = Simulation.session limits operations := by
  have each (operation : Simulation.Operation σ) (tracked : Tracked σ) (_ : True) :
      (operation.follow tracked).sim = operation.apply tracked.sim ∧ True :=
    ⟨operation.sim_follow tracked, trivial⟩
  exact (Simulation.foldl_beside each operations trivial).1

section Invariants

variable [Coroutine σ] {sim : Simulation σ} {lineage : Lineage} {tracked : Tracked σ}

theorem Contract.Holds.grow {contract : Contract σ} (holds : contract.Holds ⟨sim, lineage⟩)
    {heap : Heap} (grows : sim.heap.Grows heap) :
    contract.Holds ⟨{ sim with heap }, lineage⟩ where
  orders := ⟨holds.orders.forest, fun id phase found =>
    (holds.orders.admits id phase found).grows grows⟩
  unsettled := holds.unsettled
  heap := contract.grow grows holds.heap
  tasks := holds.tasks

theorem Contract.Holds.schedule {contract : Contract σ} (holds : contract.Holds ⟨sim, lineage⟩)
    (name : String) (schedule : Schedule) {recipe : Recipe σ}
    (starts : contract.starts recipe.start) :
    contract.Holds ⟨(sim.schedule name schedule recipe).2, lineage⟩ :=
  ⟨holds.orders, holds.unsettled, holds.heap, holds.tasks.add name schedule starts sim.now⟩

theorem Contract.Holds.ticks {contract : Contract σ} (holds : contract.Holds tracked) (n : Nat) :
    ∃ lineage, contract.Holds ⟨Simulation.tick.after^[n] tracked.sim, lineage⟩ := by
  induction n with
  | zero => exact ⟨tracked.lineage, holds⟩
  | succ n ih =>
      obtain ⟨lineage, holds⟩ := ih
      have ticked := Simulation.tick_spec holds
      rw [Function.iterate_succ_apply', Engine.after]
      simp only at ticked
      cases done : Simulation.tick (Simulation.tick.after^[n] tracked.sim) with
      | ok report after => rwa [done] at ticked
      | error e after =>
          rw [done] at ticked
          exact ticked.2

theorem Contract.holds_of_empty (contract : Contract σ) (flows : sim.flows = {})
    (tasks : sim.tasks = {}) (heap : contract.heap sim.heap) : contract.Holds ⟨sim, []⟩ where
  orders := by
    simp only [flows]
    exact ⟨FlowTable.forest_empty, fun id phase found => by
      simp [show FlowTable.find? ({} : FlowTable σ) id = none from FlowTable.find?_empty] at found⟩
  unsettled := by
    simp only [flows]
    intro id flow wait found
    simp [show FlowTable.find? ({} : FlowTable σ) id = none from FlowTable.find?_empty] at found
  heap := heap
  tasks := by
    simp only [tasks]
    exact TaskTable.sound_empty contract.starts

theorem Simulation.Operation.follow_holds (operation : Simulation.Operation σ)
    (holds : (Contract.any σ).Holds tracked) : (Contract.any σ).Holds (operation.follow tracked) := by
  obtain ⟨sim, lineage⟩ := tracked
  have size : sim.flows.phases.size = lineage.length := holds.orders.forest.size
  have kept (sim' : Simulation σ) (same : sim'.flows = sim.flows) :
      (Tracked.mk sim lineage).follow none sim' = ⟨sim', lineage⟩ :=
    Tracked.follow_same (by rw [same]; exact size)
  cases operation with
  | register object =>
      simp only [follow, kept (apply (register object) sim) rfl]
      exact holds.grow (sim.heap.grows_register object)
  | setNode address node =>
      simp only [follow, kept (apply (setNode address node) sim) rfl]
      exact holds.grow (sim.heap.grows_setNode address node)
  | spawn recipe =>
      have grown : (apply (spawn recipe) sim).flows.phases.size = lineage.length + 1 := by
        simp [apply, Simulation.spawn, FlowTable.create, size]
      simp only [follow, Tracked.follow_eq none grown]
      exact holds.spawn trivial
  | timer name after recipe =>
      simp only [follow, kept (apply (timer name after recipe) sim) rfl]
      exact holds.schedule name _ trivial
  | interval name every recipe =>
      simp only [follow, kept (apply (interval name every recipe) sim) rfl]
      exact holds.schedule name _ trivial
  | addEffect id nodes =>
      simp only [follow, kept (apply (addEffect id nodes) sim) rfl]
      exact ⟨holds.orders, holds.unsettled, trivial, holds.tasks⟩
  | setLimits limits =>
      simp only [follow, kept (apply (setLimits limits) sim) rfl]
      exact ⟨holds.orders, holds.unsettled, trivial, holds.tasks⟩
  | tick =>
      have ticked := Simulation.trackedTick_spec _ holds
      simp only [follow, Engine.after]
      cases done : Tracked.tick (Tracked.mk sim lineage) with
      | ok report after => rwa [done] at ticked
      | error e after =>
          rw [done] at ticked
          exact ticked.2
  | flush =>
      simp only [follow, kept (apply flush sim) rfl]
      exact ⟨holds.orders, holds.unsettled, trivial, holds.tasks⟩
  | reset => exact Contract.holds_of_empty _ rfl rfl trivial
  | resetStacks => exact Contract.holds_of_empty _ rfl rfl trivial

theorem Tracked.session_holds (limits : Limits) (operations : List (Simulation.Operation σ)) :
    (Contract.any σ).Holds (Tracked.session limits operations) :=
  (Simulation.foldl_beside
    (fun operation tracked holds => ⟨operation.sim_follow tracked, operation.follow_holds holds⟩)
    operations (Contract.holds_of_empty _ rfl rfl trivial)).2

end Invariants

namespace FlowTable

/-- Flows that others have spawned live no longer than those others wait for them. -/
structure Structured (table : FlowTable σ) (lineage : Lineage) : Prop where
  size : lineage.length = table.phases.size
  awaited : ∀ child parent : Nat, lineage.spawner child = some parent → table.isLive child = true →
    parent < child ∧ ∃ flow wait, table.suspended? parent = some (flow, wait) ∧
      child ∈ wait.dependencies ∧ ∀ other flow' wait', table.suspended? other = some (flow', wait') →
        child ∈ wait'.dependencies → other = parent
  root : ∀ child, lineage.spawner child = none → ∀ other flow wait,
    table.suspended? other = some (flow, wait) → child ∉ wait.dependencies
  finished : ∀ child parent, lineage.spawner child = some parent →
    table.suspended? parent = none → (table.completed? child).isSome ∨ (table.cancelled? child).isSome

structure Progressing (table : FlowTable σ) : Prop where
  spared : ∀ id flow wait, table.suspended? id = some (flow, wait) →
    ∀ dependency ∈ wait.dependencies, table.cancelled? dependency = none
  active : ∀ id flow wait, table.suspended? id = some (flow, wait) →
    ∃ other ∈ table.liveDescendants id, ∃ flow', table.active? other = some flow'

variable {table : FlowTable σ} {lineage : Lineage}

theorem Forest.structured (forest : table.Forest lineage []) : table.Structured lineage := by
  have listed {id child : Nat} {flow : Flow σ} {wait : Wait}
      (waiting : table.suspended? id = some (flow, wait)) (member : child ∈ wait.dependencies) :
      child ∈ table.dependencies id :=
    dependencies_of_suspended (suspended?_eq_some.1 waiting) ▸ member
  refine ⟨forest.size.symm, fun child parent spawned live => ?_,
    fun child rootless other flow wait waiting member => ?_, fun child parent spawned idle => ?_⟩
  · refine ⟨forest.earlier child parent spawned, ?_⟩
    rcases forest.listed child parent spawned live with member | member
    · obtain ⟨flow, wait, found, member⟩ := suspended_of_mem_dependencies member
      refine ⟨flow, wait, suspended?_eq_some.2 found, member, fun other flow' wait' waiting again => ?_⟩
      have owner := forest.owned other child (listed waiting again)
      rw [spawned] at owner
      exact (Option.some.inj owner).symm
    · simp at member
  · have owner := forest.owned other child (listed waiting member)
    rw [rootless] at owner
    cases owner
  · have bounds := Lineage.le_of_spawner spawned
    obtain ⟨phase, found⟩ := forest.present child bounds.1 (forest.size ▸ bounds.2)
    have nothing : table.dependencies parent = [] := by simp [dependencies, idle]
    have dead := forest.not_live_of_idle nothing spawned
    cases phase with
    | active flow => simp [isLive_of_active found] at dead
    | suspended flow wait => simp [isLive_of_suspended found] at dead
    | completed done => exact .inl (by simp [completed?_eq_some.2 found])
    | cancelled cancellation => exact .inr (by simp [cancelled?_eq_some.2 found])

theorem Forest.progressing (forest : table.Forest lineage []) (resumable : table.Resumable)
    (unsettled : table.Unsettled) : table.Progressing where
  spared id flow wait waiting dependency member := by
    refine forest.spared id dependency ?_
    rw [dependencies_of_suspended (suspended?_eq_some.1 waiting)]
    exact member
  active id flow wait waiting := by
    rw [suspended?_eq_some] at waiting
    obtain ⟨other, flow', path, found⟩ := forest.exists_active resumable unsettled waiting
    refine ⟨other, mem_liveDescendants.2 ⟨fun same => ?_, path⟩, flow', active?_eq_some.2 found⟩
    rw [same, waiting] at found
    cases found

end FlowTable

/-- In every session, flows are live only as long as the flow that spawned them waits for them. -/
theorem Simulation.no_flow_is_orphaned [Coroutine σ] (limits : Limits)
    (operations : List (Simulation.Operation σ)) :
    (Simulation.session limits operations).flows.Structured
      (Lineage.ofSession limits operations) := by
  have holds := Tracked.session_holds limits operations
  rw [← Tracked.sim_session]
  exact holds.orders.forest.structured

def raceOfTwo : List (Simulation.Operation Playback) :=
  let here : Address := ⟨"2b2a14d215455d3ce50cfc5c2ae1d125_1", 0⟩
  let worker : List PlaybackMove := [.load here [] false, .halt here 1 2, .unload here .null]
  let calls := [("left", [], worker), ("right", [], worker)]
  let main : List PlaybackMove := [.load here [] false, .await here .race true calls]
  [.register { className := "Worker", fields := [] }, .spawn (Playback.recipe "main" [] main), .tick]

example : Lineage.ofSession {} raceOfTwo = [none, some 1, some 1] := by decide +kernel

/-- In every session, each suspended flow waits for a flow that is active. -/
theorem Simulation.no_flow_waits_in_vain [Coroutine σ] (limits : Limits)
    (operations : List (Simulation.Operation σ)) :
    (Simulation.session limits operations).flows.Progressing := by
  have holds := Tracked.session_holds limits operations
  rw [← Tracked.sim_session]
  exact holds.orders.forest.progressing holds.orders.resumable holds.unsettled

end Cadence
