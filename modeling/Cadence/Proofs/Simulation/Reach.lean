import Cadence.Proofs.Simulation.Echo
import Cadence.Proofs.Simulation.Rounds
/-!
Running a simulation forward. Where the steps of a turn are known and no effect is registered, so is
what the turn does, and a round in which one flow has its turn is that turn.
-/

namespace Cadence

open Engine

variable {σ : Type}

namespace Stage

variable {stage : Stage σ} {tick : Tick}

theorem spawnEdge_of_records (rooted : stage.flow.stack.records ≠ []) (tick : Tick)
    (outcome : Outcome σ) (isFirst : Prop) [Decidable isFirst] :
    ∃ edge, (if isFirst then spawnEdge outcome tick else pure []) stage = .ok edge stage := by
  by_cases first : isFirst
  · simp only [if_pos first]
    rcases spawnEdge_cases outcome tick stage with done | ⟨e, failed⟩
    · exact done
    · unfold spawnEdge at failed
      change EStateM.bind (spawnEdge.liftExcept stage.flow.stack.root) _ stage = .error e stage
        at failed
      rw [Stack.root, List.getLast?_eq_some_getLast rooted] at failed
      simp only [spawnEdge.liftExcept, EStateM.bind, pure, EStateM.pure] at failed
      generalize outcome.responses.head?.map Response.traffic = first? at failed
      cases place : Record.address? (stage.flow.stack.records.getLast rooted) with
      | none =>
          simp only [place] at failed
          cases failed
      | some caller =>
          simp only [place] at failed
          rcases first? with _ | ⟨address, params⟩ | _ <;> cases failed
  · simp only [if_neg first]
    exact ⟨[], rfl⟩

theorem route_uncollapsed (tick : Tick) (responses : List Response) (stage : Stage σ) :
    ∃ result?, route {} tick responses stage = .ok result? stage := by
  unfold route
  by_cases silent : responses.isEmpty = true
  · exact ⟨none, by rw [if_pos silent]⟩
  · have plain : EffectTable.isInternal {} stage.heap responses = .ok false := by
      simp [EffectTable.isInternal, EffectTable.isEmpty]
    simp only [if_neg silent, plain]
    exact ⟨_, rfl⟩

variable [Coroutine σ]

inductive Reaches (tick : Tick) : Nat → Flow σ → Heap → Boundary σ → Flow σ → Heap → Prop
  | last {flow later : Flow σ} {heap memory : Heap} {exchange : Option (Exchange σ)}
      {outcome : Outcome σ} {boundary : Boundary σ}
      (stepped : flow.step heap tick = ⟨later, memory, exchange, .ok outcome⟩)
      (reached : outcome.boundary = some boundary) (rooted : later.stack.records ≠ []) :
      Reaches tick 1 flow heap boundary later memory
  | more {n : Nat} {flow middle later : Flow σ} {heap between memory : Heap}
      {exchange : Option (Exchange σ)} {outcome : Outcome σ} {boundary : Boundary σ}
      (stepped : flow.step heap tick = ⟨middle, between, exchange, .ok outcome⟩)
      (goesOn : outcome.boundary = none) (rooted : middle.stack.records ≠ [])
      (rest : Reaches tick n middle between boundary later memory) :
      Reaches tick (n + 1) flow heap boundary later memory

theorem drive_of_step {flow later : Flow σ} {heap memory : Heap} {exchange : Option (Exchange σ)}
    {outcome : Outcome σ} (stepped : flow.step heap tick = ⟨later, memory, exchange, .ok outcome⟩)
    (rooted : later.stack.records ≠ []) (limit steps : Nat) (replay : ReplayStore)
    (journal : List (Exchange σ)) (pending : List Response) (surfaced : List Report) :
    ∃ surfaced', ∀ result after,
      (match outcome.boundary with
        | some boundary => pure (surfaced'.reverse, boundary)
        | none => drive {} tick limit steps [] surfaced' : Engine (Stage σ) _)
          ⟨later, memory, replay, exchange.toList ++ journal⟩ = .ok result after →
        drive {} tick limit (steps + 1) pending surfaced ⟨flow, heap, replay, journal⟩ =
          .ok result after := by
  let stage : Stage σ := ⟨later, memory, replay, exchange.toList ++ journal⟩
  have advanced : advance tick ⟨flow, heap, replay, journal⟩ = .ok outcome stage := by
    simp only [advance, stepped, stage]
  have written : stage.flow.stack.records ≠ [] := rooted
  obtain ⟨edge, drawn⟩ :=
    spawnEdge_of_records written tick outcome (flow.stepsTaken = 0)
  obtain ⟨result?, routed⟩ := route_uncollapsed tick (pending ++ edge ++ outcome.responses) stage
  refine ⟨result?.toList ++ surfaced, fun result after rest => drive_succ_ok.2 ?_⟩
  exact ⟨outcome, stage, edge, stage, result?, stage, advanced, drawn, routed, rest⟩

theorem Reaches.drive {n steps : Nat} {flow later : Flow σ} {heap memory : Heap}
    {boundary : Boundary σ} (reaches : Reaches tick n flow heap boundary later memory)
    (enough : n ≤ steps) (limit : Nat) (replay : ReplayStore) (journal : List (Exchange σ))
    (pending : List Response) (surfaced : List Report) : ∃ reports journal',
      Stage.drive {} tick limit steps pending surfaced ⟨flow, heap, replay, journal⟩ =
        .ok (reports, boundary) ⟨later, memory, replay, journal'⟩ := by
  induction reaches generalizing steps journal pending surfaced with
  | last stepped reached rooted =>
      obtain ⟨steps, rfl⟩ := Nat.exists_eq_add_of_le' enough
      obtain ⟨surfaced', goesOn⟩ :=
        drive_of_step stepped rooted limit steps replay journal pending surfaced
      rw [reached] at goesOn
      exact ⟨_, _, goesOn _ _ rfl⟩
  | more stepped running rooted rest ih =>
      obtain ⟨steps, rfl⟩ := Nat.exists_eq_add_of_le' (Nat.le_trans (Nat.le_add_left 1 _) enough)
      obtain ⟨surfaced', goesOn⟩ :=
        drive_of_step stepped rooted limit steps replay journal pending surfaced
      rw [running] at goesOn
      obtain ⟨reports, journal', done⟩ := ih (Nat.le_of_succ_le_succ enough) _ [] surfaced'
      exact ⟨reports, journal', goesOn _ _ done⟩

end Stage

namespace Simulation

open Stage

variable [Coroutine σ] {sim after : Simulation σ} {tick : Tick} {id n : Nat}
  {flow start later : Flow σ} {memory : Heap} {boundary : Boundary σ} {pending : List Response}

structure Arrives (sim : Simulation σ) (tick : Tick) (flow : Flow σ) (boundary : Boundary σ)
    (later : Flow σ) (memory : Heap) : Prop where
  effects : sim.effects = {}
  resumes : ∃ pending start n, takeResumption tick ⟨flow, sim.heap, sim.replay, sim.journal⟩ =
      .ok pending ⟨start, sim.heap, sim.replay, sim.journal⟩ ∧
    Reaches tick n start sim.heap boundary later memory ∧ n ≤ sim.limits.steps

theorem Arrives.process (arrives : sim.Arrives tick flow boundary later memory)
    (found : sim.flows.find? id = some (.active flow)) (named : later.id = id) :
    ∃ reports journal, Simulation.process id tick sim =
      process.conclude id tick flow.name reports boundary
        { sim with flows := sim.flows.put id (some (.active later)), heap := memory, journal } := by
  obtain ⟨pending, start, n, taken, reaches, enough⟩ := arrives.resumes
  obtain ⟨reports, journal, driven⟩ :=
    reaches.drive enough sim.limits.steps sim.replay sim.journal pending []
  have ran : Stage.run sim.effects tick sim.limits.steps ⟨flow, sim.heap, sim.replay, sim.journal⟩ =
      .ok (reports, boundary) ⟨later, memory, sim.replay, journal⟩ := by
    rw [arrives.effects]
    exact bind_ok.2 ⟨pending, _, taken, driven⟩
  refine ⟨reports, journal, ?_⟩
  unfold Simulation.process
  rw [FlowTable.active?_eq_some.2 found]
  simp only [ran]
  rw [commit, FlowTable.update, named]

theorem Arrives.awaits {request : Request σ} {caller : Address} {cancelled : List Cancellation}
    {flows : FlowTable σ} (arrives : sim.Arrives tick flow (.await request caller) later memory)
    (found : sim.flows.find? id = some (.active flow)) (named : later.id = id)
    (shapely : request.strategy.check id request.recipes.length = .ok ())
    (resolved : FlowTable.resolve tick (sim.flows.awaiting id later request caller tick) =
      .ok cancelled flows) :
    ∃ reports journal, Simulation.process id tick sim =
      .ok reports { sim with flows, heap := memory, journal } := by
  obtain ⟨reports, journal, concluded⟩ := arrives.process found named
  refine ⟨reports, journal, ?_⟩
  rw [concluded, conclude_await, await_eq found shapely rfl resolved]

theorem Arrives.completes {value : Json} {last : Option Address} {cancelled : List Cancellation}
    {flows : FlowTable σ} (arrives : sim.Arrives tick flow (.complete value last) later memory)
    (found : sim.flows.find? id = some (.active flow)) (named : later.id = id)
    (resolved : FlowTable.resolve tick (sim.flows.completing id
      ⟨id, later.name, value, last, later.spawnedAt, tick, sim.flows.completions + 1⟩) =
        .ok cancelled flows) :
    ∃ reports journal, Simulation.process id tick sim =
      .ok reports { sim with flows, heap := memory, journal } := by
  obtain ⟨reports, journal, concluded⟩ := arrives.process found named
  have active : (sim.flows.put id (some (.active later))).find? id = some (.active later) :=
    FlowTable.find?_put_self found
  have completed : FlowTable.complete id value last tick
      (sim.flows.put id (some (.active later))) = .ok cancelled flows := by
    rw [FlowTable.complete_of_active active, FlowTable.completing_put, FlowTable.completions_put]
    exact resolved
  refine ⟨reports ++ [.constructed id flow.name value cancelled], journal, ?_⟩
  rw [concluded, conclude_complete, onFlows_ok completed]

variable {covered : Coverage} {reports fresh : List Report} {limit remaining activation : Nat}

omit [Coroutine σ] in
theorem pendingTasks_eq (tasks : sim.tasks = {}) (covered : Coverage) :
    sim.pendingTasks covered = [] := by
  rw [pendingTasks, tasks]
  rfl

theorem runRounds_rest (tasks : sim.tasks = {}) (rest : sim.flows.activations = []) :
    runRounds tick limit remaining covered reports sim = .ok reports sim := by
  have flows : sim.pendingFlows covered = [] := by rw [pendingFlows, rest, List.filter_nil]
  unfold runRounds
  simp only [get_ok, pendingTasks_eq tasks, flows]
  rfl

theorem runRounds_spent (due : sim.pendingFlows covered ≠ []) :
    runRounds tick limit 0 covered reports sim = .error (.tickBudgetExceeded tick (limit + 1)) sim := by
  have unfinished : ¬ ((sim.pendingTasks covered).isEmpty = true ∧
      (sim.pendingFlows covered).isEmpty = true) := fun finished =>
    due (List.isEmpty_iff.1 finished.2)
  unfold runRounds
  show (if (sim.pendingTasks covered).isEmpty = true ∧ (sim.pendingFlows covered).isEmpty = true then
      (pure reports : Engine (Simulation σ) (List Report))
    else throw (.tickBudgetExceeded tick (limit + 1))) sim = _
  rw [if_neg unfinished]
  rfl

theorem stepFlows_one (active : (sim.flows.active? id).map Flow.activation = some activation)
    (done : Simulation.process id tick sim = .ok fresh after) :
    stepFlows tick [(id, activation)] sim = .ok fresh after := by
  have turn : (if (sim.flows.active? id).map Flow.activation = some activation then
      Simulation.process id tick else pure []) sim = .ok fresh after := by
    rw [if_pos active, done]
  unfold stepFlows
  simp only [get_ok, ite_bind]
  apply bind_ok.2
  exact ⟨fresh, after, turn, bind_ok.2 ⟨[], after, rfl, pure_ok.2 ⟨List.append_nil fresh, rfl⟩⟩⟩

theorem runRounds_turn (tasks : sim.tasks = {}) (due : sim.pendingFlows covered = [(id, activation)])
    (active : (sim.flows.active? id).map Flow.activation = some activation)
    (done : Simulation.process id tick sim = .ok fresh after) :
    runRounds tick limit (remaining + 1) covered reports sim =
      runRounds tick limit remaining (covered.add [] [(id, activation)]) (reports ++ fresh) after := by
  have pending : ¬ ((sim.pendingTasks covered).isEmpty = true ∧
      (sim.pendingFlows covered).isEmpty = true) := by simp [due]
  rw [runRounds]
  show (if (sim.pendingTasks covered).isEmpty = true ∧ (sim.pendingFlows covered).isEmpty = true then
      (pure reports : Engine (Simulation σ) (List Report))
    else do
      stepTasks tick (sim.pendingTasks covered)
      let flows := (← get).pendingFlows covered
      let fresh ← stepFlows tick flows
      runRounds tick limit remaining (covered.add (sim.pendingTasks covered) flows)
        (reports ++ fresh)) sim = _
  rw [if_neg pending, pendingTasks_eq tasks]
  show (do let fresh ← stepFlows tick (sim.pendingFlows covered)
           runRounds tick limit remaining (covered.add [] (sim.pendingFlows covered))
             (reports ++ fresh) : Engine (Simulation σ) (List Report)) sim = _
  rw [due, bind_of_ok (stepFlows_one active done)]

theorem tick_of_ok (ran : runRounds sim.now sim.limits.rounds sim.limits.rounds {} []
      { sim with journal := [] } = .ok reports after) :
    Simulation.tick sim = .ok ⟨sim.now, reports⟩ { after with now := after.now + 1 } := by
  show EStateM.bind (runRounds sim.now sim.limits.rounds sim.limits.rounds {} []) _
    { sim with journal := [] } = _
  unfold EStateM.bind
  rw [ran]
  rfl

theorem tick_of_error {e : EngineError} (ran : runRounds sim.now sim.limits.rounds
      sim.limits.rounds {} [] { sim with journal := [] } = .error e after) :
    Simulation.tick sim = .error e after := by
  show EStateM.bind (runRounds sim.now sim.limits.rounds sim.limits.rounds {} []) _
    { sim with journal := [] } = _
  unfold EStateM.bind
  rw [ran]

end Simulation

end Cadence
