import Cadence.Proofs.FlowTable.Forest
import Cadence.Simulation.Tick
/-!
Who spawns whom while a simulation ticks. The simulation itself does not record it, so the rounds
of a tick are followed by rounds that note, after every flow they step, which flows are new.
-/

namespace Cadence

structure Tracked (σ : Type) where
  sim : Simulation σ
  lineage : Lineage

namespace Tracked

variable {σ α β : Type}

def follow (tracked : Tracked σ) (origin : Option FlowId) (sim : Simulation σ) : Tracked σ where
  sim := sim
  lineage := tracked.lineage ++
    List.replicate (sim.flows.phases.size - tracked.lineage.length) origin

def track (origin : Option FlowId) (operation : Engine (Simulation σ) α) : Engine (Tracked σ) α :=
  fun tracked =>
    match operation tracked.sim with
    | .ok a sim => .ok a (tracked.follow origin sim)
    | .error e sim => .error e (tracked.follow origin sim)

def stepFlows [Coroutine σ] (tick : Tick) :
    List (FlowId × Nat) → Engine (Tracked σ) (List Report)
  | [] => return []
  | (id, activation) :: rest => do
    let current := ((← get).sim.flows.active? id).map Flow.activation
    let reports ←
      if current = some activation then track (some id) (Simulation.process id tick) else pure []
    let later ← stepFlows tick rest
    return reports ++ later

def runRounds [Coroutine σ] (tick : Tick) (limit : Nat) :
    Nat → Coverage → List Report → Engine (Tracked σ) (List Report)
  | remaining, covered, reports => do
    let tasks := (← get).sim.pendingTasks covered
    if tasks.isEmpty ∧ ((← get).sim.pendingFlows covered).isEmpty then return reports
    match remaining with
    | 0 => throw (.tickBudgetExceeded tick (limit + 1))
    | remaining + 1 =>
      track none (Simulation.stepTasks tick tasks)
      let flows := (← get).sim.pendingFlows covered
      let fresh ← stepFlows tick flows
      runRounds tick limit remaining (covered.add tasks flows) (reports ++ fresh)

def tick [Coroutine σ] : Engine (Tracked σ) TickReport := do
  modify fun tracked => { tracked with sim := { tracked.sim with journal := [] } }
  let tracked ← get
  let reports ← runRounds tracked.sim.now tracked.sim.limits.rounds tracked.sim.limits.rounds {} []
  modify fun tracked => { tracked with sim := { tracked.sim with now := tracked.sim.now + 1 } }
  return { tick := tracked.sim.now, reports }

def Mirrors (tracking : Engine (Tracked σ) α) (plain : Engine (Simulation σ) α) : Prop :=
  ∀ tracked, plain tracked.sim =
    match tracking tracked with
    | .ok a after => .ok a after.sim
    | .error e after => .error e after.sim

theorem mirrors_track (origin : Option FlowId) (operation : Engine (Simulation σ) α) :
    Mirrors (track origin operation) operation := by
  intro tracked
  unfold track
  cases operation tracked.sim <;> rfl

theorem mirrors_pure (a : α) : Mirrors (pure a : Engine (Tracked σ) α) (pure a) :=
  fun _ => rfl

theorem mirrors_throw (e : EngineError) :
    Mirrors (throw e : Engine (Tracked σ) α) (throw e) :=
  fun _ => rfl

theorem Mirrors.bind {first : Engine (Tracked σ) α} {first' : Engine (Simulation σ) α}
    {next : α → Engine (Tracked σ) β} {next' : α → Engine (Simulation σ) β}
    (head : Mirrors first first') (tail : ∀ a, Mirrors (next a) (next' a)) :
    Mirrors (first >>= next) (first' >>= next') := by
  intro tracked
  show EStateM.bind first' next' tracked.sim =
    match EStateM.bind first next tracked with
    | .ok a after => .ok a after.sim
    | .error e after => .error e after.sim
  unfold EStateM.bind
  rw [head tracked]
  cases first tracked with
  | ok a after => exact tail a after
  | error e after => rfl

theorem mirrors_get {next : Tracked σ → Engine (Tracked σ) β}
    {next' : Simulation σ → Engine (Simulation σ) β}
    (tail : ∀ tracked, Mirrors (next tracked) (next' tracked.sim)) :
    Mirrors (do let tracked ← get; next tracked) (do let sim ← get; next' sim) :=
  fun tracked => tail tracked tracked

theorem mirrors_modify (change : Simulation σ → Simulation σ) :
    Mirrors (modify fun tracked => { tracked with sim := change tracked.sim }) (modify change) :=
  fun _ => rfl

theorem mirrors_stepFlows [Coroutine σ] (tick : Tick) (keys : List (FlowId × Nat)) :
    Mirrors (stepFlows (σ := σ) tick keys) (Simulation.stepFlows tick keys) := by
  induction keys with
  | nil => exact mirrors_pure []
  | cons key rest ih =>
      obtain ⟨id, activation⟩ := key
      refine mirrors_get fun tracked => ?_
      have later (reports : List Report) :
          Mirrors (do let later ← stepFlows (σ := σ) tick rest; pure (reports ++ later))
            (do let later ← Simulation.stepFlows tick rest; pure (reports ++ later)) :=
        ih.bind fun _ => mirrors_pure _
      by_cases current : (tracked.sim.flows.active? id).map Flow.activation = some activation
      · simp only [if_pos current]
        exact (mirrors_track _ _).bind later
      · simp only [if_neg current]
        exact (mirrors_pure []).bind later

theorem mirrors_runRounds [Coroutine σ] (tick : Tick) (limit remaining : Nat)
    (covered : Coverage) (reports : List Report) :
    Mirrors (runRounds (σ := σ) tick limit remaining covered reports)
      (Simulation.runRounds tick limit remaining covered reports) := by
  induction remaining generalizing covered reports with
  | zero =>
      refine mirrors_get fun first => mirrors_get fun second => ?_
      split
      · exact mirrors_pure reports
      · exact mirrors_throw _
  | succ remaining ih =>
      refine mirrors_get fun first => mirrors_get fun second => ?_
      split
      · exact mirrors_pure reports
      · refine (mirrors_track _ _).bind fun _ => mirrors_get fun third => ?_
        exact (mirrors_stepFlows tick _).bind fun fresh => ih _ _

theorem mirrors_tick [Coroutine σ] : Mirrors (tick (σ := σ)) Simulation.tick :=
  (mirrors_modify _).bind fun _ => mirrors_get fun _ =>
    Mirrors.bind (mirrors_runRounds _ _ _ _ _) fun _ =>
      (mirrors_modify _).bind fun _ => mirrors_pure _

end Tracked

end Cadence
