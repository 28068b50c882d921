import Cadence.Proofs.Coupling
import Cadence.Proofs.Simulation.Session
/-!
Budgets only cut off. A tick that does not exhaust its budgets does the same under larger ones, whether
it succeeds or fails.
-/

namespace Cadence

namespace Engine

variable {S T α β : Type} {widen : S → T} {keeps : S → Prop}

/--
Where `narrow` does not give up for want of budget, `wide` does the same to the state as `widen` shows
it; `keeps` is what `narrow` relies on and keeps up.
-/
def Extends (widen : S → T) (keeps : S → Prop) (narrow : Engine S α) (wide : Engine T α) : Prop :=
  ∀ state, keeps state →
    match narrow state with
    | .ok a after => wide (widen state) = .ok a (widen after) ∧ keeps after
    | .error e after => e.isBudgetExhausted = false → wide (widen state) = .error e (widen after)

theorem Extends.bind {narrow : Engine S α} {wide : Engine T α} {next : α → Engine S β}
    {next' : α → Engine T β} (head : Extends widen keeps narrow wide)
    (tail : ∀ a, Extends widen keeps (next a) (next' a)) :
    Extends widen keeps (narrow >>= next) (wide >>= next') := by
  intro state kept
  have reached := head state kept
  show match EStateM.bind narrow next state with
    | .ok b after => EStateM.bind wide next' (widen state) = .ok b (widen after) ∧ keeps after
    | .error e after => e.isBudgetExhausted = false →
      EStateM.bind wide next' (widen state) = .error e (widen after)
  unfold EStateM.bind
  cases done : narrow state with
  | ok a after =>
      rw [done] at reached
      simp only [reached.1]
      exact tail a after reached.2
  | error e after =>
      rw [done] at reached
      intro spared
      simp only [reached spared]

theorem Extends.pure (a : α) :
    Extends widen keeps (Pure.pure a : Engine S α) (Pure.pure a : Engine T α) :=
  fun _ kept => ⟨rfl, kept⟩

theorem Extends.exhausted {e : EngineError} (exhausted : e.isBudgetExhausted = true)
    (wide : Engine T α) : Extends widen keeps (MonadExcept.throw e : Engine S α) wide := by
  intro state kept spared
  rw [exhausted] at spared
  cases spared

theorem Extends.get {next : S → Engine S α} {next' : T → Engine T α}
    (tail : ∀ state, keeps state → Extends widen keeps (next state) (next' (widen state))) :
    Extends widen keeps (do let state ← MonadState.get; next state)
      (do let state ← MonadState.get; next' state) :=
  fun state kept => tail state kept state kept

theorem Extends.modify {change : S → S} {change' : T → T} {next : Engine S α} {next' : Engine T α}
    (same : ∀ state, widen (change state) = change' (widen state))
    (kept : ∀ state, keeps state → keeps (change state)) (tail : Extends widen keeps next next') :
    Extends widen keeps (do modifyThe S change; next) (do modifyThe T change'; next') := by
  intro state known
  have reached := tail (change state) (kept state known)
  rwa [same] at reached

theorem extends_self (operation : Engine S α) :
    Extends (fun state => state) (fun _ => True) operation operation := by
  intro state _
  cases done : operation state with
  | ok a after => exact ⟨rfl, trivial⟩
  | error e after => exact fun _ => rfl

end Engine

open Engine

variable {σ : Type} {tick : Tick}

namespace Stage

variable [Coroutine σ]

theorem drive_extends (effects : EffectTable) (tick : Tick) (limit limit' : Nat) {steps steps' : Nat}
    (wider : steps ≤ steps') (pending : List Response) (surfaced : List Report) :
    Extends (fun stage : Stage σ => stage) (fun _ => True)
      (drive effects tick limit steps pending surfaced)
      (drive effects tick limit' steps' pending surfaced) := by
  induction steps generalizing steps' pending surfaced with
  | zero =>
      intro stage _ spared
      cases spared
  | succ steps ih =>
      cases steps' with
      | zero => omega
      | succ steps' =>
          have wider : steps ≤ steps' := Nat.le_of_succ_le_succ wider
          refine Extends.get fun first _ => ?_
          refine (extends_self _).bind fun outcome => ?_
          simp only [ite_bind]
          refine (extends_self _).bind fun edge => (extends_self _).bind fun result? => ?_
          cases outcome.boundary with
          | some boundary => exact Extends.pure _
          | none => exact ih wider [] _

theorem run_extends (effects : EffectTable) (tick : Tick) {limit limit' : Nat}
    (wider : limit ≤ limit') :
    Extends (fun stage : Stage σ => stage) (fun _ => True) (run effects tick limit)
      (run effects tick limit') := by
  apply (extends_self _).bind
  intro pending
  exact drive_extends effects tick limit limit' wider pending []

end Stage

namespace Simulation

variable {limits more : Limits}

def Within (limits : Limits) (sim : Simulation σ) : Prop :=
  sim.limits = limits

theorem onFlows_extends {α : Type} (operation : Engine (FlowTable σ) α) :
    Extends (·.setLimits more) (Within limits) (onFlows operation) (onFlows operation) := by
  intro sim within
  simp only [onFlows, setLimits]
  cases operation sim.flows with
  | ok a flows => exact ⟨rfl, within⟩
  | error e flows => exact fun _ => rfl

theorem await_extends (id : FlowId) (request : Request σ) (caller : Address) (tick : Tick) :
    Extends (·.setLimits more) (Within limits) (await id request caller tick)
      (await id request caller tick) := by
  intro sim within
  unfold await
  cases request.strategy.check id request.recipes.length with
  | error e => exact fun _ => rfl
  | ok => exact onFlows_extends _ sim within

theorem conclude_extends (id : FlowId) (tick : Tick) (name : String) (reports : List Report)
    (boundary : Boundary σ) :
    Extends (·.setLimits more) (Within limits) (process.conclude id tick name reports boundary)
      (process.conclude id tick name reports boundary) := by
  cases boundary with
  | halt => exact Extends.pure reports
  | await request caller =>
      intro sim within
      have extends' : Extends (·.setLimits more) (Within limits) (await id request caller tick)
          (await id request caller tick) := await_extends id request caller tick
      have awaited := extends' sim within
      rw [conclude_await, conclude_await]
      cases done : await id request caller tick sim with
      | ok cancelled after =>
          rw [done] at awaited
          simp only [awaited.1]
          exact ⟨trivial, awaited.2⟩
      | error e after =>
          rw [done] at awaited
          intro spared
          simp only [awaited spared]
  | complete value last =>
      apply (onFlows_extends _).bind
      exact fun cancelled => Extends.pure _

theorem stepTasks_extends (tick : Tick) (ids : List TaskId) :
    Extends (·.setLimits more) (Within limits) (stepTasks (σ := σ) tick ids)
      (stepTasks tick ids) := by
  induction ids with
  | nil => exact Extends.pure ()
  | cons id ids ih =>
      refine Extends.bind (fun sim within => ?_) fun _ => ih
      simp only [stepTasks.stepTask, setLimits]
      cases TaskTable.tick id sim.tasks with
      | error e tasks => exact fun _ => rfl
      | ok recipe? tasks =>
          cases recipe? with
          | none => exact ⟨rfl, within⟩
          | some recipe => exact ⟨rfl, within⟩

variable [Coroutine σ]

theorem process_extends (wider : limits.steps ≤ more.steps) (id : FlowId) (tick : Tick) :
    Extends (·.setLimits more) (Within limits) (process (σ := σ) id tick) (process id tick) := by
  intro sim within
  obtain rfl : sim.limits = limits := within
  unfold process
  have same : (sim.setLimits more).flows = sim.flows := rfl
  simp only [same]
  cases found : sim.flows.active? id with
  | none => exact fun _ => rfl
  | some flow =>
      have ran := Stage.run_extends sim.effects tick wider
        ⟨flow, sim.heap, sim.replay, sim.journal⟩ trivial
      simp only
      cases done : Stage.run sim.effects tick sim.limits.steps
          ⟨flow, sim.heap, sim.replay, sim.journal⟩ with
      | ok result stage =>
          rw [done] at ran
          obtain ⟨reports, boundary⟩ := result
          have wide : Stage.run (sim.setLimits more).effects tick (sim.setLimits more).limits.steps
              ⟨flow, (sim.setLimits more).heap, (sim.setLimits more).replay,
                (sim.setLimits more).journal⟩ = .ok (reports, boundary) stage := ran.1
          simp only [wide]
          exact conclude_extends id tick flow.name reports boundary (sim.commit stage) rfl
      | error e stage =>
          rw [done] at ran
          intro spared
          have wide : Stage.run (sim.setLimits more).effects tick (sim.setLimits more).limits.steps
              ⟨flow, (sim.setLimits more).heap, (sim.setLimits more).replay,
                (sim.setLimits more).journal⟩ = .error e stage := ran spared
          simp only [wide]
          rfl

theorem stepFlows_extends (wider : limits.steps ≤ more.steps) (tick : Tick)
    (keys : List (FlowId × Nat)) :
    Extends (·.setLimits more) (Within limits) (stepFlows (σ := σ) tick keys)
      (stepFlows tick keys) := by
  induction keys with
  | nil => exact Extends.pure []
  | cons key rest ih =>
      obtain ⟨id, activation⟩ := key
      refine Extends.get fun sim _ => ?_
      have same : (sim.setLimits more).flows = sim.flows := rfl
      simp only [same, ite_bind]
      refine Extends.bind ?_ fun reports => ih.bind fun later => Extends.pure _
      split
      next => exact process_extends wider id tick
      next => exact Extends.pure []

theorem runRounds_extends (wider : limits.steps ≤ more.steps) (tick : Tick) (limit limit' : Nat)
    {remaining remaining' : Nat} (longer : remaining ≤ remaining') (covered : Coverage)
    (reports : List Report) :
    Extends (·.setLimits more) (Within limits)
      (runRounds (σ := σ) tick limit remaining covered reports)
      (runRounds tick limit' remaining' covered reports) := by
  have rest (sim : Simulation σ) : (sim.setLimits more).pendingTasks covered =
      sim.pendingTasks covered ∧
        (sim.setLimits more).pendingFlows covered = sim.pendingFlows covered := ⟨rfl, rfl⟩
  induction remaining generalizing remaining' covered reports with
  | zero =>
      unfold runRounds
      refine Extends.get fun sim _ => Extends.get fun sim' _ => ?_
      simp only [rest]
      split
      · exact Extends.pure reports
      · exact Extends.exhausted rfl _
  | succ remaining ih =>
      obtain ⟨remaining', rfl⟩ : ∃ n, remaining' = n + 1 := ⟨remaining' - 1, by omega⟩
      unfold runRounds
      refine Extends.get fun sim _ => Extends.get fun sim' _ => ?_
      simp only [rest]
      split
      · exact Extends.pure reports
      · refine (stepTasks_extends tick _).bind fun _ => Extends.get fun stepped _ => ?_
        refine (stepFlows_extends wider tick _).bind fun fresh => ?_
        exact ih (by omega) _ _ fun _ => ⟨rfl, rfl⟩

theorem tick_extends (rounds : limits.rounds ≤ more.rounds) (steps : limits.steps ≤ more.steps) :
    Extends (·.setLimits more) (Within limits) (Simulation.tick (σ := σ)) Simulation.tick := by
  refine Extends.modify (fun _ => rfl) (fun _ within => within) ?_
  refine Extends.get fun sim within => ?_
  obtain rfl : sim.limits = limits := within
  refine (runRounds_extends steps _ _ _ rounds {} []).bind fun reports => ?_
  exact Extends.modify (fun _ => rfl) (fun _ within => within) (Extends.pure _)

/--
Budgets only cut off. Under larger limits, a tick that succeeds reports the same and leaves the same
behind but for the limits, and one that fails, though not for want of budget, fails alike.
-/
theorem budgets_only_cut_off (sim : Simulation σ) (more : Limits)
    (rounds : sim.limits.rounds ≤ more.rounds) (steps : sim.limits.steps ≤ more.steps) :
    match sim.tick with
    | .ok report after => (sim.setLimits more).tick = .ok report (after.setLimits more)
    | .error e after => e.isBudgetExhausted = false →
      (sim.setLimits more).tick = .error e (after.setLimits more) := by
  have extended := tick_extends rounds steps sim rfl
  cases done : Simulation.tick sim with
  | ok report after =>
      rw [done] at extended
      exact extended.1
  | error e after => rwa [done] at extended

theorem race_within_tight_budgets :
    let first := session ⟨2, 2⟩ raceOfTwo.dropLast
    let second := session ⟨2, 2⟩ raceOfTwo
    first.limits = ⟨2, 2⟩ ∧ second.limits = ⟨2, 2⟩ ∧
      (∃ report after, first.tick = .ok report after ∧
        (first.setLimits {}).tick = .ok report (after.setLimits {})) ∧
      ∃ after, second.tick = .error (.missingUnload 1) after ∧
        (second.setLimits {}).tick = .error (.missingUnload 1) (after.setLimits {}) := by
  intro first second
  have limits : first.limits = ⟨2, 2⟩ := by decide +kernel
  have limits' : second.limits = ⟨2, 2⟩ := by decide +kernel
  refine ⟨limits, limits', ?_, ?_⟩
  · have wide := budgets_only_cut_off first {} (by simp [limits]) (by simp [limits])
    obtain ⟨report, after, done⟩ := Engine.succeeds_iff.1
      (show Engine.succeeds Simulation.tick first = true by decide +kernel)
    rw [done] at wide
    exact ⟨report, after, done, wide⟩
  · have wide := budgets_only_cut_off second {} (by simp [limits']) (by simp [limits'])
    have fails : (match second.tick with
        | .ok _ _ => none
        | .error e _ => some e) = some (.missingUnload 1) := by decide +kernel
    cases done : Simulation.tick second with
    | ok report after =>
        rw [done] at fails
        cases fails
    | error e after =>
        rw [done] at wide fails
        obtain rfl := Option.some.inj fails
        exact ⟨after, rfl, wide rfl⟩

end Simulation

end Cadence
