import Cadence.Proofs.Engine
import Cadence.Proofs.Simulation.Rounds
/-!
Ticks of states that hold a simulation and more. Such a state may note what happens, or insist on
what should; as long as each turn of a flow does the same to the simulation, so does a whole tick.
-/

namespace Cadence

namespace Engine

variable {S T α β : Type} {view : T → S} {pre : T → Prop} {fails : EngineError → T → Prop}

def Mimics (view : T → S) (pre : T → Prop) (operation : Engine T α) (plain : Engine S α)
    (post : α → T → Prop) (fails : EngineError → T → Prop) : Prop :=
  ∀ state, pre state →
    match operation state with
    | .ok a after => plain (view state) = .ok a (view after) ∧ post a after
    | .error e after => plain (view state) = .error e (view after) ∧ fails e after

theorem Mimics.bind {first : Engine T α} {plain : Engine S α} {next : α → Engine T β}
    {next' : α → Engine S β} {between : α → T → Prop} {post : β → T → Prop}
    (head : Mimics view pre first plain between fails)
    (tail : ∀ a, Mimics view (between a) (next a) (next' a) post fails) :
    Mimics view pre (first >>= next) (plain >>= next') post fails := by
  intro state holds
  have reached := head state holds
  show match EStateM.bind first next state with
    | .ok b after => EStateM.bind plain next' (view state) = .ok b (view after) ∧ post b after
    | .error e after =>
      EStateM.bind plain next' (view state) = .error e (view after) ∧ fails e after
  unfold EStateM.bind
  cases done : first state with
  | ok a after =>
      rw [done] at reached
      simp only [reached.1]
      exact tail a after reached.2
  | error e after =>
      rw [done] at reached
      simp only [reached.1]
      exact ⟨trivial, reached.2⟩

theorem Mimics.pure {a : α} {post : α → T → Prop} (holds : ∀ state, pre state → post a state) :
    Mimics view pre (Pure.pure a) (Pure.pure a) post fails :=
  fun state known => ⟨rfl, holds state known⟩

theorem Mimics.throw {e : EngineError} {post : α → T → Prop}
    (holds : ∀ state, pre state → fails e state) :
    Mimics view pre (MonadExcept.throw e) (MonadExcept.throw e) post fails :=
  fun state known => ⟨rfl, holds state known⟩

theorem Mimics.get {next : T → Engine T α} {next' : S → Engine S α} {post : α → T → Prop}
    (tail : ∀ state, pre state →
      Mimics view (· = state) (next state) (next' (view state)) post fails) :
    Mimics view pre (do let state ← MonadState.get; next state)
      (do let state ← MonadState.get; next' state) post fails :=
  fun state holds => tail state holds state rfl

theorem Mimics.modify {change : T → T} {change' : S → S} {next : Engine T α} {next' : Engine S α}
    {post : α → T → Prop} (between : T → Prop)
    (same : ∀ state, view (change state) = change' (view state))
    (holds : ∀ state, pre state → between (change state))
    (tail : Mimics view between next next' post fails) :
    Mimics view pre (do modifyThe T change; next) (do modifyThe S change'; next') post fails := by
  intro state known
  have reached := tail (change state) (holds state known)
  rwa [same] at reached

theorem Mimics.weaken {operation : Engine T α} {plain : Engine S α} {post : α → T → Prop}
    {pre' : T → Prop} (mimics : Mimics view pre operation plain post fails)
    (weaker : ∀ state, pre' state → pre state) : Mimics view pre' operation plain post fails :=
  fun state known => mimics state (weaker state known)

theorem Mimics.imp {operation : Engine T α} {plain : Engine S α} {post post' : α → T → Prop}
    (mimics : Mimics view pre operation plain post fails)
    (stronger : ∀ a state, post a state → post' a state) :
    Mimics view pre operation plain post' fails := by
  intro state holds
  have reached := mimics state holds
  cases done : operation state with
  | ok a after =>
      rw [done] at reached
      exact ⟨reached.1, stronger a after reached.2⟩
  | error e after =>
      rw [done] at reached
      exact reached

theorem Mimics.and_triple {operation : Engine T α} {plain : Engine S α} {post : α → T → Prop}
    (mimics : Mimics view (fun _ => True) operation plain (fun _ _ => True) fun _ _ => True)
    (triple : Triple pre operation post fails) : Mimics view pre operation plain post fails := by
  intro state holds
  have same := mimics state trivial
  have reached := triple state holds
  cases done : operation state with
  | ok a after =>
      rw [done] at same reached
      exact ⟨same.1, reached⟩
  | error e after =>
      rw [done] at same reached
      exact ⟨same.1, reached⟩

theorem Mimics.exact {operation : Engine T α} {plain : Engine S α} {post : α → T → Prop}
    (mimics : Mimics view pre operation plain post fails) {state : T} (holds : pre state) :
    Mimics view (· = state) operation plain
      (fun a after => operation state = .ok a after ∧ plain (view state) = .ok a (view after) ∧
        post a after) fails := by
  intro known same
  subst same
  have reached := mimics known holds
  cases done : operation known with
  | ok a after =>
      rw [done] at reached
      exact ⟨reached.1, rfl, reached⟩
  | error e after =>
      rw [done] at reached
      exact reached

theorem Triple.mimics {operation : Engine S α} {pre : S → Prop} {post : α → S → Prop}
    {fails : EngineError → S → Prop} (triple : Triple pre operation post fails) :
    Mimics (fun state => state) pre operation operation post fails := by
  intro state holds
  have reached := triple state holds
  cases done : operation state with
  | ok a after =>
      rw [done] at reached
      exact ⟨rfl, reached⟩
  | error e after =>
      rw [done] at reached
      exact ⟨rfl, reached⟩

end Engine

section Sessions

variable {σ : Type} [Coroutine σ]

theorem Contract.Kept.unjournaled {contract : Contract σ} {sim : Simulation σ}
    (kept : contract.Kept sim) : contract.Kept { sim with journal := [] } := by
  obtain ⟨lineage, holds⟩ := kept
  exact ⟨lineage, holds.orders, holds.unsettled, holds.heap, holds.tasks⟩

theorem Simulation.session_kept (limits : Limits) (operations : List (Simulation.Operation σ)) :
    (Contract.any σ).Kept (session limits operations) := by
  rw [← Tracked.sim_session]
  exact ⟨_, Tracked.session_holds limits operations⟩

theorem Simulation.Operation.apply_kept {sim : Simulation σ} (operation : Simulation.Operation σ)
    (kept : (Contract.any σ).Kept sim) : (Contract.any σ).Kept (operation.apply sim) := by
  obtain ⟨lineage, holds⟩ := kept
  rw [← operation.sim_follow ⟨sim, lineage⟩]
  exact ⟨_, operation.follow_holds holds⟩

end Sessions

/-- States that hold a simulation, with ways of their own to step its tasks and its flows. -/
structure Probe (σ T : Type) where
  sim : T → Simulation σ
  change : (Simulation σ → Simulation σ) → T → T
  stepTasks : Tick → List TaskId → Engine T Unit
  process : FlowId → Tick → Engine T (List Report)

namespace Probe

variable {σ T : Type}

def stepFlows (probe : Probe σ T) (tick : Tick) : List (FlowId × Nat) → Engine T (List Report)
  | [] => return []
  | (id, activation) :: rest => do
    let current := ((probe.sim (← get)).flows.active? id).map Flow.activation
    let reports ← if current = some activation then probe.process id tick else pure []
    let later ← probe.stepFlows tick rest
    return reports ++ later

def runRounds (probe : Probe σ T) (tick : Tick) (limit : Nat) :
    Nat → Coverage → List Report → Engine T (List Report)
  | remaining, covered, reports => do
    let tasks := (probe.sim (← get)).pendingTasks covered
    if tasks.isEmpty ∧ ((probe.sim (← get)).pendingFlows covered).isEmpty then return reports
    match remaining with
    | 0 => throw (.tickBudgetExceeded tick (limit + 1))
    | remaining + 1 =>
      probe.stepTasks tick tasks
      let flows := (probe.sim (← get)).pendingFlows covered
      let fresh ← probe.stepFlows tick flows
      probe.runRounds tick limit remaining (covered.add tasks flows) (reports ++ fresh)

def tick (probe : Probe σ T) : Engine T TickReport := do
  modify (probe.change fun sim => { sim with journal := [] })
  let sim := probe.sim (← get)
  let reports ← probe.runRounds sim.now sim.limits.rounds sim.limits.rounds {} []
  modify (probe.change fun sim => { sim with now := sim.now + 1 })
  return { tick := sim.now, reports }

open Engine

/-- A probe that leaves a tick as it is; `keeps` holds between turns, with the reports so far. -/
structure Faithful [Coroutine σ] (probe : Probe σ T) (tick : Tick) (keeps : List Report → T → Prop)
    (fails : EngineError → T → Prop) : Prop where
  change : ∀ change state, probe.sim (probe.change change state) = change (probe.sim state)
  tasks : ∀ reports covered state, keeps reports state →
    Mimics probe.sim (· = state) (probe.stepTasks tick ((probe.sim state).pendingTasks covered))
      (Simulation.stepTasks tick ((probe.sim state).pendingTasks covered))
      (fun _ => keeps reports) fails
  process : ∀ reports id, Mimics probe.sim
    (fun state => keeps reports state ∧
      ∃ flow, (probe.sim state).flows.find? id = some (.active flow))
    (probe.process id tick) (Simulation.process id tick)
    (fun fresh => keeps (reports ++ fresh)) fails
  stop : ∀ reports rounds state, keeps reports state → fails (.tickBudgetExceeded tick rounds) state

variable [Coroutine σ] {probe : Probe σ T} {start : Tick} {keeps : List Report → T → Prop}
  {fails : EngineError → T → Prop}

theorem Faithful.stepFlows (faithful : probe.Faithful start keeps fails)
    (keys : List (FlowId × Nat)) (reports : List Report) :
    Mimics probe.sim (keeps reports) (probe.stepFlows start keys) (Simulation.stepFlows start keys)
      (fun fresh => keeps (reports ++ fresh)) fails := by
  induction keys generalizing reports with
  | nil => exact Mimics.pure fun _ kept => by rwa [List.append_nil]
  | cons key rest ih =>
      obtain ⟨id, activation⟩ := key
      refine Mimics.get fun state kept => ?_
      have later (fresh : List Report) : Mimics probe.sim (keeps (reports ++ fresh))
          (do let later ← probe.stepFlows start rest; pure (fresh ++ later))
          (do let later ← Simulation.stepFlows start rest; pure (fresh ++ later))
          (fun all => keeps (reports ++ all)) fails :=
        (ih (reports ++ fresh)).bind fun later => Mimics.pure fun _ kept => by
          rwa [← List.append_assoc]
      by_cases current :
          ((probe.sim state).flows.active? id).map Flow.activation = some activation
      · simp only [if_pos current]
        obtain ⟨flow, active, -⟩ := Option.map_eq_some_iff.1 current
        refine ((faithful.process reports id).weaken ?_).bind later
        rintro _ rfl
        exact ⟨kept, flow, FlowTable.active?_eq_some.1 active⟩
      · simp only [if_neg current]
        have passed : Mimics probe.sim (· = state) (pure []) (pure [])
            (fun fresh => keeps (reports ++ fresh)) fails := Mimics.pure (by
          rintro _ rfl
          rwa [List.append_nil])
        exact passed.bind later

theorem Faithful.runRounds (faithful : probe.Faithful start keeps fails)
    (limit remaining : Nat) (covered : Coverage) (reports : List Report) :
    Mimics probe.sim (keeps reports) (probe.runRounds start limit remaining covered reports)
      (Simulation.runRounds start limit remaining covered reports) keeps fails := by
  induction remaining generalizing covered reports with
  | zero =>
      refine Mimics.get fun state kept => Mimics.get ?_
      rintro _ rfl
      split
      · exact Mimics.pure (by rintro _ rfl; exact kept)
      · exact Mimics.throw (by rintro _ rfl; exact faithful.stop reports _ _ kept)
  | succ remaining ih =>
      refine Mimics.get fun state kept => Mimics.get ?_
      rintro _ rfl
      split
      · exact Mimics.pure (by rintro _ rfl; exact kept)
      · refine (faithful.tasks reports covered _ kept).bind fun _ => ?_
        refine Mimics.get fun stepped kept' => ?_
        refine ((faithful.stepFlows _ reports).weaken ?_).bind fun fresh => ih _ _
        rintro _ rfl
        exact kept'

/-- A faithful probe leaves a whole tick as it is, and keeps up what it keeps up in each turn. -/
theorem Faithful.tick {state : T} (faithful : probe.Faithful (probe.sim state).now keeps fails)
    (ends : List Report → T → Prop)
    (begun : keeps [] (probe.change (fun sim => { sim with journal := [] }) state))
    (ended : ∀ reports last, keeps reports last →
      ends reports (probe.change (fun sim => { sim with now := sim.now + 1 }) last)) :
    Mimics probe.sim (· = state) probe.tick Simulation.tick
      (fun report after => report.tick = (probe.sim state).now ∧ ends report.reports after)
      fails := by
  refine Mimics.modify
    (fun cleared => keeps [] cleared ∧ (probe.sim cleared).now = (probe.sim state).now)
    (fun _ => faithful.change ..) ?_ (Mimics.get fun cleared known => ?_)
  · rintro _ rfl
    exact ⟨begun, by rw [faithful.change]⟩
  · obtain ⟨kept, now⟩ := known
    rw [← now] at faithful ⊢
    refine Mimics.bind ((faithful.runRounds _ _ {} []).weaken fun _ same => same ▸ kept)
      fun reports => ?_
    refine Mimics.modify (ends reports) (fun _ => faithful.change ..) (ended reports) ?_
    exact Mimics.pure fun _ holds => ⟨rfl, holds⟩

section Coverings

open FlowTable

variable {keeps : List TaskId → (FlowId → Option Nat) → List Report → T → Prop}
  {tasks : List TaskId} {stepped : FlowId → Option Nat} {reports : List Report}

/-- A faithful probe with an invariant that goes by the tasks and the activations stepped so far. -/
structure Covering (probe : Probe σ T) (tick : Tick)
    (keeps : List TaskId → (FlowId → Option Nat) → List Report → T → Prop)
    (fails : EngineError → T → Prop) : Prop where
  change : ∀ change state, probe.sim (probe.change change state) = change (probe.sim state)
  tasks : ∀ {covered : Coverage} {stepped reports state}, keeps covered.tasks stepped reports state →
    (probe.sim state).flows.Current stepped →
      Mimics probe.sim (· = state) (probe.stepTasks tick ((probe.sim state).pendingTasks covered))
        (Simulation.stepTasks tick ((probe.sim state).pendingTasks covered))
        (fun _ after => keeps ((probe.sim state).pendingTasks covered ++ covered.tasks) stepped reports
          after ∧ (probe.sim state).flows.Ages (probe.sim after).flows) fails
  process : ∀ {tasks stepped reports state id flow}, keeps tasks stepped reports state →
    (probe.sim state).flows.Current stepped →
    (probe.sim state).flows.find? id = some (.active flow) → stepped id ≠ some flow.activation →
      Mimics probe.sim (· = state) (probe.process id tick) (Simulation.process id tick)
        (fun fresh after => keeps tasks (Coverage.note stepped (id, flow.activation))
          (reports ++ fresh) after ∧ (probe.sim state).flows.Ages (probe.sim after).flows) fails
  pass : ∀ {tasks stepped reports state id activation}, keeps tasks stepped reports state →
    (∀ flow, (probe.sim state).flows.find? id = some (.active flow) →
      stepped id ≠ some flow.activation ∧ activation ≠ flow.activation) →
    (∀ past, stepped id = some past → past < activation) →
      keeps tasks (Coverage.note stepped (id, activation)) reports state
  stop : ∀ {tasks stepped reports state} (rounds : Nat), keeps tasks stepped reports state →
    fails (.tickBudgetExceeded tick rounds) state

theorem Covering.stepFlows (covering : probe.Covering start keeps fails) (tasks : List TaskId)
    (keys : List (FlowId × Nat)) (stepped : FlowId → Option Nat) (reports : List Report) :
    Mimics probe.sim (fun state => keeps tasks stepped reports state ∧
        (probe.sim state).flows.Current stepped ∧ (probe.sim state).flows.Due stepped keys)
      (probe.stepFlows start keys) (Simulation.stepFlows start keys)
      (fun fresh state => keeps tasks (keys.foldl Coverage.note stepped) (reports ++ fresh) state ∧
        (probe.sim state).flows.Current (keys.foldl Coverage.note stepped)) fails := by
  induction keys generalizing stepped reports with
  | nil =>
      refine Mimics.pure fun state holds => ?_
      rw [List.append_nil]
      exact ⟨holds.1, holds.2.1⟩
  | cons key rest ih =>
      obtain ⟨id, activation⟩ := key
      refine Mimics.get fun state ⟨kept, current, due⟩ => ?_
      obtain ⟨current', due'⟩ := due.step current
      have fresh := due.fresh _ (List.mem_cons_self ..)
      have behind := due.behind _ (List.mem_cons_self ..)
      simp only at fresh behind
      let stepped' := Coverage.note stepped (id, activation)
      have later (fresh : List Report) : Mimics probe.sim
          (fun state => keeps tasks stepped' (reports ++ fresh) state ∧
            (probe.sim state).flows.Current stepped' ∧ (probe.sim state).flows.Due stepped' rest)
          (do let later ← probe.stepFlows start rest; pure (fresh ++ later))
          (do let later ← Simulation.stepFlows start rest; pure (fresh ++ later))
          (fun all state => keeps tasks (rest.foldl Coverage.note stepped') (reports ++ all) state ∧
            (probe.sim state).flows.Current (rest.foldl Coverage.note stepped')) fails :=
        (ih stepped' (reports ++ fresh)).bind fun later => Mimics.pure fun _ holds => by
          rwa [← List.append_assoc]
      by_cases active : ((probe.sim state).flows.active? id).map Flow.activation = some activation
      · simp only [if_pos active]
        obtain ⟨flow, found, rfl⟩ := Option.map_eq_some_iff.1 active
        have unstepped : stepped id ≠ some flow.activation := fun known =>
          Nat.lt_irrefl _ (fresh _ known)
        refine Mimics.bind ?_ later
        have processed := covering.process kept current (active?_eq_some.1 found) unstepped
        intro before same
        subst same
        have processed := processed before rfl
        cases done : probe.process id start before with
        | ok fresh after =>
            rw [done] at processed
            obtain ⟨same, kept', ages⟩ := processed
            exact ⟨same, kept', current'.ages ages, due'.ages ages⟩
        | error e after =>
            rw [done] at processed
            exact processed
      · simp only [if_neg active]
        have passed : Mimics probe.sim (· = state) (pure []) (pure [])
            (fun fresh after => keeps tasks stepped' (reports ++ fresh) after ∧
              (probe.sim after).flows.Current stepped' ∧ (probe.sim after).flows.Due stepped' rest)
            fails := by
          refine Mimics.pure ?_
          rintro _ rfl
          rw [List.append_nil]
          refine ⟨covering.pass kept (fun flow found => ?_) fresh, current', due'⟩
          -- The flow has been resumed in this round, so that it is in a later activation.
          have behind := behind flow (live?_eq_some.2 (.inl found))
          have apart : activation ≠ flow.activation := by
            rintro rfl
            exact active (by rw [active?_eq_some.2 found]; rfl)
          refine ⟨fun known => ?_, apart⟩
          have := fresh _ known
          omega
        exact passed.bind later

theorem Covering.runRounds (covering : probe.Covering start keeps fails) (limit remaining : Nat)
    (covered : Coverage) (reports : List Report) :
    Mimics probe.sim (fun state => keeps covered.tasks (Coverage.latest covered.flows) reports state ∧
        (probe.sim state).flows.Current (Coverage.latest covered.flows))
      (probe.runRounds start limit remaining covered reports)
      (Simulation.runRounds start limit remaining covered reports)
      (fun reports state => ∃ tasks stepped, keeps tasks stepped reports state ∧
        Simulation.Covered stepped (probe.sim state).flows ∧
        ∀ id ∈ (probe.sim state).tasks.ids, id ∈ tasks) fails := by
  -- Rounds end where nothing is pending any more, with or without budget left.
  have ended {covered : Coverage} {reports : List Report} {state : T}
      (holds : keeps covered.tasks (Coverage.latest covered.flows) reports state ∧
        (probe.sim state).flows.Current (Coverage.latest covered.flows))
      (nothing : ((probe.sim state).pendingTasks covered).isEmpty = true ∧
        ((probe.sim state).pendingFlows covered).isEmpty = true) :
      ∃ tasks stepped, keeps tasks stepped reports state ∧
        Simulation.Covered stepped (probe.sim state).flows ∧
        ∀ id ∈ (probe.sim state).tasks.ids, id ∈ tasks := by
    refine ⟨_, _, holds.1, Simulation.covered_of_pendingFlows nothing.2, fun id member => ?_⟩
    have left := nothing.1
    rw [Simulation.pendingTasks, List.isEmpty_iff, List.filter_eq_nil_iff] at left
    simpa using left id member
  induction remaining generalizing covered reports with
  | zero =>
      refine Mimics.get fun first holds => Mimics.get fun state same => ?_
      subst same
      split
      next nothing => exact Mimics.pure (by rintro _ rfl; exact ended holds nothing)
      next => exact Mimics.throw (by rintro _ rfl; exact covering.stop _ holds.1)
  | succ remaining ih =>
      refine Mimics.get fun first holds => Mimics.get fun state same => ?_
      subst same
      split
      next nothing => exact Mimics.pure (by rintro _ rfl; exact ended holds nothing)
      next =>
        refine Mimics.bind (covering.tasks holds.1 holds.2) fun _ => ?_
        refine Mimics.get fun between known => ?_
        obtain ⟨kept, ages⟩ := known
        have current := holds.2.ages ages
        have due := due_pendingFlows current
        refine ((covering.stepFlows ((probe.sim state).pendingTasks covered ++ covered.tasks) _
          (Coverage.latest covered.flows) reports).weaken ?_).bind fun fresh =>
            (ih (covered.add _ _) _).weaken fun after holds' => ?_
        · rintro _ rfl
          exact ⟨kept, current, due⟩
        · rwa [Coverage.latest_add fun key member => (due.inside key member).1]

theorem Covering.tick {state : T} (covering : probe.Covering (probe.sim state).now keeps fails)
    (ends : List Report → T → Prop)
    (begun : keeps [] (fun _ => none) [] (probe.change (fun sim => { sim with journal := [] }) state))
    (ended : ∀ tasks stepped reports last, keeps tasks stepped reports last →
      Simulation.Covered stepped (probe.sim last).flows →
      (∀ id ∈ (probe.sim last).tasks.ids, id ∈ tasks) →
        ends reports (probe.change (fun sim => { sim with now := sim.now + 1 }) last)) :
    Mimics probe.sim (· = state) probe.tick Simulation.tick
      (fun report after => report.tick = (probe.sim state).now ∧ ends report.reports after)
      fails := by
  have unstepped : Coverage.latest (Coverage.flows {}) = fun _ => none := by
    funext id
    cases id <;> rfl
  refine Mimics.modify (fun cleared => keeps [] (fun _ => none) [] cleared ∧
      (probe.sim cleared).now = (probe.sim state).now)
    (fun _ => covering.change ..) ?_ (Mimics.get fun cleared known => ?_)
  · rintro _ rfl
    exact ⟨begun, by rw [covering.change]⟩
  · obtain ⟨kept, now⟩ := known
    rw [← now] at covering ⊢
    refine Mimics.bind ((covering.runRounds _ _ {} []).weaken fun _ same => ?_) fun reports => ?_
    · rw [unstepped, same]
      exact ⟨kept, by simp, by simp⟩
    · refine Mimics.modify (ends reports) (fun _ => covering.change ..) ?_
        (Mimics.pure fun _ holds => ⟨rfl, holds⟩)
      rintro last ⟨tasks, stepped, kept, covered, stepped'⟩
      exact ended tasks stepped reports last kept covered stepped'

end Coverings

end Probe

end Cadence
