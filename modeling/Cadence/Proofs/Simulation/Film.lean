import Cadence.Proofs.Coupling
import Cadence.Proofs.Simulation.Probe
/-!
Ticks on film. A tick is run with a picture of the simulation before each step that a flow takes.
Taking pictures changes nothing, and what a contract keeps up holds in every one of them.
-/

namespace Cadence

open Contract Engine

variable {S σ α : Type}

structure Filmed (σ S : Type) where
  state : S
  pictures : List (Simulation σ) := []

namespace Filmed

def lift (operation : Engine S α) : Engine (Filmed σ S) α := fun filmed =>
  match operation filmed.state with
  | .ok a state => .ok a { filmed with state }
  | .error e state => .error e { filmed with state }

variable [Coroutine σ]

def advance (sim : Simulation σ) (tick : Tick) : Engine (Filmed σ (Stage σ)) (Outcome σ) :=
  fun filmed => lift (Stage.advance tick)
    { filmed with pictures := filmed.pictures ++ [sim.commit filmed.state] }

def drive (sim : Simulation σ) (effects : EffectTable) (tick : Tick) (limit : Nat) :
    Nat → List Response → List Report → Engine (Filmed σ (Stage σ)) (List Report × Boundary σ)
  | 0, _, _ => do throw (.stepBudgetExceeded (← get).state.flow.id (limit + 1))
  | steps + 1, pending, surfaced => do
    let isFirst := (← get).state.flow.stepsTaken = 0
    let outcome ← advance sim tick
    let edge ← if isFirst then lift (Stage.spawnEdge outcome tick) else pure []
    let result? ← lift (Stage.route effects tick (pending ++ edge ++ outcome.responses))
    let surfaced := result?.toList ++ surfaced
    match outcome.boundary with
    | some boundary => return (surfaced.reverse, boundary)
    | none => drive sim effects tick limit steps [] surfaced

def run (sim : Simulation σ) (effects : EffectTable) (tick : Tick) (limit : Nat) :
    Engine (Filmed σ (Stage σ)) (List Report × Boundary σ) := do
  let pending ← lift (Stage.takeResumption tick)
  drive sim effects tick limit limit pending []

def process (id : FlowId) (tick : Tick) : Engine (Filmed σ (Simulation σ)) (List Report) :=
  fun filmed =>
    let sim := filmed.state
    match sim.flows.active? id with
    | none => .error (.notActive id) filmed
    | some flow =>
      match run sim sim.effects tick sim.limits.steps
          ⟨⟨flow, sim.heap, sim.replay, sim.journal⟩, filmed.pictures⟩ with
      | .error e stage => .error e ⟨sim.commit stage.state, stage.pictures⟩
      | .ok (reports, boundary) stage =>
        lift (Simulation.process.conclude id tick flow.name reports boundary)
          ⟨sim.commit stage.state, stage.pictures⟩

def probe : Probe σ (Filmed σ (Simulation σ)) where
  sim := state
  change change filmed := { filmed with state := change filmed.state }
  stepTasks tick ids := lift (Simulation.stepTasks tick ids)
  process := process

/-! ## Pictures change nothing -/

omit [Coroutine σ] in
theorem lift_mimics (operation : Engine S α) : Mimics (state (σ := σ) (S := S)) (fun _ => True)
    (lift operation) operation (fun _ _ => True) fun _ _ => True := by
  intro filmed _
  unfold lift
  cases done : operation filmed.state with
  | ok a state => exact ⟨rfl, trivial⟩
  | error e state => exact ⟨rfl, trivial⟩

theorem advance_mimics (sim : Simulation σ) (tick : Tick) :
    Mimics (state (σ := σ) (S := Stage σ)) (fun _ => True) (advance sim tick) (Stage.advance tick)
      (fun _ _ => True) fun _ _ => True := by
  intro filmed _
  exact lift_mimics (Stage.advance tick) { filmed with pictures := _ } trivial

theorem drive_mimics (sim : Simulation σ) (effects : EffectTable) (tick : Tick) (limit steps : Nat)
    (pending : List Response) (surfaced : List Report) :
    Mimics (state (σ := σ) (S := Stage σ)) (fun _ => True)
      (drive sim effects tick limit steps pending surfaced)
      (Stage.drive effects tick limit steps pending surfaced) (fun _ _ => True) fun _ _ => True := by
  induction steps generalizing pending surfaced with
  | zero =>
      apply Mimics.get
      intro filmed _
      exact Mimics.throw fun _ _ => trivial
  | succ steps ih =>
      apply Mimics.get
      intro filmed _
      apply Mimics.bind ((advance_mimics sim tick).weaken fun _ _ => trivial)
      intro outcome
      simp only [ite_bind]
      have edge : Mimics (state (σ := σ) (S := Stage σ)) (fun _ => True)
          (if filmed.state.flow.stepsTaken = 0 then lift (Stage.spawnEdge outcome tick) else pure [])
          (if filmed.state.flow.stepsTaken = 0 then Stage.spawnEdge outcome tick else pure [])
          (fun _ _ => True) fun _ _ => True := by
        split
        · exact lift_mimics _
        · exact Mimics.pure fun _ _ => trivial
      apply edge.bind
      intro edge
      apply (lift_mimics _).bind
      intro result?
      cases outcome.boundary with
      | none => exact ih [] _
      | some boundary => exact Mimics.pure fun _ _ => trivial

theorem run_mimics (sim : Simulation σ) (effects : EffectTable) (tick : Tick) (limit : Nat) :
    Mimics (state (σ := σ) (S := Stage σ)) (fun _ => True) (run sim effects tick limit)
      (Stage.run effects tick limit) (fun _ _ => True) fun _ _ => True :=
  (lift_mimics _).bind fun pending => drive_mimics sim effects tick limit limit pending []

theorem process_mimics (id : FlowId) (tick : Tick) :
    Mimics (state (σ := σ) (S := Simulation σ)) (fun _ => True) (process id tick)
      (Simulation.process id tick) (fun _ _ => True) fun _ _ => True := by
  intro filmed _
  unfold process Simulation.process
  cases active : filmed.state.flows.active? id with
  | none => simp only [active, and_self]
  | some flow =>
      have ran := run_mimics filmed.state filmed.state.effects tick filmed.state.limits.steps
        ⟨⟨flow, filmed.state.heap, filmed.state.replay, filmed.state.journal⟩, filmed.pictures⟩
        trivial
      simp only [active]
      cases done : run filmed.state filmed.state.effects tick filmed.state.limits.steps
          ⟨⟨flow, filmed.state.heap, filmed.state.replay, filmed.state.journal⟩,
            filmed.pictures⟩ with
      | error e after =>
          rw [done] at ran
          simp only [ran.1, and_self]
      | ok result after =>
          rw [done] at ran
          simp only [ran.1]
          exact lift_mimics (Simulation.process.conclude id tick flow.name result.1 result.2)
            ⟨filmed.state.commit after.state, after.pictures⟩ trivial

/-! ## What is seen -/

def Precedes (picture : Simulation σ) (exchange : Exchange σ) : Prop :=
  ∃ flow, picture.flows.find? exchange.flow = some (.active flow) ∧ flow.coroutine = exchange.state

structure Shows (contract : Contract σ) (picture : Simulation σ) (exchange : Exchange σ) : Prop where
  kept : contract.Kept picture
  before : Precedes picture exchange

def Seen (contract : Contract σ) (journal : S → List (Exchange σ)) (filmed : Filmed σ S) : Prop :=
  List.Forall₂ (Shows contract) filmed.pictures (journal filmed.state).reverse

omit [Coroutine σ] in
def Silent (journal : S → List (Exchange σ)) (operation : Engine S α) : Prop :=
  ∀ state, match operation state with
    | .ok _ after | .error _ after => journal after = journal state

variable {contract : Contract σ} {sim : Simulation σ} {id : FlowId} {base : Heap} {tick : Tick}

theorem Seen.kept {journal : S → List (Exchange σ)} {filmed : Filmed σ S}
    (seen : Seen contract journal filmed) : ∀ picture ∈ filmed.pictures, contract.Kept picture := by
  have each := seen.imp fun picture exchange shows => And.intro shows.kept shows
  exact ((List.forall₂_and_left _ _).1 each).1

theorem lift_seen {journal : S → List (Exchange σ)} {pre : S → Prop} {operation : Engine S α}
    {post : α → S → Prop} {fails : EngineError → S → Prop}
    (triple : Triple pre operation post fails) (silent : Silent journal operation) :
    Triple (fun filmed => pre filmed.state ∧ Seen contract journal filmed) (lift operation)
      (fun a filmed => post a filmed.state ∧ Seen contract journal filmed)
      (fun _ filmed => Seen contract journal filmed) := by
  rintro ⟨state, pictures⟩ ⟨holds, seen⟩
  have reached := triple state holds
  have same := silent state
  unfold Seen at seen ⊢
  unfold lift
  cases done : operation state with
  | ok a after =>
      rw [done] at reached same
      simp only at same ⊢
      exact ⟨reached, same ▸ seen⟩
  | error e after =>
      rw [done] at same
      simp only at same ⊢
      exact same ▸ seen

theorem advance_journal {stage : Stage σ} (sound : stage.flow.Sound stage.heap) (tick : Tick) :
    ∃ input answer, match Stage.advance tick stage with
      | .ok _ after | .error _ after => after.journal =
          ⟨stage.flow.id, stage.flow.coroutine, input, answer⟩ :: stage.journal := by
  obtain ⟨⟨input, asks⟩, -⟩ := Flow.step_advances sound tick
  refine ⟨input, (Coroutine.resume stage.flow.coroutine input).1, ?_⟩
  simp only [Stage.advance, asks.exchange, Option.toList_some, List.singleton_append]
  cases (stage.flow.step stage.heap tick).result <;> rfl

theorem advance_seen (pending : List Response)
    (shows : ∀ stage, contract.Drives id base none stage → ∀ input answer,
      Shows contract (sim.commit stage) ⟨stage.flow.id, stage.flow.coroutine, input, answer⟩) :
    Triple (fun filmed => (contract.Drives id base none filmed.state ∧
          filmed.state.heap.Covers pending) ∧ Seen contract Stage.journal filmed)
      (advance sim tick)
      (fun outcome filmed => (contract.Drives id base outcome.boundary filmed.state ∧
          filmed.state.heap.Covers pending ∧ filmed.state.heap.Covers outcome.responses) ∧
        Seen contract Stage.journal filmed)
      (fun _ filmed => Seen contract Stage.journal filmed) := by
  rintro ⟨stage, pictures⟩ ⟨known, seen⟩
  have advanced := Stage.advance_spec tick pending stage known
  obtain ⟨input, answer, recorded⟩ := advance_journal known.1.sound tick
  have seen' : List.Forall₂ (Shows contract) (pictures ++ [sim.commit stage])
      (stage.journal.reverse ++ [⟨stage.flow.id, stage.flow.coroutine, input, answer⟩]) :=
    List.rel_append seen (.cons (shows stage known.1 input answer) .nil)
  unfold advance lift Seen
  cases done : Stage.advance tick stage with
  | ok outcome after =>
      rw [done] at advanced recorded
      simp only at recorded ⊢
      rw [recorded, List.reverse_cons]
      exact ⟨advanced, seen'⟩
  | error e after =>
      rw [done] at recorded
      simp only at recorded ⊢
      rw [recorded, List.reverse_cons]
      exact seen'

omit [Coroutine σ] in
theorem silent_of_passive {operation : Engine (Stage σ) α} (passive : Stage.Passive operation) :
    Silent Stage.journal operation := by
  intro stage
  have same := passive stage
  cases done : operation stage with
  | ok a after =>
      rw [done] at same
      exact same.2.2
  | error e after =>
      rw [done] at same
      exact same.2.2

theorem spawnEdge_seen {outcome : Outcome σ} {pending : List Response} (isFirst : Prop)
    [Decidable isFirst] :
    Triple (fun filmed => (contract.Drives id base outcome.boundary filmed.state ∧
          filmed.state.heap.Covers pending ∧ filmed.state.heap.Covers outcome.responses) ∧
        Seen contract Stage.journal filmed)
      (if isFirst then lift (Stage.spawnEdge outcome tick) else pure [])
      (fun edge filmed => (contract.Drives id base outcome.boundary filmed.state ∧
          filmed.state.heap.Covers (pending ++ edge ++ outcome.responses)) ∧
        Seen contract Stage.journal filmed)
      (fun _ filmed => Seen contract Stage.journal filmed) := by
  have lifted : (if isFirst then lift (σ := σ) (Stage.spawnEdge outcome tick) else pure []) =
      lift (if isFirst then Stage.spawnEdge outcome tick else pure []) := by
    split <;> rfl
  have drawn : Triple (fun stage => contract.Drives id base outcome.boundary stage ∧
        stage.heap.Covers pending ∧ stage.heap.Covers outcome.responses)
      (if isFirst then Stage.spawnEdge outcome tick else pure [])
      (fun edge stage => contract.Drives id base outcome.boundary stage ∧
        stage.heap.Covers (pending ++ edge ++ outcome.responses)) (fun _ _ => True) :=
    Stage.spawnEdge_spec contract isFirst tick
  rw [lifted]
  exact lift_seen drawn (silent_of_passive (Stage.passive_spawnEdge outcome isFirst tick))

theorem route_seen (effects : EffectTable) (responses : List Response)
    {boundary : Option (Boundary σ)} :
    Triple (fun filmed => (contract.Drives id base boundary filmed.state ∧
          filmed.state.heap.Covers responses) ∧ Seen contract Stage.journal filmed)
      (lift (Stage.route effects tick responses))
      (fun _ filmed => contract.Drives id base boundary filmed.state ∧
        Seen contract Stage.journal filmed)
      (fun _ filmed => Seen contract Stage.journal filmed) := by
  have routed : Triple (fun stage => contract.Drives id base boundary stage ∧
        stage.heap.Covers responses) (Stage.route effects tick responses)
      (fun _ stage => contract.Drives id base boundary stage) (fun _ _ => True) :=
    Stage.route_spec effects tick
  exact lift_seen routed (silent_of_passive (Stage.passive_route effects tick responses))

theorem drive_seen (effects : EffectTable) (limit steps : Nat) (pending : List Response)
    (surfaced : List Report)
    (shows : ∀ stage, contract.Drives id base none stage → ∀ input answer,
      Shows contract (sim.commit stage) ⟨stage.flow.id, stage.flow.coroutine, input, answer⟩) :
    Triple (fun filmed => (contract.Drives id base none filmed.state ∧
          filmed.state.heap.Covers pending) ∧ Seen contract Stage.journal filmed)
      (drive sim effects tick limit steps pending surfaced)
      (fun _ filmed => Seen contract Stage.journal filmed)
      (fun _ filmed => Seen contract Stage.journal filmed) := by
  induction steps generalizing pending surfaced with
  | zero =>
      apply Triple.get
      intro filmed known
      apply Triple.throw
      rintro _ rfl
      exact known.2
  | succ steps ih =>
      apply Triple.get
      intro first known
      refine Triple.bind ((advance_seen pending shows).weaken ?_) fun outcome => ?_
      · rintro _ rfl
        exact known
      apply Triple.bind_ite _ (spawnEdge_seen (first.state.flow.stepsTaken = 0))
      intro edge
      apply (route_seen effects _).bind
      intro result?
      cases outcome.boundary with
      | some boundary => exact Triple.pure fun filmed known => known.2
      | none =>
          apply (ih [] _).weaken
          intro filmed known
          exact ⟨⟨known.1, by simp [Heap.Covers]⟩, known.2⟩

omit [Coroutine σ] in
theorem silent_takeResumption (tick : Tick) :
    Silent Stage.journal (Stage.takeResumption (σ := σ) tick) := by
  intro stage
  unfold Stage.takeResumption
  cases stage.flow.resumption with
  | none => rfl
  | some resumption =>
      simp only
      cases stage.flow.stack.peek 0 with
      | error e => rfl
      | ok top =>
          cases primed : Stage.isPrimed top with
          | false => simp [primed]
          | true => cases resumption.isDependency <;> simp [primed]

theorem run_seen (tick : Tick) (effects : EffectTable) (limit : Nat) (stage : Stage σ)
    (heap : contract.heap stage.heap) (active : contract.Active stage.heap id stage.flow)
    (shows : ∀ after, contract.Drives id stage.heap none after → ∀ input answer,
      Shows contract (sim.commit after) ⟨after.flow.id, after.flow.coroutine, input, answer⟩) :
    Triple (fun filmed => filmed.state = stage ∧ Seen contract Stage.journal filmed)
      (run sim effects tick limit) (fun _ filmed => Seen contract Stage.journal filmed)
      (fun _ filmed => Seen contract Stage.journal filmed) := by
  have taken : Triple (· = stage) (Stage.takeResumption tick)
      (fun pending after => contract.Drives id stage.heap none after ∧ after.heap.Covers pending)
      (fun _ _ => True) := Stage.takeResumption_spec stage tick heap active
  apply (lift_seen taken (silent_takeResumption tick)).bind
  intro pending
  exact drive_seen effects limit limit pending [] shows

omit [Coroutine σ] in
theorem silent_onFlows (operation : Engine (FlowTable σ) α) :
    Silent Simulation.journal (Simulation.onFlows operation) := by
  intro sim
  simp only [Simulation.onFlows]
  cases operation sim.flows <;> rfl

omit [Coroutine σ] in
theorem silent_await (id : FlowId) (request : Request σ) (caller : Address) (tick : Tick) :
    Silent Simulation.journal (Simulation.await id request caller tick) := by
  intro sim
  unfold Simulation.await
  cases request.strategy.check id request.recipes.length with
  | error e => rfl
  | ok => exact silent_onFlows _ sim

omit [Coroutine σ] in
theorem silent_conclude (id : FlowId) (tick : Tick) (name : String) (reports : List Report)
    (boundary : Boundary σ) :
    Silent Simulation.journal (Simulation.process.conclude id tick name reports boundary) := by
  intro sim
  cases boundary with
  | halt => rfl
  | await request caller =>
      have same := silent_await id request caller tick sim
      rw [Simulation.conclude_await]
      cases done : Simulation.await id request caller tick sim <;> rwa [done] at same
  | complete value last =>
      have same := silent_onFlows (FlowTable.complete id value last tick) sim
      rw [Simulation.conclude_complete]
      cases done : Simulation.onFlows (FlowTable.complete id value last tick) sim <;>
        rwa [done] at same

theorem process_seen (id : Nat) (tick : Tick) :
    Triple (fun filmed => (contract.Kept filmed.state ∧
          ∃ flow, filmed.state.flows.find? id = some (.active flow)) ∧
        Seen contract Simulation.journal filmed)
      (process id tick) (fun _ filmed => Seen contract Simulation.journal filmed)
      (fun _ filmed => Seen contract Simulation.journal filmed) := by
  rintro ⟨sim, pictures⟩ ⟨⟨⟨lineage, holds⟩, flow, found⟩, seen⟩
  have shows : ∀ after, contract.Drives id sim.heap none after → ∀ input answer,
      Shows contract (sim.commit after) ⟨after.flow.id, after.flow.coroutine, input, answer⟩ := by
    intro after drives input answer
    refine ⟨⟨_, Simulation.commit_holds holds found drives⟩, after.flow, ?_, rfl⟩
    rw [Simulation.commit_flows sim drives.named, drives.named]
    exact FlowTable.find?_put_self found
  have ran := run_seen tick sim.effects sim.limits.steps
    ⟨flow, sim.heap, sim.replay, sim.journal⟩ holds.heap (holds.orders.admits id _ found) shows
    ⟨⟨flow, sim.heap, sim.replay, sim.journal⟩, pictures⟩ ⟨rfl, seen⟩
  unfold process
  simp only [FlowTable.active?_eq_some.2 found]
  cases done : run sim sim.effects tick sim.limits.steps
      ⟨⟨flow, sim.heap, sim.replay, sim.journal⟩, pictures⟩ with
  | error e stage =>
      rw [done] at ran
      exact ran
  | ok result stage =>
      rw [done] at ran
      have same := silent_conclude id tick flow.name result.1 result.2 (sim.commit stage.state)
      unfold Seen at ran ⊢
      simp only [lift]
      cases concluded : Simulation.process.conclude id tick flow.name result.1 result.2
          (sim.commit stage.state) with
      | error e after =>
          rw [concluded] at same
          simp only at same ⊢
          rw [same]
          exact ran
      | ok reports after =>
          rw [concluded] at same
          simp only at same ⊢
          rw [same]
          exact ran

omit [Coroutine σ] in
theorem silent_stepTasks (tick : Tick) (ids : List TaskId) :
    Silent Simulation.journal (Simulation.stepTasks (σ := σ) tick ids) := by
  induction ids with
  | nil => exact fun sim => rfl
  | cons id ids ih =>
      intro sim
      have bound : Simulation.stepTasks tick (id :: ids) sim =
          EStateM.bind (Simulation.stepTasks.stepTask tick id)
            (fun _ => Simulation.stepTasks tick ids) sim := rfl
      rw [bound]
      unfold EStateM.bind Simulation.stepTasks.stepTask
      rcases TaskTable.tick id sim.tasks with ⟨_ | recipe, tasks⟩ | ⟨e, tasks⟩
      · exact ih { sim with tasks }
      · exact ih { sim with tasks, flows := _ }
      · rfl

/-! ## Ticks -/

/-- Taking pictures leaves a tick as it is, whatever simulation it starts from. -/
theorem tick_exact (sim : Simulation σ) :
    match (probe (σ := σ)).tick ⟨sim, []⟩ with
    | .ok report filmed => Simulation.tick sim = .ok report filmed.state
    | .error e filmed => Simulation.tick sim = .error e filmed.state := by
  have faithful : (probe (σ := σ)).Faithful sim.now (fun _ _ => True) fun _ _ => True := {
    change := fun _ _ => rfl
    tasks := fun _ _ _ _ => (lift_mimics _).weaken fun _ _ => trivial
    process := fun _ id => (process_mimics id sim.now).weaken fun _ _ => trivial
    stop := fun _ _ _ _ => trivial }
  have ticked := faithful.tick (fun _ (_ : Filmed σ (Simulation σ)) => True) trivial
    (fun _ _ _ => trivial) ⟨sim, []⟩ rfl
  cases done : (probe (σ := σ)).tick ⟨sim, []⟩ with
  | ok report filmed =>
      rw [done] at ticked
      exact ticked.1
  | error e filmed =>
      rw [done] at ticked
      exact ticked.1

theorem faithful (contract : Contract σ) (tick : Tick) :
    (probe (σ := σ)).Faithful tick
      (fun _ filmed => contract.Kept filmed.state ∧ Seen contract Simulation.journal filmed)
      (fun _ filmed => Seen contract Simulation.journal filmed) where
  change _ _ := rfl
  tasks reports covered filmed known := by
    obtain ⟨kept, seen⟩ := known
    apply ((lift_mimics _).weaken fun _ _ => trivial).and_triple
    rintro filmed rfl
    obtain ⟨after, done, kept'⟩ := Simulation.pendingTasks_ok kept covered tick
    have same := silent_stepTasks tick (filmed.state.pendingTasks covered) filmed.state
    unfold Seen at seen ⊢
    simp only [done, probe, lift] at same ⊢
    exact ⟨kept', same ▸ seen⟩
  process reports id := by
    apply (process_mimics id tick).and_triple
    rintro filmed ⟨⟨kept, seen⟩, found⟩
    have same := process_mimics id tick filmed trivial
    have kept' := Simulation.process_kept id tick filmed.state ⟨kept, found⟩
    have seen' := process_seen id tick filmed ⟨⟨kept, found⟩, seen⟩
    cases done : process id tick filmed with
    | error e after =>
        rw [done] at seen'
        exact seen'
    | ok fresh after =>
        rw [done] at same seen'
        rw [same.1] at kept'
        exact ⟨kept', seen'⟩
  stop _ _ _ known := known.2

theorem tick_seen {sim : Simulation σ} (kept : contract.Kept sim) :
    Seen contract Simulation.journal (Engine.after (probe (σ := σ)).tick ⟨sim, []⟩) := by
  have ticked := (faithful contract sim.now).tick
    (fun _ (filmed : Filmed σ (Simulation σ)) => Seen contract Simulation.journal filmed)
    ⟨kept.unjournaled, .nil⟩ (fun _ _ known => known.2) ⟨sim, []⟩ rfl
  unfold Engine.after
  cases done : (probe (σ := σ)).tick ⟨sim, []⟩ with
  | ok report filmed =>
      rw [done] at ticked
      exact ticked.2.2
  | error e filmed =>
      rw [done] at ticked
      exact ticked.2

end Filmed

/-! ## Runs -/

namespace Simulation

variable [Coroutine σ] {contract : Contract σ} {sim : Simulation σ}

def afterRun (sim : Simulation σ) (run : List Limits) : Simulation σ :=
  run.foldl (fun sim limits => Simulation.tick.after (sim.setLimits limits)) sim

def film (sim : Simulation σ) : List Limits → List (Simulation σ)
  | [] => [sim]
  | limits :: more =>
    let filmed := Engine.after Filmed.probe.tick ⟨sim.setLimits limits, []⟩
    sim :: (filmed.pictures ++ film filmed.state more)

theorem state_filmed (sim : Simulation σ) :
    (Engine.after Filmed.probe.tick ⟨sim, []⟩).state = Simulation.tick.after sim := by
  have exact := Filmed.tick_exact sim
  unfold Engine.after
  cases done : (Filmed.probe (σ := σ)).tick ⟨sim, []⟩ with
  | ok report filmed =>
      rw [done] at exact
      rw [exact]
  | error e filmed =>
      rw [done] at exact
      rw [exact]

theorem film_getLast? (sim : Simulation σ) (run : List Limits) :
    (sim.film run).getLast? = some (sim.afterRun run) := by
  induction run generalizing sim with
  | nil => rfl
  | cons limits more ih =>
      rw [film, ← List.cons_append, List.getLast?_append, state_filmed, ih]
      rfl

theorem kept_setLimits (kept : contract.Kept sim) (limits : Limits) :
    contract.Kept (sim.setLimits limits) := by
  obtain ⟨lineage, holds⟩ := kept
  exact ⟨lineage, holds.orders, holds.unsettled, holds.heap, holds.tasks⟩

theorem tick_kept (kept : contract.Kept sim) : contract.Kept (Simulation.tick.after sim) := by
  obtain ⟨lineage, holds⟩ := kept
  exact holds.ticks 1

/-- No step of a run is missing on its film: each exchange of a tick has a picture of its own, and
those of a tick are in the order of its journal. -/
theorem film_complete (kept : contract.Kept sim) {run before : List Limits} {limits : Limits}
    (begun : before ++ [limits] <+: run) : ∃ pictures, pictures <:+: sim.film run ∧
      List.Forall₂ Filmed.Precedes pictures (sim.afterRun (before ++ [limits])).journal.reverse := by
  induction before generalizing sim run with
  | nil =>
      obtain ⟨more, rfl⟩ := begun
      have seen := Filmed.tick_seen (kept_setLimits kept limits)
      rw [Filmed.Seen, state_filmed] at seen
      exact ⟨_, ⟨[sim], film _ more, rfl⟩, seen.imp fun _ _ shows => shows.before⟩
  | cons first before ih =>
      obtain ⟨more, rfl⟩ := begun
      obtain ⟨pictures, part, each⟩ := ih (tick_kept (kept_setLimits kept first)) (List.prefix_append ..)
      refine ⟨pictures, part.trans ?_, each⟩
      rw [← state_filmed]
      exact ((List.suffix_append ..).trans (List.suffix_cons ..)).isInfix

theorem film_kept (kept : contract.Kept sim) (run : List Limits) :
    ∀ picture ∈ sim.film run, contract.Kept picture := by
  induction run generalizing sim with
  | nil => exact List.forall_mem_singleton.2 kept
  | cons limits more ih =>
      have limited := kept_setLimits kept limits
      have seen := (Filmed.tick_seen limited).kept
      intro picture member
      rw [film, state_filmed, List.mem_cons, List.mem_append] at member
      rcases member with rfl | during | later
      · exact kept
      · exact seen picture during
      · exact ih (tick_kept limited) picture later

end Simulation

end Cadence
