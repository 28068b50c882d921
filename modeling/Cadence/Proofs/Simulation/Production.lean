import Cadence.Proofs.Simulation.Log
import Cadence.Proofs.Simulation.Transparency
/-!
What a turn of a flow produces, whatever effects make of it: the results of its steps, in the order
of the steps. Where nothing is collapsed all of them surface.
-/

namespace Cadence

open Engine

variable {σ : Type}

def Flow.spawnEdge (flow after : Flow σ) (responses : List Response) (tick : Tick) : List Response :=
  if flow.stepsTaken = 0 then
    match after.stack.records.getLast? with
    | none => []
    | some root =>
      match root.address?, responses.head?.map Response.traffic with
      | some caller, some (.load address params) =>
        [{ traffic := .call caller address params root.isDependency, tick }]
      | _, _ => []
  else []

def Flow.pending (flow : Flow σ) (tick : Tick) : List Response :=
  match flow.resumption with
  | none => []
  | some resumption =>
    if resumption.isDependency then Stage.releaseEdges resumption tick else []

def resultOf (responses : List Response) : List (List Response) :=
  if responses.isEmpty then [] else [responses]

/-- The steps of a turn up to its boundary, with their results; `pending` goes in front of them. -/
inductive Stage.Steps [Coroutine σ] (tick : Tick) : List Response → Flow σ → Heap →
    List (List Response) → Boundary σ → Flow σ → Heap → Prop
  | last {pending : List Response} {flow : Flow σ} {heap : Heap} {outcome : Outcome σ}
      {boundary : Boundary σ} (stepped : (flow.step heap tick).result = .ok outcome)
      (reached : outcome.boundary = some boundary) :
      Steps tick pending flow heap
        (resultOf (pending ++
          flow.spawnEdge (flow.step heap tick).flow outcome.responses tick ++ outcome.responses))
        boundary (flow.step heap tick).flow (flow.step heap tick).heap
  | more {pending : List Response} {flow later : Flow σ} {heap memory : Heap} {outcome : Outcome σ}
      {boundary : Boundary σ} {results : List (List Response)}
      (stepped : (flow.step heap tick).result = .ok outcome) (goesOn : outcome.boundary = none)
      (rest : Steps tick [] (flow.step heap tick).flow (flow.step heap tick).heap results boundary
        later memory) :
      Steps tick pending flow heap
        (resultOf (pending ++
          flow.spawnEdge (flow.step heap tick).flow outcome.responses tick ++ outcome.responses) ++
            results)
        boundary later memory

namespace Stage

variable {stage after : Stage σ} {tick : Tick}

theorem spawnEdge_eq {outcome : Outcome σ} {edge : List Response} {flow : Flow σ}
    (done : (if flow.stepsTaken = 0 then spawnEdge outcome tick else pure []) stage =
      .ok edge after) :
    after = stage ∧ edge = flow.spawnEdge stage.flow outcome.responses tick := by
  unfold Flow.spawnEdge
  by_cases first : flow.stepsTaken = 0
  · rw [if_pos first] at done ⊢
    unfold spawnEdge at done
    change EStateM.bind (spawnEdge.liftExcept stage.flow.stack.root) _ stage = .ok edge after at done
    unfold Stack.root at done
    cases bottom : stage.flow.stack.records.getLast? with
    | none =>
        simp only [bottom] at done
        cases done
    | some root =>
        simp only [bottom, spawnEdge.liftExcept, EStateM.bind, pure, EStateM.pure] at done
        generalize outcome.responses.head?.map Response.traffic = first? at done ⊢
        have answer {known : List Response}
            (done : (pure known : Engine (Stage σ) (List Response)) stage = .ok edge after) :
            after = stage ∧ edge = known :=
          (pure_ok.1 done).symm.imp Eq.symm Eq.symm
        cases place : root.address? with
        | none =>
            simp only [place] at done ⊢
            rcases first? with _ | ⟨address, params⟩ | _ <;> exact answer done
        | some caller =>
            simp only [place] at done ⊢
            rcases first? with _ | ⟨address, params⟩ | _ <;> exact answer done
  · rw [if_neg first] at done ⊢
    injection done with same same'
    exact ⟨same'.symm, same.symm⟩

theorem route_plain {responses : List Response} {result? : Option Report}
    (done : route {} tick responses stage = .ok result? after) :
    after = stage ∧ result?.toList.map Report.responses = resultOf responses := by
  unfold route at done
  unfold resultOf
  by_cases silent : responses.isEmpty = true
  · rw [if_pos silent] at done ⊢
    injection done with same same'
    exact ⟨same'.symm, by rw [← same]; rfl⟩
  · have plain : EffectTable.isInternal {} stage.heap responses = .ok false := by
      simp [EffectTable.isInternal, EffectTable.isEmpty]
    rw [if_neg silent] at done ⊢
    simp only [plain] at done
    injection done with same same'
    exact ⟨same'.symm, by rw [← same]; rfl⟩

variable [Coroutine σ]

def advanced (stage : Stage σ) (tick : Tick) : Stage σ :=
  { stage with
    flow := (stage.flow.step stage.heap tick).flow, heap := (stage.flow.step stage.heap tick).heap,
    journal := (stage.flow.step stage.heap tick).exchange.toList ++ stage.journal }

theorem advance_ok {outcome : Outcome σ} (done : advance tick stage = .ok outcome after) :
    (stage.flow.step stage.heap tick).result = .ok outcome ∧ after = stage.advanced tick := by
  unfold advance at done
  simp only at done
  cases result : (stage.flow.step stage.heap tick).result with
  | error e =>
      simp only [result] at done
      cases done
  | ok outcome' =>
      simp only [result] at done
      injection done with same same'
      exact ⟨congrArg Except.ok same, same'.symm⟩

theorem drive_plain_succ {limit steps : Nat} {pending : List Response} {surfaced reports : List Report}
    {boundary : Boundary σ}
    (done : drive {} tick limit (steps + 1) pending surfaced stage = .ok (reports, boundary) after) :
    ∃ outcome surfaced', (stage.flow.step stage.heap tick).result = .ok outcome ∧
      surfaced'.reverse.map Report.responses = surfaced.reverse.map Report.responses ++
        resultOf (pending ++ stage.flow.spawnEdge (stage.flow.step stage.heap tick).flow
          outcome.responses tick ++ outcome.responses) ∧
      (outcome.boundary = some boundary ∧ reports = surfaced'.reverse ∧ after = stage.advanced tick ∨
        outcome.boundary = none ∧
          drive {} tick limit steps [] surfaced' (stage.advanced tick) =
            .ok (reports, boundary) after) := by
  obtain ⟨outcome, first, edge, second, result?, third, ran, drawn, routed, done⟩ := drive_succ_ok.1 done
  obtain ⟨stepped, rfl⟩ := advance_ok ran
  obtain ⟨rfl, rfl⟩ := spawnEdge_eq drawn
  obtain ⟨rfl, result⟩ := route_plain routed
  refine ⟨outcome, result?.toList ++ surfaced, stepped, ?_, ?_⟩
  · rw [show (stage.flow.step stage.heap tick).flow = (stage.advanced tick).flow from rfl, ← result]
    cases result? <;> simp
  · cases reached : outcome.boundary with
    | some boundary' =>
        simp only [reached] at done
        obtain ⟨same, rfl⟩ := pure_ok.1 done
        obtain ⟨rfl, rfl⟩ := Prod.mk.inj same
        exact .inl ⟨rfl, rfl, rfl⟩
    | none =>
        simp only [reached] at done
        exact .inr ⟨rfl, done⟩

theorem drive_plain {limit steps : Nat} {pending : List Response} {surfaced reports : List Report}
    {boundary : Boundary σ}
    (done : drive {} tick limit steps pending surfaced stage = .ok (reports, boundary) after) :
    ∃ results, Steps tick pending stage.flow stage.heap results boundary after.flow after.heap ∧
      reports.map Report.responses = surfaced.reverse.map Report.responses ++ results := by
  induction steps generalizing stage pending surfaced with
  | zero => cases done
  | succ steps ih =>
      obtain ⟨outcome, surfaced', stepped, longer, ⟨reached, rfl, rfl⟩ | ⟨goesOn, done⟩⟩ :=
        drive_plain_succ done
      · exact ⟨_, .last stepped reached, longer⟩
      · obtain ⟨results, steps, all⟩ := ih done
        exact ⟨_, .more stepped goesOn steps, by rw [all, longer, List.append_assoc]⟩

omit [Coroutine σ] in
theorem takeResumption_eq {pending : List Response}
    (done : takeResumption tick stage = .ok pending after) :
    pending = stage.flow.pending tick ∧
      after = { stage with flow := { stage.flow with resumption := none } } := by
  unfold takeResumption at done
  unfold Flow.pending
  cases resumed : stage.flow.resumption with
  | none =>
      simp only [resumed] at done
      injection done with same same'
      refine ⟨same.symm, ?_⟩
      rw [← same', ← resumed]
  | some resumption =>
      simp only [resumed] at done
      split at done
      next e missing => cases done
      next top found =>
        split at done
        · cases done
        · split at done
          next unbound =>
            injection done with same same'
            have unbound : resumption.isDependency = false := by simpa using unbound
            exact ⟨by simpa [unbound] using same.symm, same'.symm⟩
          next bound =>
            injection done with same same'
            have bound : resumption.isDependency = true := by simpa using bound
            exact ⟨by simpa [bound] using same.symm, same'.symm⟩

theorem run_plain {limit : Nat} {reports : List Report} {boundary : Boundary σ}
    (done : run {} tick limit stage = .ok (reports, boundary) after) :
    Steps tick (stage.flow.pending tick) { stage.flow with resumption := none } stage.heap
      (reports.map Report.responses) boundary after.flow after.heap := by
  unfold run at done
  obtain ⟨pending, taken, resumed, driven⟩ := bind_ok.1 done
  obtain ⟨rfl, rfl⟩ := takeResumption_eq resumed
  obtain ⟨results, steps, same⟩ := drive_plain driven
  rw [same]
  exact steps

end Stage

def resultsOf (reports : List Report) : List (List Response) :=
  reports.flatMap fun report => resultOf report.responses

theorem resultsOf_append (reports reports' : List Report) :
    resultsOf (reports ++ reports') = resultsOf reports ++ resultsOf reports' :=
  List.flatMap_append

theorem ne_nil_of_mem_resultOf {responses result : List Response}
    (member : result ∈ resultOf responses) : result ≠ [] := by
  unfold resultOf at member
  split at member
  · cases member
  next some =>
    obtain rfl := List.mem_singleton.1 member
    simpa using some

theorem Stage.Steps.ne_nil [Coroutine σ] {tick : Tick} {pending : List Response}
    {flow later : Flow σ} {heap memory : Heap} {results : List (List Response)}
    {boundary : Boundary σ}
    (steps : Stage.Steps tick pending flow heap results boundary later memory) :
    ∀ result ∈ results, result ≠ [] := by
  induction steps with
  | last => exact fun result => ne_nil_of_mem_resultOf
  | more stepped goesOn rest ih =>
      intro result member
      rcases List.mem_append.1 member with first | later
      · exact ne_nil_of_mem_resultOf first
      · exact ih result later

theorem resultsOf_steps [Coroutine σ] {tick : Tick} {pending : List Response}
    {flow later : Flow σ} {heap memory : Heap} {reports : List Report} {boundary : Boundary σ}
    (steps : Stage.Steps tick pending flow heap (reports.map Report.responses) boundary later
      memory) : resultsOf reports = reports.map Report.responses := by
  have filled : ∀ report ∈ reports, report.responses ≠ [] := fun report member =>
    steps.ne_nil _ (List.mem_map_of_mem member)
  clear steps
  induction reports with
  | nil => rfl
  | cons report reports ih =>
      have first : resultOf report.responses = [report.responses] := by
        simp [resultOf, filled report (List.mem_cons_self ..)]
      rw [resultsOf, List.flatMap_cons, first]
      exact congrArg _ (ih fun other member => filled other (List.mem_cons_of_mem _ member))

structure Stint where
  flow : FlowId
  activation : Nat
  reports : List Report
  wait? : Option Wait := none

def Stint.results (stint : Stint) : List (List Response) :=
  resultsOf stint.reports

def Boundary.wait? (size : Nat) (tick : Tick) : Boundary σ → Option Wait
  | .await request caller => some (request.wait caller size tick)
  | .halt | .complete _ _ => none

namespace Simulation

variable [Coroutine σ]

/-- What the next turn of a flow comes to, with everything it produces surfacing. -/
def stint (sim : Simulation σ) (id : FlowId) (tick : Tick) : Stint where
  flow := id
  activation := ((sim.flows.active? id).map Flow.activation).getD 0
  reports :=
    match process id tick (sim.collapse {} {}) with
    | .ok reports _ => reports
    | .error _ _ => []
  wait? := (sim.flows.active? id).bind fun flow =>
    match Stage.run {} tick sim.limits.steps ⟨flow, sim.heap, {}, sim.journal⟩ with
    | .ok (_, boundary) _ => boundary.wait? sim.flows.phases.size tick
    | .error _ _ => none

inductive Ends (tick : Tick) (id : FlowId) (flow later : Flow σ) (before : FlowTable σ) :
    Boundary σ → FlowTable σ → Prop
  | halt : Ends tick id flow later before .halt (before.put id (some (.active later)))
  | await {request : Request σ} {caller : Address} {cancelled : List Cancellation}
      {after : FlowTable σ}
      (shapely : request.strategy.check id request.recipes.length = .ok ())
      (resolved : FlowTable.resolve tick (before.awaiting id later request caller tick) =
        .ok cancelled after) :
      Ends tick id flow later before (.await request caller) after
  | complete {value : Json} {last : Option Address} {cancelled : List Cancellation}
      {after : FlowTable σ}
      (resolved : FlowTable.resolve tick (before.completing id
        ⟨id, flow.name, value, last, flow.spawnedAt, tick, before.completions + 1⟩) =
          .ok cancelled after) :
      Ends tick id flow later before (.complete value last) after

open Contract FlowTable

variable {contract : Contract σ} {sim after : Simulation σ} {lineage : Lineage} {id : Nat}
  {tick : Tick} {flow : Flow σ} {reports : List Report}

theorem process_runs (holds : contract.Holds ⟨sim, lineage⟩) (plain : sim.effects = {})
    (found : sim.flows.find? id = some (.active flow)) (done : process id tick sim = .ok reports after) :
    ∃ surfaced boundary stage, Stage.run {} tick sim.limits.steps
        ⟨flow, sim.heap, sim.replay, sim.journal⟩ = .ok (surfaced, boundary) stage ∧
      resultsOf reports = surfaced.map Report.responses ∧ after.journal = stage.journal ∧
      Ends tick id flow stage.flow sim.flows boundary after.flows := by
  have active : contract.Active sim.heap id flow := holds.orders.admits id _ found
  have ran := Stage.run_spec (contract.steady_kin tick flow)
    ⟨flow, sim.heap, sim.replay, sim.journal⟩ {} sim.limits.steps holds.heap active
    ⟨rfl, rfl, rfl, rfl⟩ _ rfl
  simp only [process, active?_eq_some.2 found, plain] at done
  cases stopped : Stage.run {} tick sim.limits.steps ⟨flow, sim.heap, sim.replay, sim.journal⟩ with
  | error e stage =>
      simp only [stopped] at done
      cases done
  | ok result stage =>
      obtain ⟨surfaced, boundary⟩ := result
      rw [stopped] at ran
      obtain ⟨drives, kin⟩ := ran
      have whole := resultsOf_steps (Stage.run_plain stopped)
      have written := sim.commit_flows drives.named
      simp only [stopped] at done
      refine ⟨surfaced, boundary, stage, rfl, ?_⟩
      cases boundary with
      | halt =>
          injection done with same same'
          subst same same'
          rw [whole, written]
          exact ⟨rfl, rfl, .halt⟩
      | await request caller =>
          rw [conclude_await] at done
          cases check : request.strategy.check id request.recipes.length with
          | error e =>
              simp only [await, check] at done
              cases done
          | ok =>
              obtain ⟨cancelled, flows, awaited, resolved, -⟩ := await_ok holds found drives check tick
              simp only [awaited] at done
              injection done with same same'
              subst same same'
              exact ⟨whole, rfl, .await check resolved⟩
      | complete value last =>
          obtain ⟨cancelled, flows, completed, resolved, -⟩ := complete_ok holds found drives tick
          rw [kin.name, kin.spawnedAt] at resolved
          rw [conclude_complete] at done
          simp only [completed] at done
          injection done with same same'
          subst same same'
          rw [resultsOf_append, whole]
          exact ⟨List.append_nil _, rfl, .complete resolved⟩

theorem process_plain (holds : contract.Holds ⟨sim, lineage⟩) (plain : sim.effects = {})
    (found : sim.flows.find? id = some (.active flow)) (done : process id tick sim = .ok reports after) :
    ∃ surfaced boundary stage, Stage.run {} tick sim.limits.steps
        ⟨flow, sim.heap, sim.replay, sim.journal⟩ = .ok (surfaced, boundary) stage ∧
      Stage.Steps tick (flow.pending tick) { flow with resumption := none } sim.heap
        (resultsOf reports) boundary stage.flow stage.heap ∧
      Ends tick id flow stage.flow sim.flows boundary after.flows := by
  obtain ⟨surfaced, boundary, stage, ran, whole, -, ends⟩ := process_runs holds plain found done
  refine ⟨surfaced, boundary, stage, ran, ?_, ends⟩
  rw [whole]
  exact Stage.run_plain ran

structure Produces (tick : Tick) (id : FlowId) (flow : Flow σ) (sim after : Simulation σ)
    (reports : List Report) (boundary : Boundary σ) (later : Flow σ) (memory : Heap) : Prop where
  steps : Stage.Steps tick (flow.pending tick) { flow with resumption := none } sim.heap
    (sim.stint id tick).results boundary later memory
  ends : Ends tick id flow later sim.flows boundary after.flows
  wait : (sim.stint id tick).wait? = boundary.wait? sim.flows.phases.size tick
  divided : Divided tick sim.replay after.replay (sim.stint id tick).reports reports

theorem process_uncollapsed (holds : (any σ).Holds ⟨sim, lineage⟩)
    (done : process id tick sim = .ok reports after) :
    ∃ whole after', process id tick (sim.collapse {} {}) = .ok whole after' ∧
      after.flows = after'.flows ∧ after.journal = after'.journal ∧
        Divided tick sim.replay after.replay whole reports := by
  have coupled := coupled_process (Pairing.plain_lasts sim.effects tick sim.replay) id sim
    (sim.collapse {} {})
    ⟨⟨rfl, rfl, rfl, .surface tick sim.replay []⟩, lineage, collapse_holds holds {} {}⟩
  rw [done] at coupled
  cases plain : process id tick (sim.collapse {} {}) with
  | error e after' =>
      rw [plain] at coupled
      cases coupled
  | ok whole after' =>
      rw [plain] at coupled
      obtain ⟨alike, -, -, divided⟩ := coupled
      exact ⟨whole, after', rfl, by rw [alike], by rw [alike], divided⟩

theorem process_produces (holds : (any σ).Holds ⟨sim, lineage⟩)
    (found : sim.flows.find? id = some (.active flow)) (done : process id tick sim = .ok reports after) :
    ∃ boundary later memory, Produces tick id flow sim after reports boundary later memory := by
  obtain ⟨whole, after', plain, same, -, divided⟩ := process_uncollapsed holds done
  obtain ⟨surfaced, boundary, stage, ran, steps, ends⟩ :=
    process_plain (collapse_holds holds {} {}) rfl found plain
  have active : sim.flows.active? id = some flow := active?_eq_some.2 found
  have produced : (sim.stint id tick).reports = whole := by simp only [stint, plain]
  refine ⟨boundary, stage.flow, stage.heap, ?_, ?_, ?_, ?_⟩
  · rw [Stint.results, produced]
    exact steps
  · rw [same]
    exact ends
  · simp only [stint, active, Option.bind_some]
    simp only [collapse] at ran
    rw [ran]
  · rw [produced]
    exact divided

end Simulation

end Cadence
