import Cadence.Proofs.FlowTable.Cancellation
import Cadence.Proofs.Simulation.Probe
/-!
What a tick reports of the flows that it ends. Each flow that completes is reported once, in the
order of completion, and with it, once and as they are stored, the flows that it makes cancelled.
-/

namespace Cadence

namespace Report

def completed? : Report → Option (FlowId × String × Json)
  | yielded _ _ _ => none
  | constructed flow name value _ => some (flow, name, value)

def cancelled : Report → List Cancellation
  | yielded _ _ _ => []
  | constructed _ _ _ cancelled => cancelled

def Ongoing (report : Report) : Prop :=
  report.completed? = none ∧ report.cancelled = []

theorem ongoing_yielded (flow : FlowId) (name : String) (responses : List Response) :
    (yielded flow name responses).Ongoing :=
  ⟨rfl, rfl⟩

end Report

namespace FlowTable

variable {σ : Type} {before middle after : FlowTable σ} {tick : Tick} {done later : List Completion}
  {reports reports' : List Report} {id : Nat} {flow old : Flow σ}

/-- Reports that say which flows have ended in between; those that completed are `done`. -/
structure Accounts (tick : Tick) (before after : FlowTable σ) (done : List Completion)
    (reports : List Report) : Prop where
  completions : Gains Completion.id before.completed? after.completed? done
  count : after.completions = before.completions + done.length
  ordered : done.map Completion.order = List.range' (before.completions + 1) done.length
  dated : ∀ completion ∈ done, completion.completedAt = tick
  reported : reports.filterMap Report.completed? =
    done.map fun completion => (completion.id, completion.name, completion.value)
  cancellations : Gains Cancellation.id before.cancelled? after.cancelled?
    (reports.flatMap Report.cancelled)

theorem Accounts.trans (accounts : Accounts tick before middle done reports)
    (accounts' : Accounts tick middle after later reports') :
    Accounts tick before after (done ++ later) (reports ++ reports') where
  completions := accounts.completions.trans accounts'.completions
  count := by
    rw [accounts'.count, accounts.count, List.length_append, Nat.add_assoc]
  ordered := by
    rw [List.map_append, accounts.ordered, accounts'.ordered, accounts.count, List.length_append,
      ← List.range'_append_1, Nat.add_right_comm]
  dated completion member := by
    rcases List.mem_append.1 member with member | member
    · exact accounts.dated completion member
    · exact accounts'.dated completion member
  reported := by
    rw [List.filterMap_append, accounts.reported, accounts'.reported, List.map_append]
  cancellations := by
    rw [List.flatMap_append]
    exact accounts.cancellations.trans accounts'.cancellations

theorem accounts_same (completed : ∀ id, after.completed? id = before.completed? id)
    (cancelled : ∀ id, after.cancelled? id = before.cancelled? id)
    (count : after.completions = before.completions)
    (ongoing : ∀ report ∈ reports, report.Ongoing) :
    Accounts tick before after [] reports where
  completions := (Gains.refl Completion.id before.completed?).congr completed
  count := count
  ordered := rfl
  dated _ member := by simp at member
  reported := by
    rw [List.map_nil, List.filterMap_eq_nil_iff]
    exact fun report member => (ongoing report member).1
  cancellations := by
    have nothing : reports.flatMap Report.cancelled = [] :=
      List.flatMap_eq_nil_iff.2 fun report member => (ongoing report member).2
    rw [nothing]
    exact (Gains.refl Cancellation.id before.cancelled?).congr cancelled

theorem accounts_create (tick : Tick) (table : FlowTable σ) (recipe : Recipe σ)
    (caller : Option Address) (isDependency : Bool) (tick' : Tick) :
    Accounts tick table (table.create recipe caller isDependency tick').2 [] [] := by
  refine accounts_same (fun id => completed?_create ..) (fun (id : Nat) => ?_) rfl (by simp)
  unfold cancelled?
  rw [find?_create]
  by_cases new : id = table.phases.size + 1
  · rw [if_pos new, find?_eq_none_of_size_lt (by omega)]
  · rw [if_neg new]

theorem accounts_put_active (found : before.find? id = some (.active old)) (flow : Flow σ)
    (ongoing : ∀ report ∈ reports, report.Ongoing) :
    Accounts tick before (before.put id (some (.active flow))) [] reports :=
  accounts_same (completed?_put found (by simp))
    (cancelled?_put_live (live?_eq_some.2 (.inl found)) (by simp)) (completions_put ..) ongoing

theorem cancelled?_awaiting (found : before.find? id = some (.active old)) (flow : Flow σ)
    (request : Request σ) (caller : Address) (tick : Tick) (other : Nat) :
    (before.awaiting id flow request caller tick).cancelled? other = before.cancelled? other := by
  unfold cancelled?
  rcases awaiting_cases found flow request caller tick other with
    ⟨rfl, wait, here⟩ | ⟨-, same⟩ | ⟨absent, recipe, new⟩
  · rw [here, found]
  · rw [same]
  · rw [absent, new]

theorem named_awaiting (named : before.Named) (found : before.find? id = some (.active old))
    (self : flow.id = id) (request : Request σ) (caller : Address) (tick : Tick) :
    (before.awaiting id flow request caller tick).Named := by
  intro (other : Nat) flow' live
  rcases awaiting_cases found flow request caller tick other with
    ⟨rfl, wait, here⟩ | ⟨-, same⟩ | ⟨absent, recipe, new⟩
  · obtain rfl : flow = flow' := by simpa [live?, here] using live
    exact self
  · exact named other flow' (by simpa only [live?, same] using live)
  · obtain rfl : Flow.ofRecipe other recipe (some caller) request.isDependency tick = flow' := by
      simpa [live?, new] using live
    rfl

theorem accounts_waiting (named : before.Named) (unsettled : before.Unsettled)
    (found : before.find? id = some (.active old)) (self : flow.id = id) {request : Request σ}
    {caller : Address} {cancelled : List Cancellation}
    (resolved : resolve tick (before.awaiting id flow request caller tick) = .ok cancelled after)
    (ongoing : ∀ report ∈ reports, report.Ongoing) : Accounts tick before after [] reports := by
  obtain ⟨settled, -⟩ := resolve_ok resolved
  have gains := gains_resolve (named_awaiting named found self request caller tick) resolved
  rw [resolve_awaiting unsettled found resolved] at gains
  refine accounts_same (fun other => ?_) (fun other => ?_) ?_ ongoing
  · rw [settled.completed? other]
    exact completed?_awaiting found flow request caller tick other
  · exact (gains.same other).trans (cancelled?_awaiting found flow request caller tick other)
  · exact settled.completions.trans (completions_awaiting ..)

theorem named_completing (named : before.Named) (found : before.find? id = some (.active old))
    (completion : Completion) : (before.completing id completion).Named := by
  intro (other : Nat) flow' live
  unfold live? at live
  rw [find?_completing found] at live
  by_cases same : other = id
  · simp [same] at live
  · rw [if_neg same] at live
    exact named other flow' live

theorem accounts_completed (named : before.Named) (found : before.find? id = some (.active old))
    (completion : Completion) (self : completion.id = id) (dated : completion.completedAt = tick)
    (last : completion.order = before.completions + 1) {cancelled : List Cancellation}
    (resolved : resolve tick (before.completing id completion) = .ok cancelled after) :
    Accounts tick before after [completion]
      [.constructed completion.id completion.name completion.value cancelled] := by
  subst self
  obtain ⟨settled, -⟩ := resolve_ok resolved
  have gains := gains_resolve (named_completing named found completion) resolved
  have still (other : FlowId) :
      (before.completing completion.id completion).cancelled? other = before.cancelled? other :=
    cancelled?_put_live (live?_eq_some.2 (.inl found)) (by simp) other
  rw [funext still] at gains
  constructor
  case completions =>
    refine (Gains.single (a := completion) ?_ fun other => ?_).congr settled.completed?
    · simp [completed?, found]
    · by_cases same : other = completion.id
      · simp only [completed?, find?_completing found, if_pos same]
      · rw [completed?_completing found completion same, if_neg same]
  case count => exact settled.completions
  case ordered => simp [last]
  case dated => simpa using dated
  case reported => rfl
  case cancellations => simpa [Report.cancelled] using gains

end FlowTable

namespace Stage

open Engine

variable {σ : Type}

theorem route_ongoing (effects : EffectTable) (tick : Tick) (responses : List Response) :
    Triple (fun _ => True) (route (σ := σ) effects tick responses)
      (fun report? _ => ∀ report ∈ report?.toList, report.Ongoing) (fun _ _ => True) := by
  intro stage _
  unfold route
  by_cases silent : responses.isEmpty = true
  · rw [if_pos silent]
    simp
  · rw [if_neg silent]
    cases effects.isInternal stage.heap responses with
    | error e => trivial
    | ok internal =>
        cases internal with
        | true => simp
        | false => simpa using Report.ongoing_yielded ..

theorem drive_ongoing [Coroutine σ] (effects : EffectTable) (tick : Tick) (limit steps : Nat)
    (pending : List Response) {surfaced : List Report}
    (ongoing : ∀ report ∈ surfaced, report.Ongoing) :
    Triple (fun _ => True) (drive (σ := σ) effects tick limit steps pending surfaced)
      (fun result _ => ∀ report ∈ result.1, report.Ongoing) (fun _ _ => True) := by
  have anyhow {α : Type} (operation : Engine (Stage σ) α) :
      Triple (fun _ => True) operation (fun _ _ => True) (fun _ _ => True) := by
    intro stage _
    split <;> trivial
  induction steps generalizing pending surfaced with
  | zero => exact Triple.get fun _ _ => Triple.throw fun _ _ => trivial
  | succ steps ih =>
      refine Triple.get fun first _ => ((anyhow _).weaken fun _ _ => trivial).bind fun outcome => ?_
      refine Triple.bind_ite _ (anyhow _) fun edge => ?_
      refine (route_ongoing effects tick _).bind fun report? => ?_
      intro stage reported
      have ongoing' : ∀ report ∈ report?.toList ++ surfaced, report.Ongoing := fun report member =>
        (List.mem_append.1 member).elim (reported report) (ongoing report)
      cases outcome.boundary with
      | none => exact ih [] ongoing' stage trivial
      | some boundary => exact fun report member => ongoing' report (List.mem_reverse.1 member)

theorem run_ongoing [Coroutine σ] (effects : EffectTable) (tick : Tick) (limit : Nat)
    {stage after : Stage σ} {reports : List Report} {boundary : Boundary σ}
    (ran : run effects tick limit stage = .ok (reports, boundary) after) :
    ∀ report ∈ reports, report.Ongoing := by
  obtain ⟨pending, middle, -, driven⟩ := bind_ok.1 ran
  have nothing : ∀ report ∈ ([] : List Report), report.Ongoing := by simp
  have ongoing := drive_ongoing effects tick limit limit pending nothing middle trivial
  rwa [driven] at ongoing

end Stage

theorem Contract.Orders.named {σ : Type} [Coroutine σ] {contract : Contract σ} {heap : Heap}
    {lineage : Lineage} {table : FlowTable σ} (orders : contract.Orders heap lineage table) :
    table.Named := by
  intro id flow live
  rcases FlowTable.live?_eq_some.1 live with found | ⟨wait, found⟩
  · exact (orders.admits id _ found).named
  · exact (orders.admits id _ found).named

namespace Simulation

open Contract FlowTable Engine

variable {σ : Type} [Coroutine σ]

/-- As `process.conclude`, with an alarm if a flow that begins to wait has had others cancelled. -/
def guardedConclude (alarm : EngineError) (id : FlowId) (tick : Tick) (name : String)
    (reports : List Report) : Boundary σ → Engine (Simulation σ) (List Report)
  | .await request caller => do
    let cancelled ← await id request caller tick
    if cancelled.isEmpty then return reports else throw alarm
  | boundary => process.conclude id tick name reports boundary

def guardedProcess (alarm : EngineError) (id : FlowId) (tick : Tick) :
    Engine (Simulation σ) (List Report) :=
  fun sim =>
    match sim.flows.active? id with
    | none => .error (.notActive id) sim
    | some flow =>
      match Stage.run sim.effects tick sim.limits.steps
          ⟨flow, sim.heap, sim.replay, sim.journal⟩ with
      | .error e stage => .error e (sim.commit stage)
      | .ok (reports, boundary) stage =>
        guardedConclude alarm id tick flow.name reports boundary (sim.commit stage)

def guarded (alarm : EngineError) : Probe σ (Simulation σ) where
  sim sim := sim
  change change sim := change sim
  stepTasks := stepTasks
  process := guardedProcess alarm

variable {contract : Contract σ} {sim : Simulation σ} {lineage : Lineage} {id : Nat} {tick : Tick}
  {flow : Flow σ}

omit [Coroutine σ] in
theorem guardedConclude_await (alarm : EngineError) (name : String) (reports : List Report)
    (request : Request σ) (caller : Address) :
    guardedConclude alarm id tick name reports (.await request caller) sim =
      match await id request caller tick sim with
      | .ok cancelled after => if cancelled.isEmpty then .ok reports after else .error alarm after
      | .error e after => .error e after := by
  show EStateM.bind (await id request caller tick) _ sim = _
  unfold EStateM.bind
  cases await id request caller tick sim with
  | ok cancelled after =>
      simp only
      by_cases silent : cancelled.isEmpty = true
      · simp only [if_pos silent]
        rfl
      · simp only [if_neg silent]
        rfl
  | error e after => rfl

theorem process_reports (holds : contract.Holds ⟨sim, lineage⟩)
    (found : sim.flows.find? id = some (.active flow)) (alarm : EngineError) (tick : Tick) :
    guardedProcess alarm id tick sim = process id tick sim ∧
      match process id tick sim with
      | .ok reports after => ∃ done, Accounts tick sim.flows after.flows done reports
      | .error _ _ => True := by
  have named := holds.orders.named
  have active : contract.Active sim.heap id flow := holds.orders.admits id _ found
  have ran := Stage.run_spec (contract.steady_kin tick flow)
    ⟨flow, sim.heap, sim.replay, sim.journal⟩ sim.effects sim.limits.steps holds.heap active
    ⟨rfl, rfl, rfl, rfl⟩ _ rfl
  simp only [guardedProcess, process, active?_eq_some.2 found]
  cases stopped : Stage.run sim.effects tick sim.limits.steps
      ⟨flow, sim.heap, sim.replay, sim.journal⟩ with
  | error e stage => exact ⟨rfl, trivial⟩
  | ok result stage =>
      rw [stopped] at ran
      obtain ⟨reports, boundary⟩ := result
      obtain ⟨drives, kin⟩ := ran
      have ongoing := Stage.run_ongoing _ _ _ stopped
      cases boundary with
      | halt =>
          refine ⟨rfl, [], ?_⟩
          rw [sim.commit_flows drives.named]
          exact accounts_put_active found stage.flow ongoing
      | await request caller =>
          simp only [guardedConclude_await, conclude_await]
          cases check : request.strategy.check id request.recipes.length with
          | error e =>
              simp only [await, check]
              exact ⟨trivial, trivial⟩
          | ok =>
              obtain ⟨cancelled, flows, done, resolved, -⟩ := await_ok holds found drives check tick
              -- No race was about to be settled, and so the new wait cancels nothing.
              obtain rfl := resolve_awaiting holds.unsettled found resolved
              simp only [done]
              refine ⟨rfl, [], ?_⟩
              exact accounts_waiting named holds.unsettled found drives.named resolved ongoing
      | complete value last =>
          obtain ⟨cancelled, flows, done, resolved, -⟩ := complete_ok holds found drives tick
          rw [kin.name] at resolved
          simp only [guardedConclude, conclude_complete, done]
          have completed := accounts_completed named found ⟨id, flow.name, value, last,
            stage.flow.spawnedAt, tick, sim.flows.completions + 1⟩ rfl rfl rfl resolved
          have yielded : Accounts tick sim.flows sim.flows [] reports :=
            accounts_same (fun _ => rfl) (fun _ => rfl) rfl ongoing
          exact ⟨trivial, _, yielded.trans completed⟩

omit [Coroutine σ] in
theorem stepTasks_accounts (tick : Tick) {table : FlowTable σ} {done : List Completion}
    {reports : List Report} {start : Tick} (ids : List TaskId)
    (accounts : Accounts start table sim.flows done reports) :
    match stepTasks tick ids sim with
    | .ok _ after | .error _ after => Accounts start table after.flows done reports := by
  induction ids generalizing sim with
  | nil => exact accounts
  | cons id ids ih =>
      have unfolded : stepTasks tick (id :: ids) sim =
          EStateM.bind (stepTasks.stepTask tick id) (fun _ => stepTasks tick ids) sim := rfl
      rw [unfolded]
      unfold EStateM.bind stepTasks.stepTask
      cases ticked : TaskTable.tick id sim.tasks with
      | error e tasks => exact accounts
      | ok recipe? tasks =>
          cases recipe? with
          | none => exact ih accounts
          | some recipe =>
              refine ih ?_
              simpa using accounts.trans (accounts_create start sim.flows recipe none false tick)

def Reported (contract : Contract σ) (start : Simulation σ) (reports : List Report)
    (sim : Simulation σ) : Prop :=
  contract.Kept sim ∧ ∃ done, Accounts start.now start.flows sim.flows done reports

theorem guarded_faithful (contract : Contract σ) (start : Simulation σ) (alarm : EngineError) :
    (guarded alarm).Faithful start.now (Reported contract start) fun _ _ => True where
  change _ _ := rfl
  tasks reports covered state reported := by
    refine Triple.mimics ?_
    rintro sim rfl
    obtain ⟨kept, done, accounts⟩ := reported
    obtain ⟨after, stepped, kept'⟩ := pendingTasks_ok kept covered start.now
    have accounts' := stepTasks_accounts start.now (sim.pendingTasks covered) accounts
    rw [stepped] at accounts'
    simp only [guarded, stepped]
    exact ⟨kept', done, accounts'⟩
  process reports id := by
    rintro sim ⟨⟨⟨lineage, holds⟩, done, accounts⟩, flow, found⟩
    obtain ⟨same, reported⟩ := process_reports holds found alarm start.now
    have kept := process_kept id start.now sim ⟨⟨lineage, holds⟩, flow, found⟩
    simp only [guarded, same]
    cases processed : process id start.now sim with
    | ok fresh after =>
        rw [processed] at reported kept
        obtain ⟨later, accounts'⟩ := reported
        exact ⟨rfl, kept, _, accounts.trans accounts'⟩
    | error e after => exact ⟨rfl, trivial⟩
  stop _ _ _ _ := trivial

theorem tick_reports (kept : contract.Kept sim) (alarm : EngineError) :
    (guarded alarm).tick sim = Simulation.tick sim ∧
      match Simulation.tick sim with
      | .ok report after =>
        ∃ done, Accounts sim.now sim.flows after.flows done report.reports
      | .error _ _ => True := by
  have begun : Reported contract sim [] { sim with journal := [] } := by
    refine ⟨kept.unjournaled, [], ?_⟩
    exact accounts_same (fun _ => rfl) (fun _ => rfl) rfl (by simp)
  have ticked := (guarded_faithful contract sim alarm).tick
    (fun reports after => ∃ done, Accounts sim.now sim.flows after.flows done reports) begun
    (fun _ _ reported => reported.2) sim rfl
  cases done : (guarded alarm).tick sim with
  | ok report after =>
      rw [done] at ticked
      obtain ⟨same, -, reported⟩ := ticked
      have same : Simulation.tick sim = .ok report after := same
      rw [same]
      exact ⟨rfl, reported⟩
  | error e after =>
      rw [done] at ticked
      have same : Simulation.tick sim = .error e after := ticked.1
      rw [same]
      exact ⟨rfl, trivial⟩

/--
In every session, a tick that succeeds reports exactly the flows that it has completed and the flows
that it has cancelled, and in no tick does a flow that begins to wait have others cancelled.
-/
theorem ticks_report_exactly (limits : Limits) (operations : List (Simulation.Operation σ)) :
    (∀ alarm, (guarded alarm).tick (session limits operations) =
        Simulation.tick (session limits operations)) ∧
      ∀ report after, Simulation.tick (session limits operations) = .ok report after →
        ∃ done, Accounts (session limits operations).now (session limits operations).flows
          after.flows done report.reports := by
  have kept := session_kept limits operations
  refine ⟨fun alarm => (tick_reports kept alarm).1, fun report after done => ?_⟩
  have reported := (tick_reports kept (.notActive 0)).2
  rwa [done] at reported

def raceBeforeFinish : List (Simulation.Operation Playback) :=
  let here : Address := ⟨"2b2a14d215455d3ce50cfc5c2ae1d125_1", 0⟩
  let worker : List PlaybackMove := [.load here [] false, .halt here 1 1, .unload here (.int 7)]
  let calls := [("left", [], worker), ("right", [], worker)]
  let main : List PlaybackMove :=
    [.load here [] false, .await here .race true calls, .unload here .null]
  [.register { className := "Worker", fields := [] },
    .spawn (Playback.recipe "main" [] main), .tick]

theorem finish_is_reported_exactly : ∃ report after,
    Simulation.tick (session {} raceBeforeFinish) = .ok report after ∧
      (report.reports.filterMap Report.completed?).map Prod.fst = [2, 1] ∧
      (report.reports.flatMap Report.cancelled).map Cancellation.id = [3] ∧
      ∃ done, Accounts (session {} raceBeforeFinish).now (session {} raceBeforeFinish).flows
        after.flows done report.reports := by
  have told : (match Simulation.tick (session {} raceBeforeFinish) with
      | .ok report _ => ((report.reports.filterMap Report.completed?).map Prod.fst,
          (report.reports.flatMap Report.cancelled).map Cancellation.id)
      | .error _ _ => ([], [])) = ([2, 1], [3]) := by decide +kernel
  cases ticked : Simulation.tick (session {} raceBeforeFinish) with
  | error e after =>
      rw [ticked] at told
      cases told
  | ok report after =>
      rw [ticked] at told
      obtain ⟨completed, cancelled⟩ := Prod.mk.inj told
      exact ⟨report, after, rfl, completed, cancelled,
        (ticks_report_exactly {} raceBeforeFinish).2 report after ticked⟩

end Simulation

end Cadence
