import Cadence.Proofs.Flow.Exchange
import Cadence.Proofs.Simulation.Probe
/-!
The log of a session since it was last reset: which flows were started, and all exchanges between
the engine and their coroutines, in their order. It tells what is due to each coroutine.
-/

namespace Cadence

variable {σ : Type}

/-- An exchange, with the flow that handed over the input, as it stood before. -/
structure Handover (σ : Type) extends Exchange σ where
  giver : Flow σ

inductive LogEntry (σ : Type) where
  | started (flow : FlowId) (recipe : Recipe σ)
  | exchanged (handover : Handover σ) (wait? : Option Wait)

namespace LogEntry

def flow : LogEntry σ → FlowId
  | started flow _ => flow
  | exchanged handover _ => handover.flow

def start? : LogEntry σ → Option FlowId
  | started flow _ => some flow
  | exchanged _ _ => none

def exchange? : LogEntry σ → Option (Exchange σ)
  | started _ _ => none
  | exchanged handover _ => some handover.toExchange

def completion? : LogEntry σ → Option (FlowId × Json)
  | started _ _ => none
  | exchanged handover _ =>
    match handover.answer with
    | .ok (.complete value) => some (handover.flow, value)
    | _ => none

end LogEntry

def Request.wait (request : Request σ) (caller : Address) (size : Nat) (tick : Tick) : Wait where
  strategy := request.strategy
  caller := caller
  isDependency := request.isDependency
  dependencies := List.range' (size + 1) request.recipes.length
  submittedAt := tick

namespace Log

def begun (size : Nat) (recipes : List (Recipe σ)) : List (LogEntry σ) :=
  List.zipWith .started (List.range' (size + 1) recipes.length) recipes

def completions (log : List (LogEntry σ)) : List (FlowId × Json) :=
  log.filterMap LogEntry.completion?

def latest? (log : List (LogEntry σ)) (id : FlowId) : Option (LogEntry σ) :=
  (log.filter fun event => event.flow = id).getLast?

/-- What is due to a flow: the arguments of its recipe, or the answer to its last command. -/
def due? [Coroutine σ] (log : List (LogEntry σ)) (id : FlowId) : Option (Due σ) :=
  match latest? log id with
  | none => none
  | some (.started _ recipe) => some ⟨recipe.start, none, .params recipe.args⟩
  | some (.exchanged handover wait?) =>
    match handover.answer with
    | .ok (.yielded command) =>
      (command.action.reply? (completions log) wait?).map fun input =>
        ⟨(Coroutine.resume handover.state handover.input).2, some command.address, input⟩
    | _ => none

/-- What is handed over is what is due, from where it is due and to the coroutine as it was left. -/
def Expects [Coroutine σ] (log : List (LogEntry σ)) (handover : Handover σ) : Prop :=
  ∃ due, due? log handover.flow = some due ∧ handover.giver.Provides due ∧
    handover.toExchange =
      ⟨handover.flow, due.state, due.input, (Coroutine.resume due.state due.input).1⟩

def InOrder [Coroutine σ] (log : List (LogEntry σ)) : Prop :=
  ∀ past handover wait? rest, log = past ++ .exchanged handover wait? :: rest →
    Expects past handover

def Afresh (log : List (LogEntry σ)) : Prop :=
  ∀ past handover wait? rest args, log = past ++ .exchanged handover wait? :: rest →
    handover.input = .params args → ∀ event ∈ past, event.flow = handover.flow →
      ∃ recipe, event = .started handover.flow recipe

/-- The waits on record are for flows that were started as the coroutine asked. -/
def Asked (log : List (LogEntry σ)) : Prop :=
  ∀ handover wait, .exchanged handover (some wait) ∈ log → ∃ request,
    handover.answer = .ok (.yielded ⟨wait.caller, .await request⟩) ∧
      wait.strategy = request.strategy ∧
      List.Forall₂ (fun id recipe => .started id recipe ∈ log) wait.dependencies request.recipes

structure Disciplined [Coroutine σ] (log : List (LogEntry σ)) : Prop where
  due : InOrder log
  afresh : Afresh log
  once : (log.filterMap LogEntry.start?).Nodup
  asked : Asked log

end Log

/-! ## Replies -/

theorem Wait.value?_append {finished : List (FlowId × Json)} {wait : Wait} {value : Json}
    (known : wait.value? finished = some value) (more : List (FlowId × Json)) :
    wait.value? (finished ++ more) = some value := by
  unfold value? at known ⊢
  cases kind : wait.strategy with
  | single =>
      simp only [kind] at known ⊢
      obtain ⟨id, first, found⟩ := Option.bind_eq_some_iff.1 known
      simp [first, List.lookup_append, found]
  | all =>
      simp only [kind] at known ⊢
      obtain ⟨values, collected, rfl⟩ := Option.map_eq_some_iff.1 known
      rw [FlowTable.mapM_eq_some] at collected
      refine Option.map_eq_some_iff.2 ⟨values, FlowTable.mapM_eq_some.2 ?_, rfl⟩
      exact collected.imp fun id value found => by simp [List.lookup_append, found]
  | race =>
      simp only [kind] at known ⊢
      obtain ⟨winner, first, rfl⟩ := Option.map_eq_some_iff.1 known
      simp [List.find?_append, first]

theorem Wait.satisfiedBy_of_value? {finished : List (FlowId × Json)} {wait : Wait} {id : FlowId}
    (shapely : wait.strategy.check id wait.dependencies.length = .ok ()) {value : Json}
    (known : wait.value? finished = some value) : wait.SatisfiedBy finished := by
  have finishes {id : FlowId} {value : Json} (found : finished.lookup id = some value) :
      id ∈ finished.map Prod.fst := by
    obtain ⟨front, back, rfl, -⟩ := List.lookup_eq_some_iff.1 found
    simp
  unfold value? at known
  unfold SatisfiedBy Satisfied
  cases kind : wait.strategy with
  | single =>
      simp only [kind] at known ⊢
      obtain ⟨only, single⟩ : ∃ only, wait.dependencies = [only] := by
        rw [← List.length_eq_one_iff]
        simpa [kind, Strategy.check] using shapely
      rw [single] at known
      exact ⟨only, single, finishes known⟩
  | all =>
      simp only [kind] at known ⊢
      obtain ⟨values, collected, -⟩ := Option.map_eq_some_iff.1 known
      have each := (FlowTable.mapM_eq_some.1 collected).imp fun _ _ found =>
        And.intro (finishes found) found
      exact ((List.forall₂_and_left _ _).1 each).1
  | race =>
      simp only [kind] at known ⊢
      obtain ⟨winner, first, -⟩ := Option.map_eq_some_iff.1 known
      have awaited : winner.1 ∈ wait.dependencies := by simpa using List.find?_some first
      exact ⟨winner.1, awaited, List.mem_map_of_mem (List.mem_of_find?_eq_some first)⟩

namespace Action

variable {action : Action σ} {finished : List (FlowId × Json)} {wait? : Option Wait} {input : Input}

theorem reply?_append (known : action.reply? finished wait? = some input)
    (more : List (FlowId × Json)) : action.reply? (finished ++ more) wait? = some input := by
  cases action with
  | await request =>
      obtain ⟨wait, waits, found⟩ := Option.bind_eq_some_iff.1 known
      obtain ⟨value, resolved, rfl⟩ := Option.map_eq_some_iff.1 found
      exact Option.bind_eq_some_iff.2 ⟨wait, waits, by rw [Wait.value?_append resolved]; rfl⟩
  | _ => exact known

theorem reply?_of_plain (plain : action.reply? [] none = some input) :
    action.reply? finished wait? = some input := by
  cases action with
  | await request => cases plain
  | _ => exact plain

end Action

namespace Log

variable {log more : List (LogEntry σ)} {event : LogEntry σ} {id : FlowId}

theorem begun_cons (size : Nat) (recipe : Recipe σ) (recipes : List (Recipe σ)) :
    begun size (recipe :: recipes) = .started (size + 1) recipe :: begun (size + 1) recipes := by
  simp [begun, List.range'_succ]

theorem mem_begun {size : Nat} {recipes : List (Recipe σ)} (member : event ∈ begun size recipes) :
    ∃ (id : Nat) (recipe : Recipe σ), size < id ∧ event = .started id recipe := by
  induction recipes generalizing size with
  | nil => simp [begun] at member
  | cons recipe recipes ih =>
      rw [begun_cons] at member
      rcases List.mem_cons.1 member with rfl | member
      · exact ⟨size + 1, recipe, Nat.lt_succ_self _, rfl⟩
      · obtain ⟨id, recipe, beyond, rfl⟩ := ih member
        exact ⟨id, recipe, Nat.lt_of_succ_lt beyond, rfl⟩

theorem forall₂_begun (size : Nat) (recipes : List (Recipe σ)) :
    List.Forall₂ (fun id recipe => .started id recipe ∈ begun size recipes)
      (List.range' (size + 1) recipes.length) recipes := by
  induction recipes generalizing size with
  | nil => exact .nil
  | cons recipe recipes ih =>
      simp only [begun_cons, List.length_cons, List.range'_succ]
      exact .cons (List.mem_cons_self ..)
        ((ih (size + 1)).imp fun _ _ member => List.mem_cons_of_mem _ member)

theorem completions_append (log more : List (LogEntry σ)) :
    completions (log ++ more) = completions log ++ completions more :=
  List.filterMap_append

theorem latest?_append (others : ∀ event ∈ more, event.flow ≠ id) :
    latest? (log ++ more) id = latest? log id := by
  have nothing : (more.filter fun event => event.flow = id) = [] := by
    simpa [List.filter_eq_nil_iff] using others
  rw [latest?, List.filter_append, nothing, List.append_nil, latest?]

theorem latest?_concat (own : event.flow = id) : latest? (log ++ [event]) id = some event := by
  simp [latest?, List.filter_append, own]

variable [Coroutine σ] {due : Due σ} {recipe : Recipe σ} {handover : Handover σ}
  {command : Command σ}  {input : Input} {wait? : Option Wait}

theorem due?_append (known : due? log id = some due) (others : ∀ event ∈ more, event.flow ≠ id) :
    due? (log ++ more) id = some due := by
  unfold due? at known ⊢
  rw [latest?_append others]
  cases last : latest? log id with
  | none => simp [last] at known
  | some event =>
      rw [last] at known
      cases event with
      | started flow recipe => exact known
      | exchanged handover wait? =>
          simp only at known ⊢
          split at known
          next command answer =>
            -- Flows that complete later do not change the reply to a wait that is satisfied.
            obtain ⟨input, replied, rfl⟩ := Option.map_eq_some_iff.1 known
            rw [completions_append, Action.reply?_append replied]
            rfl
          next => cases known

theorem due?_started (log : List (LogEntry σ)) (id : FlowId) (recipe : Recipe σ) :
    due? (log ++ [.started id recipe]) id = some ⟨recipe.start, none, .params recipe.args⟩ := by
  simp only [due?, latest?_concat (show (LogEntry.started id recipe).flow = id from rfl)]

theorem due?_of_latest? (last : latest? log id = some (.exchanged handover wait?))
    (answer : handover.answer = .ok (.yielded command)) :
    due? log id = (command.action.reply? (completions log) wait?).map fun input =>
      ⟨(Coroutine.resume handover.state handover.input).2, some command.address, input⟩ := by
  simp only [due?, last, answer]

end Log

/-! ## Logging a session -/

structure Logged (σ : Type) where
  sim : Simulation σ
  log : List (LogEntry σ)

namespace Logged

def exchangesSince (before after : Simulation σ) : List (Exchange σ) :=
  (after.journal.take (after.journal.length - before.journal.length)).reverse

def eventsOf (before : Simulation σ) (tick : Tick) (handover : Handover σ) : List (LogEntry σ) :=
  match handover.answer with
  | .ok (.yielded ⟨caller, .await request⟩) =>
    .exchanged handover (some (request.wait caller before.flows.phases.size tick)) ::
      Log.begun before.flows.phases.size request.recipes
  | _ => [.exchanged handover none]

def spawnedBy (sim : Simulation σ) (id : TaskId) : List (LogEntry σ) :=
  match TaskTable.tick id sim.tasks with
  | .ok (some recipe) _ => [.started (sim.flows.phases.size + 1) recipe]
  | _ => []

def stepTasks (tick : Tick) : List TaskId → Engine (Logged σ) Unit
  | [] => return ()
  | id :: ids => do
    stepTask id
    stepTasks tick ids
where
  stepTask (id : TaskId) : Engine (Logged σ) Unit := fun logged =>
    match Simulation.stepTasks.stepTask tick id logged.sim with
    | .ok () after => .ok () ⟨after, logged.log ++ spawnedBy logged.sim id⟩
    | .error e after => .error e ⟨after, logged.log⟩

variable [Coroutine σ]

def handoversSince (before after : Simulation σ) (id : FlowId) (tick : Tick) : List (Handover σ) :=
  match before.flows.active? id with
  | none => []
  | some flow =>
    let exchanges := exchangesSince before after
    let start := (before.heap, { flow with resumption := none })
    (exchanges.zip (Flow.course tick start exchanges.length)).map fun (exchange, giver) =>
      { exchange with giver }

def process (id : FlowId) (tick : Tick) : Engine (Logged σ) (List Report) := fun logged =>
  match Simulation.process id tick logged.sim with
  | .ok reports after =>
    .ok reports ⟨after,
      logged.log ++ (handoversSince logged.sim after id tick).flatMap (eventsOf logged.sim tick)⟩
  | .error e after =>
    .error e ⟨after,
      logged.log ++ (handoversSince logged.sim after id tick).map (.exchanged · none)⟩

def probe : Probe σ (Logged σ) where
  sim := sim
  change change logged := { logged with sim := change logged.sim }
  stepTasks := stepTasks
  process := process

end Logged

namespace Simulation.Operation

variable [Coroutine σ]

def note (operation : Simulation.Operation σ) (logged : Logged σ) : Logged σ :=
  match operation with
  | tick => Logged.probe.tick.after logged
  | spawn recipe => ⟨operation.apply logged.sim,
      logged.log ++ [.started (logged.sim.flows.phases.size + 1) recipe]⟩
  | reset | resetStacks => ⟨operation.apply logged.sim, []⟩
  | operation => { logged with sim := operation.apply logged.sim }

end Simulation.Operation

def Logged.session [Coroutine σ] (limits : Limits) (operations : List (Simulation.Operation σ)) :
    Logged σ :=
  operations.foldl (fun logged operation => operation.note logged)
    ⟨Simulation.withLimits limits, []⟩

def Log.ofSession [Coroutine σ] (limits : Limits) (operations : List (Simulation.Operation σ)) :
    List (LogEntry σ) :=
  (Logged.session limits operations).log

theorem Logged.session_concat [Coroutine σ] (limits : Limits)
    (operations : List (Simulation.Operation σ)) (operation : Simulation.Operation σ) :
    session limits (operations ++ [operation]) = operation.note (session limits operations) := by
  rw [session, List.foldl_append]
  rfl

/-! ## Logging changes nothing -/

namespace Logged

open Engine

theorem stepTask_mimics (tick : Tick) (id : TaskId) :
    Mimics (sim (σ := σ)) (fun _ => True) (stepTasks.stepTask tick id)
      (Simulation.stepTasks.stepTask tick id) (fun _ _ => True) fun _ _ => True := by
  intro logged _
  unfold stepTasks.stepTask
  cases done : Simulation.stepTasks.stepTask tick id logged.sim with
  | ok result after => exact ⟨rfl, trivial⟩
  | error e after => exact ⟨rfl, trivial⟩

theorem stepTasks_mimics (tick : Tick) (ids : List TaskId) :
    Mimics (sim (σ := σ)) (fun _ => True) (stepTasks tick ids) (Simulation.stepTasks tick ids)
      (fun _ _ => True) fun _ _ => True := by
  induction ids with
  | nil => exact Mimics.pure fun _ _ => trivial
  | cons id ids ih => exact (stepTask_mimics tick id).bind fun _ => ih

variable [Coroutine σ]

theorem process_mimics (id : FlowId) (tick : Tick) :
    Mimics (sim (σ := σ)) (fun _ => True) (process id tick) (Simulation.process id tick)
      (fun _ _ => True) fun _ _ => True := by
  intro logged _
  unfold process
  cases done : Simulation.process id tick logged.sim with
  | ok reports after => exact ⟨rfl, trivial⟩
  | error e after => exact ⟨rfl, trivial⟩

theorem faithful (tick : Tick) :
    (probe (σ := σ)).Faithful tick (fun _ _ => True) fun _ _ => True where
  change _ _ := rfl
  tasks _ _ _ _ := (stepTasks_mimics tick _).weaken fun _ _ => trivial
  process _ id := (process_mimics id tick).weaken fun _ _ => trivial
  stop _ _ _ _ := trivial

theorem faithful_keeping (contract : Contract σ) (tick : Tick) {keeps : Logged σ → Prop}
    {fails : EngineError → Logged σ → Prop}
    (task : ∀ id, Triple keeps (stepTasks.stepTask tick id) (fun _ => keeps) fun _ _ => True)
    (turn : ∀ id, Triple (fun logged => (contract.Kept logged.sim ∧ keeps logged) ∧
        ∃ flow : Flow σ, logged.sim.flows.find? id = some (.active flow))
      (process id tick) (fun _ => keeps) fails)
    (stop : ∀ rounds logged, keeps logged → fails (.tickBudgetExceeded tick rounds) logged) :
    (probe (σ := σ)).Faithful tick (fun _ logged => contract.Kept logged.sim ∧ keeps logged)
      fails where
  change _ _ := rfl
  tasks reports covered state known := by
    rintro logged rfl
    obtain ⟨known, kept⟩ := known
    -- The tasks can be stepped without a log, and the log only follows them.
    obtain ⟨after, stepped, known'⟩ := Simulation.pendingTasks_ok known covered tick
    have all (ids : List TaskId) :
        Triple keeps (stepTasks tick ids) (fun _ => keeps) fun _ _ => True := by
      induction ids with
      | nil => exact Triple.pure fun _ kept => kept
      | cons id ids ih => exact (task id).bind fun _ => ih
    have mimicked := (stepTasks_mimics tick (logged.sim.pendingTasks covered)).and_triple
      (all (logged.sim.pendingTasks covered)) logged kept
    simp only [probe]
    cases done : stepTasks tick (logged.sim.pendingTasks covered) logged with
    | ok result after' =>
        rw [done, stepped] at mimicked
        obtain ⟨same, kept'⟩ := mimicked
        obtain rfl : after = after'.sim := by injection same
        exact ⟨stepped, known', kept'⟩
    | error e after' =>
        rw [done, stepped] at mimicked
        cases mimicked.1
  process reports id := by
    refine ((process_mimics id tick).and_triple ?_)
    rintro logged ⟨known, active⟩
    have same := process_mimics id tick logged trivial
    have kept := Simulation.process_kept id tick logged.sim ⟨known.1, active⟩
    have kept' := turn id logged ⟨known, active⟩
    cases done : process id tick logged with
    | ok reports after =>
        rw [done] at same kept'
        rw [same.1] at kept
        exact ⟨kept, kept'⟩
    | error e after =>
        rw [done] at kept'
        exact kept'
  stop _ rounds logged known := stop rounds logged known.2

theorem sim_note (operation : Simulation.Operation σ) (logged : Logged σ) :
    (operation.note logged).sim = operation.apply logged.sim := by
  cases operation with
  | tick =>
      have ticked := (faithful logged.sim.now).tick (fun _ _ => True) trivial (fun _ _ _ => trivial)
        logged rfl
      simp only [Simulation.Operation.note, Simulation.Operation.apply, Engine.after]
      cases done : probe.tick logged with
      | ok report after =>
          rw [done] at ticked
          have same : Simulation.tick logged.sim = .ok report after.sim := ticked.1
          rw [same]
      | error e after =>
          rw [done] at ticked
          have same : Simulation.tick logged.sim = .error e after.sim := ticked.1
          rw [same]
  | _ => rfl

theorem sim_session (limits : Limits) (operations : List (Simulation.Operation σ)) :
    (session limits operations).sim = Simulation.session limits operations := by
  have each (operation : Simulation.Operation σ) (logged : Logged σ) (_ : True) :
      (operation.note logged).sim = operation.apply logged.sim ∧ True :=
    ⟨sim_note operation logged, trivial⟩
  exact (Simulation.foldl_beside each operations trivial).1

/-! ## Nothing is missing -/

section Complete

open Contract

variable {before after sim : Simulation σ} {contract : Contract σ} {tick : Tick} {id : Nat}
  {past : List (LogEntry σ)} {flow : Flow σ}

omit [Coroutine σ] in
theorem exchangesSince_eq {turn : List (Exchange σ)}
    (journal : after.journal = turn.reverse ++ before.journal) :
    exchangesSince before after = turn := by
  simp [exchangesSince, journal]

theorem exchanges_handoversSince (found : before.flows.find? id = some (.active flow))
    (after : Simulation σ) (tick : Tick) :
    (handoversSince before after id tick).map Handover.toExchange =
      exchangesSince before after := by
  simp only [handoversSince, FlowTable.active?_eq_some.2 found, List.map_map]
  exact List.map_fst_zip (Nat.le_of_eq (Flow.length_course ..).symm)

omit [Coroutine σ] in
theorem exchanges_eventsOf (before : Simulation σ) (tick : Tick) (handover : Handover σ) :
    (eventsOf before tick handover).filterMap LogEntry.exchange? = [handover.toExchange] := by
  unfold eventsOf
  split
  next caller request answer =>
    have nothing : (Log.begun before.flows.phases.size request.recipes).filterMap
        LogEntry.exchange? = [] := by
      refine List.filterMap_eq_nil_iff.2 fun event member => ?_
      obtain ⟨id, recipe, -, rfl⟩ := Log.mem_begun member
      rfl
    simp [LogEntry.exchange?, nothing]
  next => rfl

theorem process_journal (kept : contract.Kept sim)
    (found : sim.flows.find? id = some (.active flow)) (tick : Tick) :
    match Simulation.process id tick sim with
    | .ok _ after | .error _ after => ∃ turn, after.journal = turn ++ sim.journal := by
  obtain ⟨lineage, holds⟩ := kept
  have steady : contract.Steady tick fun _ _ journal => ∃ turn, journal = turn ++ sim.journal := by
    rintro memory flow _ _ _ _ ⟨turn, rfl⟩
    rw [← List.append_assoc]
    split <;> exact ⟨_, rfl⟩
  have turned := Simulation.process_turn holds found steady ⟨[], rfl⟩
  cases done : Simulation.process id tick sim with
  | ok reports after =>
      rw [done] at turned
      obtain ⟨turned, -⟩ := turned
      generalize after.flows = flows at turned
      cases turned with
      | halted _ kept => exact kept
      | waiting _ kept => exact kept
      | completed _ kept => exact kept
  | error e after =>
      rw [done] at turned
      obtain ⟨turned, -⟩ := turned
      generalize after.flows = flows at turned
      cases turned with
      | stopped _ kept => exact kept
      | refused _ kept => exact kept

def Records (past : List (LogEntry σ)) (logged : Logged σ) : Prop :=
  ∃ more, logged.log = past ++ more ∧
    more.filterMap LogEntry.exchange? = logged.sim.journal.reverse

omit [Coroutine σ] in
theorem stepTask_records (past : List (LogEntry σ)) (tick : Tick) (id : TaskId) :
    Triple (Records past) (stepTasks.stepTask tick id) (fun _ => Records past) fun _ _ => True := by
  rintro ⟨sim, log⟩ ⟨more, rfl, recorded⟩
  unfold stepTasks.stepTask Simulation.stepTasks.stepTask spawnedBy
  cases ticked : TaskTable.tick id sim.tasks with
  | error e tasks => trivial
  | ok recipe? tasks =>
      cases recipe? with
      | none => exact ⟨_, List.append_assoc .., by simpa using recorded⟩
      | some recipe => exact ⟨_, List.append_assoc .., by
          simpa [List.filterMap_cons, LogEntry.exchange?] using recorded⟩

omit [Coroutine σ] in
theorem Records.add {log added : List (LogEntry σ)} (records : Records past ⟨sim, log⟩)
    {turn : List (Exchange σ)} (journal : after.journal = turn ++ sim.journal)
    (adds : added.filterMap LogEntry.exchange? = turn.reverse) :
    Records past ⟨after, log ++ added⟩ := by
  obtain ⟨more, rfl, recorded⟩ := records
  refine ⟨more ++ added, List.append_assoc .., ?_⟩
  rw [List.filterMap_append, recorded, adds]
  show sim.journal.reverse ++ turn.reverse = after.journal.reverse
  rw [journal, List.reverse_append]

theorem process_records (past : List (LogEntry σ)) (id : Nat) (tick : Tick) :
    Triple (fun logged => ((Contract.any σ).Kept logged.sim ∧ Records past logged) ∧
        ∃ flow : Flow σ, logged.sim.flows.find? id = some (.active flow))
      (process id tick) (fun _ => Records past) (fun _ => Records past) := by
  rintro ⟨sim, log⟩ ⟨⟨kept, records⟩, flow, found⟩
  have journal := process_journal kept found tick
  have handed {after : Simulation σ} {turn : List (Exchange σ)}
      (grown : after.journal = turn ++ sim.journal) :
      (handoversSince sim after id tick).map Handover.toExchange = turn.reverse := by
    rw [exchanges_handoversSince found, exchangesSince_eq (by rw [List.reverse_reverse, grown])]
  unfold process
  cases done : Simulation.process id tick sim with
  | ok reports after =>
      rw [done] at journal
      obtain ⟨turn, grown⟩ := journal
      refine records.add grown ?_
      rw [List.filterMap_flatMap, ← handed grown]
      simp only [exchanges_eventsOf]
      exact List.flatMap_pure_eq_map ..
  | error e after =>
      rw [done] at journal
      obtain ⟨turn, grown⟩ := journal
      refine records.add grown ?_
      rw [List.filterMap_map, ← handed grown]
      exact congrFun List.filterMap_eq_map' _

theorem tick_records (logged : Logged σ) (kept : (Contract.any σ).Kept logged.sim) :
    Records logged.log (probe.tick.after logged) := by
  have begun : Records logged.log
      (probe.change (fun sim => { sim with journal := [] }) logged) :=
    ⟨[], (List.append_nil _).symm, rfl⟩
  have ticked := (faithful_keeping (Contract.any σ) logged.sim.now
    (stepTask_records logged.log _) (process_records logged.log · _)
    fun _ _ recorded => recorded).tick (fun _ => Records logged.log) ⟨kept.unjournaled, begun⟩
      (fun _ _ kept => kept.2) logged rfl
  unfold Engine.after
  cases done : probe.tick logged with
  | ok report after =>
      rw [done] at ticked
      exact ticked.2.2
  | error e after =>
      rw [done] at ticked
      exact ticked.2

theorem session_records (limits : Limits) (operations : List (Simulation.Operation σ)) :
    ∃ more, Log.ofSession limits (operations ++ [.tick]) = Log.ofSession limits operations ++ more ∧
      more.filterMap LogEntry.exchange? =
        (Simulation.session limits (operations ++ [.tick])).journal.reverse := by
  have kept : (Contract.any σ).Kept (session limits operations).sim := by
    rw [sim_session]
    exact Simulation.session_kept limits operations
  rw [← sim_session, Log.ofSession, session_concat]
  exact tick_records _ kept

end Complete

end Logged

end Cadence
