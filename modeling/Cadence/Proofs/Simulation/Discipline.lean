import Cadence.Proofs.Simulation.Evidence
import Mathlib.Data.List.Induction
/-!
Each coroutine is handed what is due to it, once and in its turn, however many other flows run in
between and wherever a budget cuts a tick short.
-/

namespace Cadence

variable {σ : Type}

abbrev LogEntry.quiet (handover : Handover σ) : LogEntry σ :=
  .exchanged handover none

def Handover.IsPlain (handover : Handover σ) : Prop :=
  ∃ command input, handover.answer = .ok (.yielded command) ∧
    command.action.reply? [] none = some input

theorem Handover.IsPlain.unfinished {handover : Handover σ} (plain : handover.IsPlain) :
    (LogEntry.quiet handover).completion? = none := by
  obtain ⟨command, input, answer, -⟩ := plain
  simp [LogEntry.completion?, answer]

namespace Log

open FlowTable

variable [Coroutine σ] {log more : List (LogEntry σ)} {table after : FlowTable σ} {id : Nat}
  {busy : Option FlowId} {phase : Phase σ} {flow old : Flow σ} {tick : Tick} {event : LogEntry σ}
  {handover : Handover σ}

/-! ## Steps -/

structure Leads (tick : Tick) (start : Heap × Flow σ) (turn : List (Handover σ))
    (here : Heap × Flow σ) : Prop where
  givers : turn.map Handover.giver = Flow.course tick start turn.length
  here : (Flow.next tick)^[turn.length] start = here

theorem Leads.step {start here : Heap × Flow σ} {turn : List (Handover σ)}
    (leads : Leads tick start turn here) (given : handover.giver = here.2) :
    Leads tick start (turn ++ [handover]) (Flow.next tick here) where
  givers := by
    rw [List.map_append, List.map_singleton, List.length_append, List.length_singleton,
      Flow.course_succ, leads.givers, leads.here, given]
  here := by
    rw [List.length_append, List.length_singleton, Function.iterate_succ_apply', leads.here]

structure Midturn (log : List (LogEntry σ)) (id : FlowId) (turn : List (Handover σ)) : Prop where
  own : ∀ handover ∈ turn, handover.flow = id
  plain : ∀ handover ∈ turn, handover.IsPlain
  ordered : InOrder (log ++ turn.map .quiet)

theorem Midturn.exchanged {turn : List (Handover σ)} (midturn : Midturn log id turn)
    (own : handover.flow = id) (plain : handover.IsPlain)
    (expects : Expects (log ++ turn.map .quiet) handover) :
    Midturn log id (turn ++ [handover]) where
  own := List.forall_mem_append.2 ⟨midturn.own, by simpa using own⟩
  plain := List.forall_mem_append.2 ⟨midturn.plain, by simpa using plain⟩
  ordered := by
    rw [List.map_append, ← List.append_assoc]
    exact midturn.ordered.exchanged expects none

def Progress (tick : Tick) (log : List (LogEntry σ)) (begun : List (Exchange σ))
    (start : Heap × Flow σ) (id : FlowId) (boundary : Option (Boundary σ)) (heap : Heap)
    (flow : Flow σ) (journal : List (Exchange σ)) : Prop :=
  flow.id = id ∧ ∃ turn steps, Midturn log id turn ∧ Leads tick start steps (heap, flow) ∧
    journal = (steps.map Handover.toExchange).reverse ++ begun ∧
    match boundary with
    | none | some .halt => steps = turn ∧ Stands (log ++ turn.map .quiet) id (.active flow)
    | some boundary => ∃ last, steps = turn ++ [last] ∧ last.flow = id ∧
        Expects (log ++ turn.map .quiet) last ∧
        flow.coroutine = (Coroutine.resume last.state last.input).2 ∧
        flow.Answered last.answer (some boundary)

theorem stands_answered {turn : List (Handover σ)} {command : Command σ} {input : Input}
    (own : handover.flow = id) (answer : handover.answer = .ok (.yielded command))
    (plain : command.action.reply? [] none = some input)
    (left : flow.coroutine = (Coroutine.resume handover.state handover.input).2)
    (provides : flow.Provides ⟨flow.coroutine, some command.address, input⟩) :
    Stands (log ++ (turn ++ [handover]).map .quiet) id (.active flow) := by
  rw [left] at provides
  refine ⟨_, ?_, provides⟩
  rw [List.map_append, ← List.append_assoc, List.map_singleton,
    due?_of_latest? (latest?_concat own) answer, Action.reply?_of_plain plain]
  rfl

theorem isBudgetExhausted_of_isFault {e : EngineError} (fault : e.isFault = true) :
    e.isBudgetExhausted = false := by
  cases e <;> first | rfl | cases fault

theorem progress_carries (contract : Contract σ) (tick : Tick) (log : List (LogEntry σ))
    (begun : List (Exchange σ)) (start : Heap × Flow σ) (id : FlowId) :
    contract.Carries tick (Progress tick log begun start id) fun e heap flow journal =>
      e.isBudgetExhausted = true → Progress tick log begun start id none heap flow journal := by
  rintro memory flow journal heap sound running
    ⟨named, _, turn, midturn, leads, rfl, rfl, due, known, provides⟩
  obtain ⟨exchanged, left, answered⟩ := Flow.step_answered provides sound tick
  obtain ⟨⟨input, -, ⟨records, same⟩, -⟩, -, -, accepts⟩ := Flow.step_advances sound tick
  have named' : (flow.step memory tick).flow.id = id := by
    rw [same]
    exact named
  cases result : (flow.step memory tick).result with
  | error e =>
      rw [result] at accepts
      intro spent
      rw [isBudgetExhausted_of_isFault accepts] at spent
      cases spent
  | ok outcome =>
      have answered := answered outcome result
      rw [exchanged]
      let last : Handover σ :=
        ⟨⟨flow.id, due.state, due.input, (Coroutine.resume due.state due.input).1⟩, flow⟩
      have expects : Expects (log ++ turn.map .quiet) last := by
        refine ⟨due, ?_, provides, rfl⟩
        rw [show last.flow = id from named, known]
      have leads' : Leads tick start (turn ++ [last])
          ((flow.step memory tick).heap, (flow.step memory tick).flow) :=
        leads.step (show last.giver = (memory, flow).2 from rfl)
      have journal : last.toExchange :: ((turn.map Handover.toExchange).reverse ++ begun) =
          ((turn ++ [last]).map Handover.toExchange).reverse ++ begun := by simp
      have goes_on (command : Command σ) (input : Input)
          (answer : last.answer = .ok (.yielded command))
          (plain : command.action.reply? [] none = some input)
          (provides : (flow.step memory tick).flow.Provides
            ⟨(flow.step memory tick).flow.coroutine, some command.address, input⟩) :
          Progress tick log begun start id none (flow.step memory tick).heap
            (flow.step memory tick).flow
            (last.toExchange :: ((turn.map Handover.toExchange).reverse ++ begun)) :=
        ⟨named', turn ++ [last], _, midturn.exchanged named ⟨command, input, answer, plain⟩ expects,
          leads', journal, rfl, stands_answered named answer plain left provides⟩
      show Progress tick log begun start id outcome.boundary _ _ _
      -- A wait or a completion ends the turn, so that only then the last handover stands apart.
      generalize outcome.boundary = reached at answered ⊢
      cases reached with
      | none =>
          obtain ⟨command, input, answer, plain, provides⟩ := answered
          exact goes_on command input answer plain provides
      | some boundary =>
          cases boundary with
          | halt =>
              obtain ⟨command, input, answer, plain, provides⟩ := answered
              exact goes_on command input answer plain provides
          | await request caller =>
              exact ⟨named', turn, _, midturn, leads', journal, last, rfl, named, expects, left,
                answered⟩
          | complete value address =>
              exact ⟨named', turn, _, midturn, leads', journal, last, rfl, named, expects, left,
                answered⟩

/-! ## Turns -/

/-- What a log says of a table, and of the past, between two turns. -/
structure Describes (log : List (LogEntry σ)) (table : FlowTable σ) : Prop where
  tells : Tells none log table
  consistent : Consistent table (completions log)
  ordered : InOrder log
  asked : Asked log

theorem describes_empty : Describes ([] : List (LogEntry σ)) ({} : FlowTable σ) where
  tells := tells_empty
  consistent := consistent_empty
  ordered past handover wait? rest split := by simp at split
  asked handover wait member := by simp at member

omit [Coroutine σ] in
theorem completions_unfinished (unfinished : ∀ event ∈ more, event.completion? = none) :
    completions (log ++ more) = completions log := by
  have nothing : completions more = [] := List.filterMap_eq_nil_iff.2 unfinished
  rw [completions_append, nothing, List.append_nil]

theorem Describes.create (described : Describes log table) (recipe : Recipe σ)
    (caller : Option Address) (isDependency : Bool) (tick : Tick) :
    Describes (log ++ [.started (table.phases.size + 1) recipe])
      (table.create recipe caller isDependency tick).2 where
  tells := described.tells.create recipe caller isDependency tick
  consistent := by
    rw [completions_unfinished (by simp [LogEntry.completion?])]
    exact described.consistent.create recipe caller isDependency tick
  ordered := described.ordered.append (by simp)
  asked := described.asked.append (by simp)

theorem Describes.settled (described : Describes log table) (settled : Settled table tick after) :
    Describes log after where
  tells := described.tells.settled described.consistent settled
  consistent := described.consistent.settled settled
  ordered := described.ordered
  asked := described.asked

/-- What is due to an active flow lies ready, and nothing is due yet to one that waits. -/
structure Ready (log : List (LogEntry σ)) (table : FlowTable σ) : Prop where
  active : ∀ id flow, table.active? id = some flow →
    ∃ due, due? log id = some due ∧ flow.Provides due
  waiting : ∀ id flow wait, table.suspended? id = some (flow, wait) →
    due? log id = none ∧ ∃ handover, latest? log id = some (.exchanged handover (some wait)) ∧
      flow.coroutine = (Coroutine.resume handover.state handover.input).2

theorem Describes.ready (described : Describes log table) (unsettled : table.Unsettled) :
    Ready log table where
  active id flow active := described.tells.stands id _ (active?_eq_some.1 active) (by simp)
  waiting id flow wait waits := by
    rw [suspended?_eq_some] at waits
    obtain ⟨handover, request, last, answer, left, -⟩ := described.tells.stands id _ waits (by simp)
    refine ⟨?_, handover, last, left⟩
    have shapely := described.consistent.shapely id flow wait waits
    have unsatisfied := (described.consistent.outcome?_eq_none shapely).1
      (unsettled id flow wait waits)
    have nothing : wait.value? (completions log) = none := by
      rw [Option.eq_none_iff_forall_ne_some]
      exact fun value known => unsatisfied (Wait.satisfiedBy_of_value? shapely known)
    rw [due?_of_latest? last answer]
    simp [Action.reply?, nothing]

theorem Describes.disciplined (described : Describes log table) : Disciplined log :=
  ⟨described.ordered, described.ordered.afresh described.tells.once, described.tells.once,
    described.asked⟩

section Turn

variable {turn : List (Handover σ)} {last : Handover σ}

theorem Midturn.unfinished (midturn : Midturn log id turn) :
    ∀ event ∈ turn.map LogEntry.quiet, event.completion? = none := by
  intro event member
  obtain ⟨handover, listed, rfl⟩ := List.mem_map.1 member
  exact (midturn.plain handover listed).unfinished

theorem Midturn.mine (midturn : Midturn log id turn) :
    ∀ event ∈ turn.map LogEntry.quiet, event.flow = id ∧ event.start? = none := by
  intro event member
  obtain ⟨handover, listed, rfl⟩ := List.mem_map.1 member
  exact ⟨midturn.own handover listed, rfl⟩

theorem Midturn.mine_concat (midturn : Midturn log id turn) (own : last.flow = id)
    (wait? : Option Wait) : ∀ event ∈ turn.map LogEntry.quiet ++ [.exchanged last wait?],
      event.flow = id ∧ event.start? = none :=
  List.forall_mem_append.2 ⟨midturn.mine, by simpa [LogEntry.flow, LogEntry.start?] using own⟩

theorem Describes.active (described : Describes log table)
    (found : table.find? id = some (.active old)) (midturn : Midturn log id turn)
    (stands : Stands (log ++ turn.map .quiet) id (.active flow)) :
    Describes (log ++ turn.map .quiet) (table.put id (some (.active flow))) where
  tells := by
    refine ((described.tells.turn found midturn.mine).put _).close fun phase known => ?_
    obtain rfl := Option.some.inj ((find?_put_self found).symm.trans known)
    exact stands
  consistent := by
    rw [completions_unfinished midturn.unfinished]
    exact described.consistent.put found (by simp) (by simp)
  ordered := midturn.ordered
  asked := described.asked.append (by simp)

theorem Describes.completing (described : Describes log table)
    (found : table.find? id = some (.active old)) (midturn : Midturn log id turn)
    (own : last.flow = id) (expects : Expects (log ++ turn.map .quiet) last) {value : Json}
    (answer : last.answer = .ok (.complete value)) {done : Completion} (valued : done.value = value)
    (order : done.order = table.completions + 1) :
    Describes (log ++ (turn ++ [last]).map .quiet) (table.completing id done) where
  tells := by
    rw [List.map_append, List.map_singleton]
    have put : Tells none _ (table.put id (some (.completed done))) :=
      have turned := described.tells.turn found (midturn.mine_concat own none)
      (turned.put _).close fun phase known => by
        obtain rfl := Option.some.inj ((find?_put_self found).symm.trans known)
        trivial
    exact ⟨put.known, put.once, put.stands⟩
  consistent := by
    have finished : completions (log ++ (turn ++ [last]).map .quiet) =
        completions log ++ [(id, done.value)] := by
      rw [List.map_append, ← List.append_assoc, completions_append,
        completions_unfinished midturn.unfinished]
      simp [completions, LogEntry.completion?, answer, own, valued]
    rw [finished]
    exact described.consistent.finish found order
  ordered := by
    rw [List.map_append, ← List.append_assoc]
    exact midturn.ordered.exchanged expects none
  asked := described.asked.append (by simp)

theorem Describes.awaiting (described : Describes log table)
    (found : table.find? id = some (.active old)) (midturn : Midturn log id turn)
    (own : last.flow = id) (expects : Expects (log ++ turn.map .quiet) last)
    (left : flow.coroutine = (Coroutine.resume last.state last.input).2) {request : Request σ}
    {caller : Address} (answer : last.answer = .ok (.yielded ⟨caller, .await request⟩))
    (rests : flow.RestsAt caller)
    (shapely : request.strategy.check id request.recipes.length = .ok ()) (tick : Tick) :
    Describes (log ++ (turn.map .quiet ++
        [.exchanged last (some (request.wait caller table.phases.size tick))]) ++
        begun table.phases.size request.recipes)
      (table.awaiting id flow request caller tick) where
  tells := by
    refine described.tells.awaiting found (midturn.mine_concat own _) ?_
    rw [← List.append_assoc]
    exact ⟨last, request, latest?_concat own, answer, left, rests⟩
  consistent := by
    have unfinished : ∀ event ∈ begun table.phases.size request.recipes,
        event.completion? = none := by
      intro event member
      obtain ⟨other, recipe, -, rfl⟩ := mem_begun member
      rfl
    rw [completions_unfinished unfinished, ← List.append_assoc,
      completions_unfinished (by simp [LogEntry.completion?, answer]),
      completions_unfinished midturn.unfinished]
    exact described.consistent.awaiting found flow shapely caller tick
  ordered := by
    rw [← List.append_assoc]
    refine (midturn.ordered.exchanged expects _).append fun event member => ?_
    obtain ⟨other, recipe, -, rfl⟩ := mem_begun member
    simp
  asked := by
    have quiet : Asked (log ++ turn.map .quiet) := described.asked.append (by simp)
    rw [← List.append_assoc log, List.append_assoc (log ++ _)]
    exact quiet.requested answer table.phases.size tick

end Turn

end Log

/-! ## Ticks -/

namespace Logged

open Log Engine FlowTable

variable [Coroutine σ] {before after : Simulation σ} {logged : Logged σ} {tick : Tick} {id : Nat}
  {flow : Flow σ} {handover : Handover σ}

theorem handoversSince_eq (found : before.flows.find? id = some (.active flow))
    {turn : List (Handover σ)} {here : Heap × Flow σ}
    (leads : Leads tick (before.heap, { flow with resumption := none }) turn here)
    (journal : after.journal = (turn.map Handover.toExchange).reverse ++ before.journal) :
    handoversSince before after id tick = turn := by
  simp only [handoversSince, active?_eq_some.2 found, exchangesSince_eq journal]
  rw [List.length_map, ← leads.givers, List.zip_map', List.map_map]
  exact List.map_id' turn

omit [Coroutine σ] in
theorem eventsOf_plain (plain : handover.IsPlain) (before : Simulation σ) (tick : Tick) :
    eventsOf before tick handover = [.quiet handover] := by
  obtain ⟨⟨caller, action⟩, input, answer, replied⟩ := plain
  cases action with
  | await request => cases replied
  | _ => simp [eventsOf, answer]

omit [Coroutine σ] in
theorem eventsOf_await {request : Request σ} {caller : Address}
    (answer : handover.answer = .ok (.yielded ⟨caller, .await request⟩)) (before : Simulation σ)
    (tick : Tick) : eventsOf before tick handover =
      .exchanged handover (some (request.wait caller before.flows.phases.size tick)) ::
        begun before.flows.phases.size request.recipes := by
  simp only [eventsOf, answer]

omit [Coroutine σ] in
theorem eventsOf_complete {value : Json} (answer : handover.answer = .ok (.complete value))
    (before : Simulation σ) (tick : Tick) : eventsOf before tick handover = [.quiet handover] := by
  simp only [eventsOf, answer]

theorem eventsOf_turn {log : List (LogEntry σ)} {turn : List (Handover σ)}
    (midturn : Midturn log id turn) (before : Simulation σ) (tick : Tick) :
    turn.flatMap (eventsOf before tick) = turn.map .quiet := by
  rw [List.flatMap_congr fun handover member =>
    eventsOf_plain (midturn.plain handover member) before tick]
  exact List.flatMap_pure_eq_map ..

def Follows (logged : Logged σ) : Prop :=
  Describes logged.log logged.sim.flows

theorem progress_begun (follows : logged.Follows)
    (found : logged.sim.flows.find? id = some (.active flow)) (named : flow.id = id) (tick : Tick) :
    Progress tick logged.log logged.sim.journal
      (logged.sim.heap, { flow with resumption := none }) id none logged.sim.heap
      { flow with resumption := none } logged.sim.journal := by
  obtain ⟨due, known, state, offered⟩ := follows.tells.stands id _ found (by simp)
  refine ⟨named, [], [], ⟨by simp, by simp, ?_⟩, ⟨rfl, rfl⟩, rfl, rfl, due, ?_, state, offered⟩
  · simpa using follows.ordered
  · simpa using known

theorem process_follows (id : Nat) (tick : Tick) :
    Triple (fun logged => ((Contract.any σ).Kept logged.sim ∧ logged.Follows) ∧
        ∃ flow : Flow σ, logged.sim.flows.find? id = some (.active flow))
      (process id tick) (fun _ => Follows)
      fun e after => e.isBudgetExhausted = true → after.Follows := by
  rintro ⟨sim, log⟩ ⟨⟨⟨lineage, holds⟩, described⟩, flow, found⟩
  have named : flow.id = id := (holds.orders.admits id _ found).named
  have carried := Simulation.process_carries holds found
    (progress_carries (Contract.any σ) tick log sim.journal _ id)
    (fun _ _ _ _ _ progress _ => progress) (progress_begun described found named tick)
  unfold process
  cases done : Simulation.process id tick sim with
  | error e after =>
      rw [done] at carried
      intro spent
      obtain ⟨-, later, -, written, failed | ⟨request, caller, -, refused⟩⟩ := carried
      · obtain ⟨-, _, turn, midturn, leads, journal, rfl, stands⟩ := failed spent
        rw [handoversSince_eq found leads journal, Follows, written]
        exact described.active found midturn stands
      · -- A wait is refused for a fault of the coroutine, which is not for want of budget.
        rw [isBudgetExhausted_of_isFault (Strategy.isFault_of_check refused)] at spent
        cases spent
  | ok reports after =>
      rw [done] at carried
      obtain ⟨turned, -⟩ := carried
      show Describes (log ++ (handoversSince sim after id tick).flatMap (eventsOf sim tick))
        after.flows
      generalize after.flows = flows at turned
      cases turned with
      | halted kin progress =>
          obtain ⟨-, _, turn, midturn, leads, journal, rfl, stands⟩ := progress
          rw [handoversSince_eq found leads journal, eventsOf_turn midturn]
          exact described.active found midturn stands
      | waiting kin progress shapely resolved =>
          obtain ⟨-, turn, _, midturn, leads, journal, last, rfl, own, expects, left, answer,
            rests⟩ := progress
          rw [handoversSince_eq found leads journal, List.flatMap_append, List.flatMap_singleton,
            eventsOf_turn midturn, eventsOf_await answer]
          refine Describes.settled ?_ (resolve_ok resolved).1
          simpa using described.awaiting found midturn own expects left answer rests shapely tick
      | completed kin progress resolved =>
          obtain ⟨-, turn, _, midturn, leads, journal, last, rfl, own, expects, left, answer⟩ :=
            progress
          rw [handoversSince_eq found leads journal, List.flatMap_append, List.flatMap_singleton,
            eventsOf_turn midturn, eventsOf_complete answer, ← List.map_singleton,
            ← List.map_append]
          refine Describes.settled ?_ (resolve_ok resolved).1
          exact described.completing found midturn own expects answer rfl rfl

theorem stepTask_follows (tick : Tick) (id : TaskId) :
    Triple (Follows (σ := σ)) (stepTasks.stepTask tick id) (fun _ => Follows) fun _ _ => True := by
  intro logged described
  unfold stepTasks.stepTask Simulation.stepTasks.stepTask spawnedBy
  cases ticked : TaskTable.tick id logged.sim.tasks with
  | error e tasks => trivial
  | ok recipe? tasks =>
      cases recipe? with
      | none => simpa [Follows] using described
      | some recipe => exact described.create recipe none false tick

theorem tick_follows (kept : (Contract.any σ).Kept logged.sim) (follows : logged.Follows)
    (faultless : ∀ e after, Simulation.tick logged.sim = .error e after →
      e.isBudgetExhausted = true) :
    (probe.tick.after logged).Follows := by
  have ticked := (faithful_keeping (Contract.any σ) logged.sim.now
    (stepTask_follows _) (process_follows · _) fun _ _ follows _ => follows).tick
      (fun _ => Follows) ⟨kept.unjournaled, follows⟩ (fun _ _ kept => kept.2) logged rfl
  unfold Engine.after
  cases done : probe.tick logged with
  | ok report after =>
      rw [done] at ticked
      exact ticked.2.2
  | error e after =>
      rw [done] at ticked
      exact ticked.2 (faultless e _ ticked.1)

end Logged

/-! ## Sessions -/

namespace Simulation

open Log FlowTable

variable [Coroutine σ] {limits : Limits} {operations : List (Simulation.Operation σ)}

/-- No tick of a session has failed other than for want of budget. -/
def FaultFree (limits : Limits) (operations : List (Simulation.Operation σ)) : Prop :=
  ∀ earlier later e after, operations = earlier ++ .tick :: later →
    tick (session limits earlier) = .error e after → e.isBudgetExhausted = true

theorem Operation.note_follows (operation : Simulation.Operation σ) {logged : Logged σ}
    (kept : (Contract.any σ).Kept logged.sim) (follows : logged.Follows)
    (faultless : operation = .tick → ∀ e after, Simulation.tick logged.sim = .error e after →
      e.isBudgetExhausted = true) : (operation.note logged).Follows := by
  cases operation with
  | tick => exact Logged.tick_follows kept follows (faultless rfl)
  | spawn recipe => exact follows.create recipe none false logged.sim.now
  | reset => exact describes_empty
  | resetStacks => exact describes_empty
  | _ => exact follows

theorem session_follows (faultless : FaultFree limits operations) :
    (Logged.session limits operations).Follows := by
  -- Operations are added at the end, where the log grows as well.
  induction operations using List.reverseRecOn with
  | nil => exact describes_empty
  | append_singleton operations operation ih =>
      have past : FaultFree limits operations := fun earlier later e after split =>
        faultless earlier (later ++ [operation]) e after (by simp [split])
      have kept : (Contract.any σ).Kept (Logged.session limits operations).sim := by
        rw [Logged.sim_session]
        exact session_kept limits operations
      rw [Logged.session_concat]
      refine operation.note_follows kept (ih past) ?_
      rintro rfl e after failed
      rw [Logged.sim_session] at failed
      exact faultless operations [] e after rfl failed

/--
In a session without faults each coroutine is handed, once and by the frame that has asked for it,
what its last command makes due; what is due lies ready until then, and no exchange goes unrecorded.
-/
theorem inputs_are_due (faultless : FaultFree limits operations) :
    Disciplined (Log.ofSession limits operations) ∧
      Ready (Log.ofSession limits operations) (session limits operations).flows ∧
      ∀ earlier later, operations = earlier ++ .tick :: later →
        ∃ more, Log.ofSession limits (earlier ++ [.tick]) = Log.ofSession limits earlier ++ more ∧
          more.filterMap LogEntry.exchange? =
            (session limits (earlier ++ [.tick])).journal.reverse := by
  have described := session_follows faultless
  obtain ⟨lineage, holds⟩ := session_kept limits operations
  refine ⟨described.disciplined, ?_, fun earlier _ _ => Logged.session_records limits earlier⟩
  rw [← Logged.sim_session] at holds ⊢
  exact described.ready holds.unsettled

/-- A race whose first tick is cut short, so that the flow that is to wait goes on a tick later. -/
def raceCutShort : List (Simulation.Operation Playback) :=
  let here : Address := ⟨"2b2a14d215455d3ce50cfc5c2ae1d125_1", 0⟩
  let worker (value : Int) : List PlaybackMove :=
    [.load here [] false, .halt here 1 1, .unload here (.int value)]
  let calls := [("left", [], worker 7), ("right", [], worker 8)]
  let main : List PlaybackMove :=
    [.load here [] false, .log here [], .await here .race true calls, .unload here .null]
  [.register { className := "Worker", fields := [] }, .spawn (Playback.recipe "main" [.int 1] main),
    .setLimits { steps := 2 }, .tick, .setLimits {}, .tick, .tick]

theorem faultFree_raceCutShort : FaultFree {} raceCutShort := by
  intro earlier later e after split failed
  have stopped : ∀ n < 7, (match tick (session {} (raceCutShort.take n)) with
      | .ok _ _ => true
      | .error e _ => e.isBudgetExhausted) = true := by decide +kernel
  have inside : earlier.length < 7 := by
    have length : 7 = earlier.length + (later.length + 1) := by
      rw [← List.length_cons, ← List.length_append, ← split]
      rfl
    omega
  have spent := stopped earlier.length inside
  rwa [split, List.take_left, failed] at spent

theorem race_cut_short_is_disciplined :
    FaultFree {} raceCutShort ∧
      ((Log.ofSession {} raceCutShort).filterMap LogEntry.exchange?).map (fun exchange =>
          (exchange.flow, exchange.input matches .given _)) =
        [(1, false), (1, false), (1, false), (2, false), (2, false), (3, false), (3, false),
          (2, false), (2, false), (1, true), (1, false)] ∧
      Disciplined (Log.ofSession {} raceCutShort) ∧
      Ready (Log.ofSession {} raceCutShort) (session {} raceCutShort).flows := by
  obtain ⟨disciplined, ready, -⟩ := inputs_are_due faultFree_raceCutShort
  exact ⟨faultFree_raceCutShort, by decide +kernel, disciplined, ready⟩

end Simulation

end Cadence
