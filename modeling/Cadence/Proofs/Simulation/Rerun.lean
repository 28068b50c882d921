import Cadence.Proofs.Simulation.Alongside
import Cadence.Proofs.Simulation.Echo
import Cadence.Proofs.Simulation.Probe
import Cadence.Simulation.Entities
import Mathlib.Data.List.Induction
/-!
What a session has played since it was blank can be played again once its stacks have been reset,
with the same answers. Of the first time only nodes on the heap remain, which nobody notices.
-/

namespace Cadence

open Contract Engine

variable {σ : Type}

def Pairing.again (effects : EffectTable) : Pairing where
  effects := effects
  effects' := effects
  heaps := Heap.Within
  told surfaced surfaced' replay replay' := surfaced = surfaced' ∧ replay = replay'

theorem Pairing.again_lasts (effects : EffectTable) (tick : Tick) :
    (Pairing.again effects).Lasts tick where
  heaps := Heap.lasting_within
  surface result told := ⟨congrArg (· ++ [result]) told.1, told.2⟩
  route flow name told within covers _ found found' := by
    obtain ⟨rfl, rfl⟩ := told
    have same := EffectTable.isInternal_within within effects covers
    obtain rfl := Except.ok.inj (found.symm.trans (same.trans found'))
    exact ⟨rfl, rfl⟩

inductive Simulation.Answer where
  | silent
  | object (address : String)
  | flow (id : FlowId)
  | task (id : TaskId)
  | ticked (result : Except EngineError TickReport)
  | flushed (held : List TickReport)

namespace Simulation.Operation

variable [Coroutine σ]

def answer (sim : Simulation σ) : Simulation.Operation σ → Answer
  | register object => .object (sim.register object).1
  | spawn recipe => .flow (sim.spawn recipe).1
  | timer name after recipe => .task (sim.schedule name (.ofTimer after) recipe).1
  | interval name every recipe => .task (sim.schedule name (.ofInterval every) recipe).1
  | tick =>
    match Simulation.tick sim with
    | .ok report _ => .ticked (.ok report)
    | .error e _ => .ticked (.error e)
  | flush => .flushed sim.flush.1
  | setNode _ _ | addEffect _ _ | setLimits _ | reset | resetStacks => .silent

/-- Operations that play a session, which leave its heap, its effects and its limits to others. -/
def isPlay : Simulation.Operation σ → Bool
  | spawn _ | timer _ _ _ | interval _ _ _ | tick | flush => true
  | register _ | setNode _ _ | addEffect _ _ | setLimits _ | reset | resetStacks => false

end Simulation.Operation

namespace Simulation

variable [Coroutine σ]

def transcript : List (Simulation.Operation σ) → Simulation σ → List (Answer × Entities)
  | [], _ => []
  | operation :: operations, sim =>
    (operation.answer sim, (operation.apply sim).entities) ::
      transcript operations (operation.apply sim)

def played (operations : List (Simulation.Operation σ)) (sim : Simulation σ) : Simulation σ :=
  operations.foldl (fun sim operation => operation.apply sim) sim

omit [Coroutine σ] in
/-- Before anything has been played: no flow and no task was ever there, and nothing is held back. -/
structure IsBlank (sim : Simulation σ) : Prop where
  now : sim.now = 0
  entities : sim.entities.isEmpty = true
  held : sim.replay.held = []

structure Retains (before after : Simulation σ) : Prop where
  effects : after.effects = before.effects
  limits : after.limits = before.limits
  heap : before.heap.Within after.heap
  flows : after.flows.phases.size = 0 → after.flows = before.flows

omit [Coroutine σ] in
theorem Retains.refl (sim : Simulation σ) : Retains sim sim :=
  ⟨rfl, rfl, .refl _, fun _ => rfl⟩

omit [Coroutine σ] in
theorem Retains.trans {before middle after : Simulation σ} (earlier : Retains before middle)
    (later : Retains middle after) : Retains before after where
  effects := later.effects.trans earlier.effects
  limits := later.limits.trans earlier.limits
  heap := earlier.heap.trans later.heap
  flows nothing := by
    have same := later.flows nothing
    exact same.trans (earlier.flows (same ▸ nothing))

def bare : Probe σ (Simulation σ) where
  sim sim := sim
  change change := change
  stepTasks := stepTasks
  process := process

variable {before sim : Simulation σ} {tick : Tick}

theorem carries_within (contract : Contract σ) (tick : Tick) (base : Heap) :
    contract.Carries tick (fun _ heap _ _ => base.Within heap) fun _ heap _ _ => base.Within heap := by
  intro memory flow journal _ _ _ within
  have stepped := within.trans (flow.step_within memory tick)
  cases (flow.step memory tick).result with
  | ok outcome => exact stepped
  | error e => exact stepped

theorem process_retains (kept : (any σ).Kept sim) {id : FlowId} {flow : Flow σ}
    (found : sim.flows.find? id = some (.active flow)) (tick : Tick) :
    match process id tick sim with | .ok _ after | .error _ after => Retains sim after := by
  obtain ⟨lineage, holds⟩ := kept
  have some := FlowTable.le_size_of_find? found
  have carried := process_carries holds found (carries_within _ tick sim.heap)
    (fun _ _ _ _ _ within => within) (.refl _)
  cases done : process id tick sim with
  | ok reports after =>
      rw [done] at carried
      obtain ⟨turn, rests⟩ := carried
      have heap : sim.heap.Within after.heap := by
        generalize after.flows = flows at turn
        cases turn with
        | halted _ within => exact within
        | waiting _ within => exact within
        | completed _ within => exact within
      have grown := (turn.ages found).size
      exact ⟨rests.effects, rests.limits, heap, fun nothing => by omega⟩
  | error e after =>
      rw [done] at carried
      obtain ⟨rests, later, -, written, within | ⟨_, _, within, -⟩⟩ := carried
      all_goals exact ⟨rests.effects, rests.limits, within, fun nothing => by
        rw [written, FlowTable.size_put] at nothing
        omega⟩

omit [Coroutine σ] in
theorem stepTasks_retains (before : Simulation σ) (tick : Tick) (ids : List TaskId) :
    Triple (Retains before) (stepTasks tick ids) (fun _ => Retains before)
      (fun _ => Retains before) := by
  induction ids with
  | nil => exact Triple.pure fun _ retains => retains
  | cons id ids ih =>
      have first : Triple (Retains before) (stepTasks.stepTask tick id) (fun _ => Retains before)
          (fun _ => Retains before) := by
        intro sim retains
        unfold stepTasks.stepTask
        cases TaskTable.tick id sim.tasks with
        | error e tasks => exact retains.trans ⟨rfl, rfl, .refl _, fun _ => rfl⟩
        | ok recipe? tasks =>
            cases recipe? with
            | none => exact retains.trans ⟨rfl, rfl, .refl _, fun _ => rfl⟩
            | some recipe =>
                refine retains.trans ⟨rfl, rfl, .refl _, fun nothing => ?_⟩
                simp [FlowTable.create] at nothing
      exact first.bind fun _ => ih

theorem bare_faithful (before : Simulation σ) (tick : Tick) :
    (bare (σ := σ)).Faithful tick (fun _ sim => (any σ).Kept sim ∧ Retains before sim)
      fun _ => Retains before where
  change _ _ := rfl
  tasks reports covered start known := by
    refine Triple.mimics ?_
    rintro sim rfl
    have kept := @stepTasks_kept _ sim _ _ covered known.1 tick (fun _ _ => True) sim rfl
    have retains := stepTasks_retains before tick (sim.pendingTasks covered) sim known.2
    simp only [bare]
    cases done : stepTasks tick (sim.pendingTasks covered) sim with
    | ok result after =>
        rw [done] at kept retains
        exact ⟨kept, retains⟩
    | error e after =>
        rw [done] at retains
        exact retains
  process reports id := by
    refine Triple.mimics ?_
    rintro sim ⟨⟨kept, retains⟩, flow, found⟩
    simp only [bare] at found ⊢
    have kept' := process_kept id tick sim ⟨kept, flow, found⟩
    have retains' := process_retains kept found tick
    cases done : process id tick sim with
    | ok reports after =>
        rw [done] at kept' retains'
        exact ⟨kept', retains.trans retains'⟩
    | error e after =>
        rw [done] at retains'
        exact retains.trans retains'
  stop _ _ _ known := known.2

theorem tick_retains (kept : (any σ).Kept sim) : Retains sim (Engine.after Simulation.tick sim) := by
  have ticked := (bare_faithful sim sim.now).tick (fun _ => Retains sim)
    ⟨kept.unjournaled, rfl, rfl, .refl _, fun _ => rfl⟩
    (fun _ last known => known.2.trans ⟨rfl, rfl, .refl _, fun _ => rfl⟩) sim rfl
  have same : bare.tick sim = Simulation.tick sim := by
    cases done : bare.tick sim with
    | ok report after =>
        rw [done] at ticked
        exact ticked.1.symm
    | error e after =>
        rw [done] at ticked
        exact ticked.1.symm
  rw [same] at ticked
  unfold Engine.after
  cases done : Simulation.tick sim with
  | ok report after =>
      rw [done] at ticked
      exact ticked.2.2
  | error e after =>
      rw [done] at ticked
      exact ticked.2

theorem Operation.apply_retains {play : Simulation.Operation σ} (isPlay : play.isPlay = true)
    (kept : (any σ).Kept sim) : Retains sim (play.apply sim) := by
  cases play with
  | spawn recipe =>
      refine ⟨rfl, rfl, .refl _, fun nothing => ?_⟩
      simp [apply, Simulation.spawn, FlowTable.create] at nothing
  | timer name after recipe => exact ⟨rfl, rfl, .refl _, fun _ => rfl⟩
  | interval name every recipe => exact ⟨rfl, rfl, .refl _, fun _ => rfl⟩
  | tick => exact tick_retains kept
  | flush => exact ⟨rfl, rfl, .refl _, fun _ => rfl⟩
  | register | setNode | addEffect | setLimits | reset | resetStacks => cases isPlay

theorem played_retains (plays : List (Simulation.Operation σ))
    (only : ∀ play ∈ plays, play.isPlay = true) (kept : (any σ).Kept sim) :
    (any σ).Kept (played plays sim) ∧ Retains sim (played plays sim) := by
  induction plays generalizing sim with
  | nil => exact ⟨kept, .refl sim⟩
  | cons play plays ih =>
      obtain ⟨isPlay, only⟩ := List.forall_mem_cons.1 only
      obtain ⟨kept', retains⟩ := ih only (play.apply_kept kept)
      exact ⟨kept', (Operation.apply_retains isPlay kept).trans retains⟩

theorem session_flows (limits : Limits) (operations : List (Simulation.Operation σ))
    (nothing : (session limits operations).flows.phases.size = 0) :
    (session limits operations).flows = {} := by
  induction operations using List.reverseRecOn with
  | nil => rfl
  | append_singleton operations operation ih =>
      have kept := session_kept limits operations
      have split : session limits (operations ++ [operation]) =
          operation.apply (session limits operations) := by
        rw [session, List.foldl_append]
        rfl
      rw [split] at nothing ⊢
      cases operation with
      | reset => rfl
      | resetStacks => rfl
      | spawn recipe => simp [Operation.apply, Simulation.spawn, FlowTable.create] at nothing
      | tick =>
          have same := (tick_retains kept).flows nothing
          exact same.trans (ih (same ▸ nothing))
      | register | setNode | timer | interval | addEffect | setLimits | flush => exact ih nothing

omit [Coroutine σ] in
theorem IsBlank.empty (blank : IsBlank sim) :
    (∀ id, sim.flows.find? id = none) ∧ sim.tasks = {} := by
  have empty := blank.entities
  simp only [Entities.isEmpty, Simulation.entities, Bool.and_eq_true, List.isEmpty_iff,
    List.map_eq_nil_iff] at empty
  obtain ⟨⟨⟨⟨⟨active, suspended⟩, completed⟩, cancelled⟩, scheduled⟩, finished⟩ := empty
  constructor
  · intro id
    have absent {α : Type} {view : FlowId → Phase σ → Option α} {phase : Phase σ} {a : α}
        (nothing : sim.flows.collect view = []) (found : sim.flows.find? id = some phase)
        (seen : view id phase = some a) : False :=
      List.not_mem_nil (nothing ▸ FlowTable.mem_collect.2 ⟨id, phase, found, seen⟩)
    cases found : sim.flows.find? id with
    | none => rfl
    | some phase =>
        cases phase with
        | active flow => exact (absent active found rfl).elim
        | suspended flow wait => exact (absent suspended found rfl).elim
        | completed done => exact (absent completed found rfl).elim
        | cancelled cancellation => exact (absent cancelled found rfl).elim
  · have nothing : sim.tasks.tasks = [] := by
      rw [List.eq_nil_iff_forall_not_mem]
      intro task member
      by_cases ended : task.schedule.isFinished = true
      · have listed : task ∈ sim.tasks.completed := List.mem_filter.2 ⟨member, ended⟩
        simp [finished] at listed
      · have listed : task ∈ sim.tasks.scheduled := List.mem_filter.2 ⟨member, by simpa using ended⟩
        simp [scheduled] at listed
    exact congrArg TaskTable.mk nothing

theorem IsBlank.reset (limits : Limits) (operations : List (Simulation.Operation σ))
    (blank : (session limits operations).IsBlank) :
    (session limits operations).resetStacks = { session limits operations with journal := [] } := by
  obtain ⟨absent, tasks⟩ := blank.empty
  obtain ⟨lineage, holds⟩ := session_kept limits operations
  have flows : (session limits operations).flows = {} := by
    refine session_flows limits operations (Nat.eq_zero_of_not_pos fun positive => ?_)
    obtain ⟨phase, found⟩ := holds.orders.forest.present 1 (Nat.le_refl 1) positive
    cases (absent 1).symm.trans found
  have replay : (session limits operations).replay = {} := congrArg ReplayStore.mk blank.held
  unfold resetStacks
  rw [← flows, ← tasks, ← replay, ← blank.now]

structure Again (left right : Simulation σ) : Prop where
  same : left = { right with heap := left.heap, journal := left.journal }
  within : right.heap.Within left.heap
  kept : (any σ).Kept right

variable {left right : Simulation σ}

theorem Again.entities (again : Again left right) : left.entities = right.entities := by
  rw [again.same]
  rfl

theorem Beside.again {effects : EffectTable} {surfaced surfaced' : List Report}
    (beside : Beside (.again effects) surfaced surfaced' left right) (kept : (any σ).Kept right) :
    Again left right where
  same := by
    have effects : (Pairing.again effects).effects = right.effects := beside.effects.symm
    have replay : left.replay = right.replay := beside.told.2
    rw [beside.same, effects, replay]
  within := beside.heaps
  kept := kept

theorem Again.ticked (again : Again left right) :
    Operation.tick.answer left = Operation.tick.answer right ∧
      Again (Operation.tick.apply left) (Operation.tick.apply right) := by
  have kept := (Operation.tick (σ := σ)).apply_kept again.kept
  have coupled := coupled_tick left right (Pairing.again_lasts right.effects right.now)
    ⟨by rw [again.same]; rfl, rfl, again.within, rfl, by rw [again.same]⟩ again.kept
  change (any σ).Kept (Engine.after Simulation.tick right) at kept
  show _ ∧ Again (Engine.after Simulation.tick left) (Engine.after Simulation.tick right)
  unfold Operation.answer Engine.after at *
  cases done : Simulation.tick left with
  | ok report after =>
      cases done' : Simulation.tick right with
      | error e after' => simp [done, done', Agree] at coupled
      | ok report' after' =>
          rw [done, done'] at coupled
          rw [done'] at kept
          obtain ⟨now, now', beside⟩ := coupled
          have same : report = report' := by
            cases report
            cases report'
            exact congr (congrArg TickReport.mk (now.trans now'.symm)) beside.told.1
          exact ⟨by rw [same], beside.again kept⟩
  | error e after =>
      cases done' : Simulation.tick right with
      | ok report' after' => simp [done, done', Agree] at coupled
      | error e' after' =>
          rw [done, done'] at coupled
          rw [done'] at kept
          obtain ⟨rfl, _, _, beside⟩ := coupled
          exact ⟨rfl, beside.again kept⟩

theorem Again.step {play : Simulation.Operation σ} (isPlay : play.isPlay = true)
    (again : Again left right) :
    play.answer left = play.answer right ∧ Again (play.apply left) (play.apply right) := by
  have kept := play.apply_kept again.kept
  cases play with
  | tick => exact again.ticked
  | spawn recipe =>
      refine ⟨?_, ?_, again.within, kept⟩
      all_goals
        rw [again.same]
        rfl
  | timer name after recipe =>
      refine ⟨?_, ?_, again.within, kept⟩
      all_goals
        rw [again.same]
        rfl
  | interval name every recipe =>
      refine ⟨?_, ?_, again.within, kept⟩
      all_goals
        rw [again.same]
        rfl
  | flush =>
      refine ⟨?_, ?_, again.within, kept⟩
      all_goals
        rw [again.same]
        rfl
  | register | setNode | addEffect | setLimits | reset | resetStacks => cases isPlay

theorem Again.transcript {plays : List (Simulation.Operation σ)}
    (only : ∀ play ∈ plays, play.isPlay = true) (again : Again left right) :
    transcript plays left = transcript plays right := by
  induction plays generalizing left right with
  | nil => rfl
  | cons play plays ih =>
      obtain ⟨isPlay, only⟩ := List.forall_mem_cons.1 only
      obtain ⟨answer, again'⟩ := again.step isPlay
      simp only [Simulation.transcript]
      rw [answer, again'.entities, ih only again']

/--
Playing again after a reset of the stacks is exact. From a blank session on, whatever is played gets
the same answers the second time and shows the same entities, also where ticks fail.
-/
theorem reruns_are_exact (limits : Limits) (operations plays : List (Simulation.Operation σ))
    (blank : (session limits operations).IsBlank) (only : ∀ play ∈ plays, play.isPlay = true) :
    transcript plays (played plays (session limits operations)).resetStacks =
      transcript plays (session limits operations) := by
  have kept := session_kept limits operations
  obtain ⟨-, retains⟩ := played_retains plays only kept
  have reset := blank.reset limits operations
  generalize session limits operations = sim at retains kept reset
  refine Again.transcript only ⟨?_, retains.heap, kept⟩
  calc (played plays sim).resetStacks
      = { sim.resetStacks with heap := (played plays sim).heap } := by
        unfold resetStacks
        rw [retains.effects, retains.limits]
    _ = { sim with heap := (played plays sim).heap, journal := [] } := by rw [reset]

def workerInEffect : List (Simulation.Operation Playback) :=
  [.register { className := "Worker", fields := [] },
    .addEffect "work" ["2b2a14d215455d3ce50cfc5c2ae1d125_1.0"]]

/-- In the second tick one flow leaves a result behind, and after it the other one fails. -/
def failsHalfway : List (Simulation.Operation Playback) :=
  let here : Address := ⟨"2b2a14d215455d3ce50cfc5c2ae1d125_1", 0⟩
  let worker : List PlaybackMove := [.load here [] false, .halt here 1 1, .unload here (.int 7)]
  let broken : List PlaybackMove := [.load here [] false, .halt here 1 1, .fail "out of order"]
  [.spawn (Playback.recipe "worker" [] worker), .spawn (Playback.recipe "broken" [] broken), .tick,
    .tick, .flush]

theorem halfway_failure_reruns : (session {} workerInEffect).IsBlank ∧
    (played failsHalfway (session {} workerInEffect)).heap.nodes.length = 1 ∧
    (session {} workerInEffect).heap.nodes.length = 0 ∧
    (played (failsHalfway.take 4) (session {} workerInEffect)).replay.held.length = 2 ∧
    transcript failsHalfway (played failsHalfway (session {} workerInEffect)).resetStacks =
      transcript failsHalfway (session {} workerInEffect) := by
  have blank : (session {} workerInEffect).IsBlank := ⟨rfl, by decide +kernel, rfl⟩
  exact ⟨blank, by decide +kernel, by decide +kernel, by decide +kernel,
    reruns_are_exact {} workerInEffect failsHalfway blank (by decide)⟩

end Simulation

end Cadence
