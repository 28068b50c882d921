import Cadence.Proofs.FlowTable.Losers
import Cadence.Proofs.Schedule
import Cadence.Proofs.Simulation.Diary
/-!
Ticks in which tasks fire. A tick is run with a note of each flow that a task starts and of each turn
that a flow has. A task is stepped once, it starts the flow that is due, and such a flow has its
first turn in the same tick.
-/

namespace Cadence

open Contract Engine FlowTable

variable {σ : Type}

structure Start (σ : Type) where
  task : TaskId
  tick : Tick
  flow : FlowId
  phase? : Option (Phase σ)

structure Timed (σ : Type) where
  sim : Simulation σ
  starts : List (Start σ) := []
  turns : List (FlowId × Tick) := []

namespace Timed

def stepTasks (tick : Tick) : List TaskId → Engine (Timed σ) Unit
  | [] => return ()
  | id :: ids => do
    stepTask id
    stepTasks tick ids
where
  stepTask (id : TaskId) : Engine (Timed σ) Unit := fun timed =>
    match Simulation.stepTasks.stepTask tick id timed.sim with
    | .error e sim => .error e { timed with sim }
    | .ok () sim =>
      let size := timed.sim.flows.phases.size
      let fresh := List.range' (size + 1) (sim.flows.phases.size - size)
      let starts := fresh.map fun flow => ⟨id, tick, flow, sim.flows.find? flow⟩
      .ok () { timed with sim, starts := timed.starts ++ starts }

def startsOf (timed : Timed σ) (id : TaskId) : List (Start σ) :=
  timed.starts.filter (·.task = id)

def firstTurn? (timed : Timed σ) (id : FlowId) : Option Tick :=
  (timed.turns.find? (·.1 = id)).map Prod.snd

/-- The flow on record is the `k`-th one of the task, a root that was started when it was due. -/
structure Begins (booking : Booking σ) (k : Nat) (start : Start σ) : Prop where
  tick : start.tick = booking.due k
  root : start.phase? =
    some (.active (Flow.ofRecipe start.flow (booking.recipeOf k) none false (booking.due k)))

structure Fresh (tick : Tick) (stepped : FlowId → Option Nat) (timed : Timed σ) (start : Start σ) :
    Prop where
  tick : start.tick = tick
  active : ∃ flow, timed.sim.flows.find? start.flow = some (.active flow) ∧
    stepped start.flow ≠ some flow.activation
  unlisted : timed.sim.flows.Unlisted start.flow
  unturned : timed.firstTurn? start.flow = none

/-- Each flow on record has had its first turn in the tick in which it was started, or has it
before it in this one. -/
structure Prompt (tick : Tick) (stepped : FlowId → Option Nat) (timed : Timed σ) : Prop where
  begun : ∀ start ∈ timed.starts,
    timed.firstTurn? start.flow = some start.tick ∨ Fresh tick stepped timed start
  turned : ∀ (flow : Nat) tick, (flow, tick) ∈ timed.turns → flow ≤ timed.sim.flows.phases.size
  listed : ∀ parent (child : Nat), child ∈ timed.sim.flows.dependencies parent →
    child ≤ timed.sim.flows.phases.size

structure Records (booking : Booking σ) (elapsed : Nat) (timed : Timed σ) : Prop where
  task : timed.sim.tasks.find? booking.id = some (booking.task elapsed)
  starts : List.Forall₂ (Begins booking) (List.range' 1 (booking.plan.count elapsed))
    (timed.startsOf booking.id)

variable {booking : Booking σ} {tick : Tick} {stepped : FlowId → Option Nat} {elapsed : Nat}
  {timed after : Timed σ} {start : Start σ} {id : TaskId} {recipe : Recipe σ}

theorem firstTurn?_congr (turns : after.turns = timed.turns) (flow : FlowId) :
    after.firstTurn? flow = timed.firstTurn? flow := by
  rw [firstTurn?, firstTurn?, turns]

theorem firstTurn?_eq_none {flow : FlowId} (unturned : ∀ tick, (flow, tick) ∉ timed.turns) :
    timed.firstTurn? flow = none := by
  rw [firstTurn?, Option.map_eq_none_iff, List.find?_eq_none]
  rintro ⟨other, tick⟩ member same
  exact unturned tick (of_decide_eq_true same ▸ member)

def launch (timed : Timed σ) (task : TaskId) (tick : Tick) (recipe : Recipe σ) : Start σ :=
  let flow := timed.sim.flows.phases.size + 1
  ⟨task, tick, flow, some (.active (Flow.ofRecipe flow recipe none false tick))⟩

theorem stepTask_ok (done : stepTasks.stepTask tick id timed = .ok () after) :
    ∃ recipe?, TaskTable.tick id timed.sim.tasks = .ok recipe? after.sim.tasks ∧
      after.turns = timed.turns ∧
      after.starts = timed.starts ++ (recipe?.map (timed.launch id tick)).toList ∧
      after.sim.flows = recipe?.elim timed.sim.flows fun recipe =>
        (timed.sim.flows.create recipe none false tick).2 := by
  unfold stepTasks.stepTask Simulation.stepTasks.stepTask at done
  cases ticked : TaskTable.tick id timed.sim.tasks with
  | error e tasks =>
      simp only [ticked] at done
      cases done
  | ok recipe? tasks =>
      cases recipe? with
      | none =>
          simp only [ticked] at done
          injection done with _ same
          subst same
          exact ⟨none, rfl, rfl, by simp, rfl⟩
      | some recipe =>
          simp only [ticked] at done
          injection done with _ same
          subst same
          have grown : (timed.sim.flows.create recipe none false tick).2.phases.size =
              timed.sim.flows.phases.size + 1 := by simp [create]
          exact ⟨some recipe, rfl, rfl, by simp [grown, launch, find?_create], rfl⟩

theorem Fresh.create (fresh : Fresh tick stepped timed start) (turns : after.turns = timed.turns)
    (flows : after.sim.flows = (timed.sim.flows.create recipe none false tick).2) :
    Fresh tick stepped after start where
  tick := fresh.tick
  active := by
    obtain ⟨flow, found, unstepped⟩ := fresh.active
    have inside := (le_size_of_find? found).2
    refine ⟨flow, ?_, unstepped⟩
    rw [flows, find?_create, if_neg (by omega)]
    exact found
  unlisted parent := by
    rw [flows, dependencies_create]
    exact fresh.unlisted parent
  unturned := (firstTurn?_congr turns _).trans fresh.unturned

theorem Prompt.launch (prompt : Prompt tick stepped timed)
    (current : timed.sim.flows.Current stepped) (task : TaskId) (turns : after.turns = timed.turns)
    (flows : after.sim.flows = (timed.sim.flows.create recipe none false tick).2) :
    Fresh tick stepped after (timed.launch task tick recipe) where
  tick := rfl
  active := by
    refine ⟨_, by rw [flows]; exact (find?_create ..).trans (if_pos rfl), fun known => ?_⟩
    exact absurd (current.inside _ _ known) (Nat.not_succ_le_self _)
  unlisted parent member := by
    rw [flows, dependencies_create] at member
    exact absurd (prompt.listed parent _ member) (Nat.not_succ_le_self _)
  unturned := by
    rw [firstTurn?_congr turns]
    exact firstTurn?_eq_none fun tick member =>
      absurd (prompt.turned _ tick member) (Nat.not_succ_le_self _)

theorem Prompt.stepTask (prompt : Prompt tick stepped timed)
    (current : timed.sim.flows.Current stepped)
    (done : stepTasks.stepTask tick id timed = .ok () after) : Prompt tick stepped after := by
  obtain ⟨recipe?, -, turns, starts, flows⟩ := stepTask_ok done
  cases recipe? with
  | none =>
      have flows : after.sim.flows = timed.sim.flows := flows
      have starts : after.starts = timed.starts := by simpa using starts
      refine ⟨fun start member => ?_, turns ▸ flows ▸ prompt.turned, flows ▸ prompt.listed⟩
      rw [starts] at member
      rw [firstTurn?_congr turns]
      refine (prompt.begun start member).imp_right fun fresh => ?_
      exact ⟨fresh.tick, flows ▸ fresh.active, flows ▸ fresh.unlisted,
        (firstTurn?_congr turns _).trans fresh.unturned⟩
  | some recipe =>
      have flows : after.sim.flows = (timed.sim.flows.create recipe none false tick).2 := flows
      have grown : after.sim.flows.phases.size = timed.sim.flows.phases.size + 1 := by
        rw [flows]
        simp [create]
      constructor
      case begun =>
        intro start member
        rw [starts, Option.map_some, Option.toList_some, List.mem_append, List.mem_singleton] at member
        rcases member with old | rfl
        · rw [firstTurn?_congr turns]
          exact (prompt.begun start old).imp_right fun fresh => fresh.create turns flows
        · exact .inr (prompt.launch current id turns flows)
      case turned =>
        intro flow tick member
        have := prompt.turned flow tick (turns ▸ member)
        omega
      case listed =>
        intro parent child member
        rw [flows, dependencies_create] at member
        have := prompt.listed parent child member
        omega

theorem startsOf_stepTask {starts : List (Start σ)} (noted : after.starts = timed.starts ++ starts)
    (task : TaskId) : after.startsOf task = timed.startsOf task ++ starts.filter (·.task = task) := by
  rw [startsOf, startsOf, noted, List.filter_append]

theorem Records.stepTask_of_ne (records : Records booking elapsed timed) (apart : id ≠ booking.id)
    (done : stepTasks.stepTask tick id timed = .ok () after) : Records booking elapsed after := by
  obtain ⟨recipe?, ticked, -, starts, -⟩ := stepTask_ok done
  constructor
  · rw [TaskTable.find?_tick_of_ne ticked (Ne.symm apart)]
    exact records.task
  · have same : after.startsOf booking.id = timed.startsOf booking.id := by
      rw [startsOf_stepTask starts]
      cases recipe? <;> simp [launch, apart]
    rw [same]
    exact records.starts

theorem Records.stepTask_own (records : Records booking elapsed timed)
    (now : tick = booking.registeredAt + elapsed)
    (done : stepTasks.stepTask tick booking.id timed = .ok () after) :
    Records booking (elapsed + 1) after := by
  obtain ⟨recipe?, ticked, -, starts, -⟩ := stepTask_ok done
  obtain ⟨task, fires⟩ := booking.tick_ok records.task ticked
  refine ⟨task, ?_⟩
  rw [startsOf_stepTask starts]
  rcases fires with ⟨rfl, still⟩ | ⟨rfl, more, due⟩
  · rw [still]
    simpa using records.starts
  · rw [more, List.range'_1_concat, Nat.add_comm 1]
    refine List.rel_append records.starts ?_
    rw [← now] at due
    simp only [Option.map_some, Option.toList_some, launch, decide_true, List.filter_cons_of_pos,
      List.filter_nil]
    exact .cons ⟨due.symm, by rw [due]⟩ .nil

theorem stepTask_ages (done : stepTasks.stepTask tick id timed = .ok () after) :
    timed.sim.flows.Ages after.sim.flows := by
  obtain ⟨recipe?, -, -, -, flows⟩ := stepTask_ok done
  cases recipe? with
  | none =>
      rw [show after.sim.flows = timed.sim.flows from flows]
      exact (Settled.refl _ tick).ages
  | some recipe =>
      rw [show after.sim.flows = (timed.sim.flows.create recipe none false tick).2 from flows]
      exact ages_create ..

variable {ids : List TaskId}

theorem Prompt.stepTasks (prompt : Prompt tick stepped timed)
    (current : timed.sim.flows.Current stepped) (done : stepTasks tick ids timed = .ok () after) :
    Prompt tick stepped after := by
  induction ids generalizing timed with
  | nil =>
      obtain rfl := (pure_ok.1 done).2
      exact prompt
  | cons id ids ih =>
      obtain ⟨_, middle, first, rest⟩ := bind_ok.1 done
      exact ih (prompt.stepTask current first) (current.ages (stepTask_ages first)) rest

theorem Records.stepTasks (records : Records booking elapsed timed) (nodup : ids.Nodup)
    (now : booking.id ∈ ids → tick = booking.registeredAt + elapsed)
    (done : stepTasks tick ids timed = .ok () after) :
    Records booking (elapsed + if booking.id ∈ ids then 1 else 0) after := by
  induction ids generalizing timed elapsed with
  | nil =>
      obtain rfl := (pure_ok.1 done).2
      exact records
  | cons id ids ih =>
      obtain ⟨_, middle, first, rest⟩ := bind_ok.1 done
      obtain ⟨once, distinct⟩ := List.nodup_cons.1 nodup
      by_cases own : id = booking.id
      · subst own
        have later := ih (records.stepTask_own (now (List.mem_cons_self ..)) first) distinct
          (fun again => absurd again once) rest
        simpa [once] using later
      · have later := ih (records.stepTask_of_ne own first) distinct
          (fun member => now (List.mem_cons_of_mem _ member)) rest
        simpa [Ne.symm own] using later

theorem unlisted_of_ends {flow later other : Flow σ} {x : Nat} {before table : FlowTable σ}
    {boundary : Boundary σ} (ends : Simulation.Ends tick id flow later before boundary table)
    (found : before.find? id = some (.active flow)) (apart : x ≠ id)
    (active : before.find? x = some (.active other)) (unlisted : before.Unlisted x) :
    table.find? x = some (.active other) ∧ table.Unlisted x := by
  have inside := (le_size_of_find? active).2
  cases ends with
  | halt =>
      refine ⟨(find?_put_of_ne _ _ apart).trans active, fun parent member => ?_⟩
      rw [dependencies_put found] at member
      split at member
      next => cases member
      next => exact unlisted parent member
  | @await request caller cancelled table shapely resolved =>
      obtain ⟨-, others, -⟩ := awaiting_spec found later request caller tick
      have unlisted := unlisted.awaiting found inside later request caller tick
      exact ⟨unlisted.resolve ((others x apart inside).trans active) resolved,
        unlisted.settled (resolve_ok resolved).1⟩
  | complete resolved =>
      refine ⟨(unlisted.completing found _).resolve ?_ resolved,
        (unlisted.completing found _).settled (resolve_ok resolved).1⟩
      rw [find?_completing found, if_neg apart]
      exact active

variable [Coroutine σ]

def process (id : FlowId) (tick : Tick) : Engine (Timed σ) (List Report) := fun timed =>
  match Simulation.process id tick timed.sim with
  | .ok reports sim => .ok reports { timed with sim, turns := timed.turns ++ [(id, tick)] }
  | .error e sim => .error e { timed with sim }

def probe : Probe σ (Timed σ) where
  sim := sim
  change change timed := { timed with sim := change timed.sim }
  stepTasks := stepTasks
  process := process

omit [Coroutine σ] in
theorem stepTasks_mimics (tick : Tick) (ids : List TaskId) :
    Mimics (sim (σ := σ)) (fun _ => True) (stepTasks tick ids) (Simulation.stepTasks tick ids)
      (fun _ _ => True) fun _ _ => True := by
  induction ids with
  | nil => exact Mimics.pure fun _ _ => trivial
  | cons id ids ih =>
      have first : Mimics (sim (σ := σ)) (fun _ => True) (stepTasks.stepTask tick id)
          (Simulation.stepTasks.stepTask tick id) (fun _ _ => True) fun _ _ => True := by
        intro timed _
        unfold stepTasks.stepTask
        cases done : Simulation.stepTasks.stepTask tick id timed.sim with
        | ok result after => exact ⟨rfl, trivial⟩
        | error e after => exact ⟨rfl, trivial⟩
      exact first.bind fun _ => ih

theorem process_mimics (id : FlowId) (tick : Tick) (timed : Timed σ) :
    Mimics sim (· = timed) (process id tick) (Simulation.process id tick)
      (fun reports after => Simulation.process id tick timed.sim = .ok reports after.sim ∧
        after.starts = timed.starts ∧ after.turns = timed.turns ++ [(id, tick)]) fun _ _ => True := by
  intro state same
  subst same
  unfold process
  cases done : Simulation.process id tick state.sim with
  | ok reports after => exact ⟨rfl, rfl, rfl, rfl⟩
  | error e after => exact ⟨rfl, trivial⟩

theorem bounded_of_kept {contract : Contract σ} {sim : Simulation σ} (kept : contract.Kept sim)
    (parent : FlowId) (child : Nat) (member : child ∈ sim.flows.dependencies parent) :
    child ≤ sim.flows.phases.size := by
  obtain ⟨lineage, holds⟩ := kept
  have forest : sim.flows.Forest lineage [] := holds.orders.forest
  rw [forest.size]
  exact (Lineage.le_of_spawner (forest.owned parent child member)).2

omit [Coroutine σ] in
theorem firstTurn?_concat {flow : FlowId} (turns : after.turns = timed.turns ++ [(id, tick)]) :
    after.firstTurn? flow = (timed.firstTurn? flow).or (if id = flow then some tick else none) := by
  rw [firstTurn?, firstTurn?, turns, List.find?_append]
  by_cases own : id = flow <;> cases timed.turns.find? _ <;> simp [own]

variable {flow : Flow σ} {reports : List Report} {tasks : List TaskId}

theorem Prompt.turn (prompt : Prompt tick stepped timed) (kept : (any σ).Kept timed.sim)
    (kept' : (any σ).Kept after.sim) (found : timed.sim.flows.find? id = some (.active flow))
    (done : Simulation.process id tick timed.sim = .ok reports after.sim)
    (starts : after.starts = timed.starts) (turns : after.turns = timed.turns ++ [(id, tick)]) :
    Prompt tick (Coverage.note stepped (id, flow.activation)) after := by
  have ages := Simulation.process_ages kept found done
  obtain ⟨lineage, holds⟩ := kept
  obtain ⟨turn, boundary, later, memory, passes⟩ := Simulation.process_passes holds found done
  constructor
  case begun =>
    intro start member
    rw [starts] at member
    rw [firstTurn?_concat turns]
    rcases prompt.begun start member with turned | fresh
    · exact .inl (by rw [turned]; rfl)
    · rw [fresh.unturned]
      by_cases own : id = start.flow
      · left
        rw [Option.none_or, if_pos own, fresh.tick]
      · right
        obtain ⟨other, active, unstepped⟩ := fresh.active
        -- Nobody waits for a flow that a task has started, so that no race can take it along.
        obtain ⟨active', unlisted⟩ := unlisted_of_ends passes.ends found (Ne.symm own) active
          fresh.unlisted
        refine ⟨fresh.tick, ⟨other, active', fun known => ?_⟩, unlisted, ?_⟩
        · exact unstepped ((Function.update_of_ne (Ne.symm own) ..).symm.trans known)
        · rw [firstTurn?_concat turns, fresh.unturned, if_neg own]
          rfl
  case turned =>
    intro other at_tick member
    rw [turns, List.mem_append, List.mem_singleton] at member
    rcases member with old | new
    · exact Nat.le_trans (prompt.turned other at_tick old) ages.size
    · rw [(Prod.mk.inj new).1]
      exact Nat.le_trans (le_size_of_find? found).2 ages.size
  case listed => exact bounded_of_kept kept'

omit [Coroutine σ] in
theorem Prompt.pass (prompt : Prompt tick stepped timed) {activation : Nat}
    (moved : ∀ flow, timed.sim.flows.find? id = some (.active flow) →
      activation ≠ flow.activation) :
    Prompt tick (Coverage.note stepped (id, activation)) timed where
  begun start member := by
    refine (prompt.begun start member).imp_right fun fresh => ?_
    obtain ⟨flow, active, unstepped⟩ := fresh.active
    refine ⟨fresh.tick, ⟨flow, active, ?_⟩, fresh.unlisted, fresh.unturned⟩
    by_cases own : start.flow = id
    · rw [own] at active ⊢
      rw [show Coverage.note stepped (id, activation) id = some activation from
        Function.update_self ..]
      exact fun known => moved flow active (Option.some.inj known)
    · rwa [show Coverage.note stepped (id, activation) start.flow = stepped start.flow from
        Function.update_of_ne own ..]
  turned := prompt.turned
  listed := prompt.listed

/-- What holds in the tick that comes `elapsed` ticks after the one in which a task was registered;
`tasks` are the tasks that were stepped in it. -/
structure Underway (booking : Booking σ) (elapsed : Nat) (tasks : List TaskId)
    (stepped : FlowId → Option Nat) (timed : Timed σ) : Prop where
  kept : (any σ).Kept timed.sim
  prompt : Prompt (booking.registeredAt + elapsed) stepped timed
  records : Records booking (elapsed + if booking.id ∈ tasks then 1 else 0) timed

theorem Underway.launch {covered : Coverage}
    (underway : Underway booking elapsed covered.tasks stepped timed)
    (current : timed.sim.flows.Current stepped) (kept : (any σ).Kept after.sim)
    (done : stepTasks (booking.registeredAt + elapsed) (timed.sim.pendingTasks covered) timed =
      .ok () after) :
    Underway booking elapsed (timed.sim.pendingTasks covered ++ covered.tasks) stepped after where
  kept := kept
  prompt := underway.prompt.stepTasks current done
  records := by
    obtain ⟨lineage, holds⟩ := underway.kept
    have distinct : (timed.sim.pendingTasks covered).Nodup := holds.tasks.nodup_ids.filter _
    by_cases earlier : booking.id ∈ covered.tasks
    · -- Rounds repeat, but a task that an earlier one has stepped is not pending any more.
      have once : booking.id ∉ timed.sim.pendingTasks covered := by
        simp [Simulation.pendingTasks, earlier]
      have later := underway.records.stepTasks distinct (fun again => absurd again once) done
      simpa [earlier, once] using later
    · have records := underway.records
      rw [if_neg earlier] at records
      have later := records.stepTasks distinct (fun _ => rfl) done
      simpa [earlier] using later

theorem Underway.turn (underway : Underway booking elapsed tasks stepped timed)
    (found : timed.sim.flows.find? id = some (.active flow))
    (done : Simulation.process id (booking.registeredAt + elapsed) timed.sim = .ok reports after.sim)
    (starts : after.starts = timed.starts)
    (turns : after.turns = timed.turns ++ [(id, booking.registeredAt + elapsed)]) :
    Underway booking elapsed tasks (Coverage.note stepped (id, flow.activation)) after := by
  have kept := Simulation.process_kept id (booking.registeredAt + elapsed) timed.sim
    ⟨underway.kept, flow, found⟩
  rw [done] at kept
  obtain ⟨lineage, holds⟩ := underway.kept
  have turn := Simulation.process_turn holds found
    ((any σ).steady_any (booking.registeredAt + elapsed)) trivial
  rw [done] at turn
  refine ⟨kept, underway.prompt.turn underway.kept kept found done starts turns, ?_, ?_⟩
  · rw [turn.2.tasks]
    exact underway.records.task
  · rw [startsOf, starts]
    exact underway.records.starts

theorem Underway.done (underway : Underway booking elapsed tasks stepped timed)
    (all : ∀ id ∈ timed.sim.tasks.ids, id ∈ tasks) : Records booking (elapsed + 1) timed := by
  have records := underway.records
  by_cases own : booking.id ∈ tasks
  · rwa [if_pos own] at records
  · rw [if_neg own, Nat.add_zero] at records
    obtain ⟨lineage, holds⟩ := underway.kept
    have finished : (booking.task elapsed).schedule.isFinished = true := by
      by_contra unfinished
      refine own (all _ ((holds.tasks.mem_map_filter records.task _).2 ?_))
      simpa using unfinished
    obtain ⟨count, -⟩ := Plan.schedule_of_isFinished finished
    constructor
    · rw [Booking.task_of_isFinished finished]
      exact records.task
    · rw [count]
      exact records.starts

omit [Coroutine σ] in
theorem Prompt.done (prompt : Prompt tick stepped timed)
    (covered : Simulation.Covered stepped timed.sim.flows) (start : Start σ)
    (member : start ∈ timed.starts) : timed.firstTurn? start.flow = some start.tick := by
  rcases prompt.begun start member with turned | fresh
  · exact turned
  · obtain ⟨flow, active, unstepped⟩ := fresh.active
    exact absurd (covered _ flow active) unstepped

theorem covering (booking : Booking σ) (elapsed : Nat) :
    (probe (σ := σ)).Covering (booking.registeredAt + elapsed)
      (fun tasks stepped _ => Underway booking elapsed tasks stepped) fun _ _ => True where
  change _ _ := rfl
  tasks {covered stepped reports state} underway current := by
    refine ((stepTasks_mimics _ _).exact trivial).imp fun _ after known => ?_
    obtain ⟨done, plain, -⟩ := known
    obtain ⟨sim, plain', kept⟩ := Simulation.pendingTasks_ok underway.kept covered _
    obtain rfl : sim = after.sim := by
      have same := plain'.symm.trans plain
      injection same
    exact ⟨underway.launch current kept done, (Simulation.stepTasks_launches plain).ages⟩
  process {tasks stepped reports state id flow} underway current found unstepped := by
    refine (process_mimics id _ state).imp fun fresh after known => ?_
    obtain ⟨done, starts, turns⟩ := known
    exact ⟨underway.turn found done starts turns, Simulation.process_ages underway.kept found done⟩
  pass underway moved _ :=
    ⟨underway.kept, underway.prompt.pass fun flow found => (moved flow found).2, underway.records⟩
  stop _ _ := trivial

end Timed

end Cadence
