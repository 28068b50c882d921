import Cadence.Proofs.Simulation.Firing
/-!
Timers and intervals in a session. From when it is registered a task starts its flows in the ticks in
which they are due, whatever else goes on, as long as every tick succeeds.
-/

namespace Cadence

open Contract Engine FlowTable

variable {σ : Type}

namespace Simulation

/-- A tick that succeeds, or an operation after which flows and tasks go on as before. -/
def Operation.isSteady [Coroutine σ] (sim : Simulation σ) : Operation σ → Bool
  | .tick => Engine.succeeds Simulation.tick sim
  | .reset | .resetStacks => false
  | _ => true

def undisturbed [Coroutine σ] : Simulation σ → List (Operation σ) → Bool
  | _, [] => true
  | sim, operation :: operations =>
    operation.isSteady sim && undisturbed (operation.apply sim) operations

end Simulation

namespace Timed

variable [Coroutine σ] {booking : Booking σ} {elapsed : Nat} {timed : Timed σ}

/-- An operation with notes. Where flows and tasks are forgotten, the notes on them are so too. -/
def apply (operation : Simulation.Operation σ) (timed : Timed σ) : Timed σ :=
  match operation with
  | .tick => probe.tick.after timed
  | .reset | .resetStacks => ⟨operation.apply timed.sim, [], []⟩
  | operation => { timed with sim := operation.apply timed.sim }

def since (sim : Simulation σ) (operations : List (Simulation.Operation σ)) : Timed σ :=
  operations.foldl (fun timed operation => apply operation timed) ⟨sim, [], []⟩

structure OnSchedule (booking : Booking σ) (elapsed : Nat) (timed : Timed σ) : Prop where
  kept : (any σ).Kept timed.sim
  now : timed.sim.now = booking.registeredAt + elapsed
  records : Records booking elapsed timed
  begun : ∀ start ∈ timed.starts, timed.firstTurn? start.flow = some start.tick
  turned : ∀ (flow : Nat) tick, (flow, tick) ∈ timed.turns → flow ≤ timed.sim.flows.phases.size

theorem OnSchedule.underway (onSchedule : OnSchedule booking elapsed timed) :
    Underway booking elapsed [] (fun _ => none)
      (probe.change (fun sim => { sim with journal := [] }) timed) where
  kept := onSchedule.kept.unjournaled
  prompt := ⟨fun start member => .inl (onSchedule.begun start member), onSchedule.turned,
    bounded_of_kept onSchedule.kept.unjournaled⟩
  records := by
    rw [if_neg List.not_mem_nil]
    exact ⟨onSchedule.records.task, onSchedule.records.starts⟩

theorem OnSchedule.tick (onSchedule : OnSchedule booking elapsed timed)
    (succeeds : Engine.succeeds Simulation.tick timed.sim = true) :
    (apply .tick timed).sim = Simulation.Operation.tick.apply timed.sim ∧
      OnSchedule booking (elapsed + 1) (apply .tick timed) := by
  obtain ⟨report, sim, done⟩ := succeeds_iff.1 succeeds
  have kept := Simulation.Operation.tick.apply_kept onSchedule.kept
  have now := Simulation.tick_now onSchedule.kept done
  have covering := covering booking elapsed
  rw [← onSchedule.now] at covering
  have ticked := covering.tick
    (fun _ last => Records booking (elapsed + 1) last ∧
      (∀ start ∈ last.starts, last.firstTurn? start.flow = some start.tick) ∧
      ∀ (flow : Nat) tick, (flow, tick) ∈ last.turns → flow ≤ last.sim.flows.phases.size)
    onSchedule.underway
    (fun _ _ _ last underway covered all =>
      ⟨⟨(underway.done all).task, (underway.done all).starts⟩, underway.prompt.done covered,
        underway.prompt.turned⟩)
    timed rfl
  cases noting : (probe (σ := σ)).tick timed with
  | error e after =>
      rw [noting] at ticked
      cases done.symm.trans ticked.1
  | ok report' after =>
      rw [noting] at ticked
      obtain ⟨plain, -, records, begun, turned⟩ := ticked
      obtain rfl : sim = after.sim := by
        have same := done.symm.trans plain
        injection same
      have applied : Simulation.Operation.tick.apply timed.sim = after.sim := by
        simp only [Simulation.Operation.apply, Engine.after, done]
      have noted : apply .tick timed = after := by
        simp only [apply, Engine.after, noting]
      rw [onSchedule.now] at now
      rw [applied] at kept ⊢
      rw [noted]
      exact ⟨rfl, kept, now, records, begun, turned⟩

theorem OnSchedule.apply (onSchedule : OnSchedule booking elapsed timed)
    {operation : Simulation.Operation σ} (steady : operation.isSteady timed.sim = true) :
    (apply operation timed).sim = operation.apply timed.sim ∧
      ∃ elapsed, OnSchedule booking elapsed (apply operation timed) := by
  obtain ⟨kept, now, ⟨task, starts⟩, begun, turned⟩ := onSchedule
  have kept' := operation.apply_kept kept
  cases operation with
  | tick =>
      obtain ⟨same, goesOn⟩ := OnSchedule.tick ⟨kept, now, ⟨task, starts⟩, begun, turned⟩ steady
      exact ⟨same, elapsed + 1, goesOn⟩
  | reset => cases steady
  | resetStacks => cases steady
  | spawn recipe =>
      refine ⟨rfl, elapsed, kept', now, ⟨task, starts⟩, begun, fun flow tick member => ?_⟩
      refine Nat.le_trans (turned flow tick member) ?_
      simp [Timed.apply, Simulation.Operation.apply, Simulation.spawn, create]
  | timer name after recipe =>
      exact ⟨rfl, elapsed, kept', now, ⟨TaskTable.find?_add task .., starts⟩, begun, turned⟩
  | interval name every recipe =>
      exact ⟨rfl, elapsed, kept', now, ⟨TaskTable.find?_add task .., starts⟩, begun, turned⟩
  | register | setNode | addEffect | setLimits | flush =>
      exact ⟨rfl, elapsed, kept', now, ⟨task, starts⟩, begun, turned⟩

theorem OnSchedule.foldl (onSchedule : OnSchedule booking elapsed timed)
    {operations : List (Simulation.Operation σ)}
    (undisturbed : Simulation.undisturbed timed.sim operations = true) :
    (operations.foldl (fun timed operation => Timed.apply operation timed) timed).sim =
        operations.foldl (fun sim operation => operation.apply sim) timed.sim ∧
      ∃ elapsed, OnSchedule booking elapsed
        (operations.foldl (fun timed operation => Timed.apply operation timed) timed) := by
  induction operations generalizing timed elapsed with
  | nil => exact ⟨rfl, elapsed, onSchedule⟩
  | cons operation operations ih =>
      obtain ⟨steady, undisturbed⟩ := Bool.and_eq_true_iff.1 undisturbed
      obtain ⟨same, elapsed, onSchedule⟩ := onSchedule.apply steady
      rw [List.foldl_cons, List.foldl_cons, ← same]
      rw [← same] at undisturbed
      exact ih onSchedule undisturbed

end Timed

namespace Plan

def register (plan : Plan) (name : String) (recipe : Recipe σ) : Simulation.Operation σ :=
  match plan with
  | timer after => .timer name after recipe
  | interval every => .interval name every recipe

def book (plan : Plan) (name : String) (recipe : Recipe σ) (sim : Simulation σ) : Booking σ where
  id := (sim.schedule name plan.opening recipe).1
  name := name
  plan := plan
  recipe := recipe
  registeredAt := sim.now

theorem apply_register [Coroutine σ] (plan : Plan) (name : String) (recipe : Recipe σ)
    (sim : Simulation σ) : (plan.register name recipe).apply sim =
      (sim.schedule name plan.opening recipe).2 := by
  cases plan <;> rfl

theorem onSchedule_register [Coroutine σ] (plan : Plan) (name : String) (recipe : Recipe σ)
    {sim : Simulation σ} (kept : (any σ).Kept sim) :
    Timed.OnSchedule (plan.book name recipe sim) 0
      ⟨(plan.register name recipe).apply sim, [], []⟩ where
  kept := (plan.register name recipe).apply_kept kept
  now := by
    rw [apply_register]
    rfl
  records := by
    rw [apply_register]
    refine ⟨?_, by simp [book, Timed.startsOf]⟩
    simp [Simulation.schedule, TaskTable.add, TaskTable.find?, book, Booking.task, schedule_zero]
  begun := by simp
  turned := by simp

end Plan

namespace Simulation

theorem listed_of_find? {starts : σ → Prop} {sim : Simulation σ} {id : TaskId} {task : Task σ}
    (sound : sim.tasks.Sound starts) (found : sim.tasks.find? id = some task) :
    (id ∈ sim.entities.completedTasks.map TaskSummary.id ↔ task.schedule.isFinished = true) ∧
      (id ∈ sim.entities.scheduledTasks.map TaskSummary.id ↔ ¬ task.schedule.isFinished = true) ∧
      ∀ summary ∈ sim.entities.scheduledTasks ++ sim.entities.completedTasks, summary.id = id →
        summary = task.summary := by
  refine ⟨?_, ?_, fun summary member own => ?_⟩
  · rw [entities, List.map_map]
    exact sound.mem_map_filter found _
  · rw [entities, List.map_map]
    exact (sound.mem_map_filter found _).trans (by simp)
  · obtain ⟨known, listed, rfl⟩ : ∃ known ∈ sim.tasks.tasks, known.summary = summary := by
      simp only [entities, ← List.map_append, List.mem_map, List.mem_append, TaskTable.scheduled,
        TaskTable.completed, List.mem_filter] at member
      obtain ⟨known, listed, same⟩ := member
      exact ⟨known, listed.elim And.left And.left, same⟩
    have found' := sound.find?_of_mem listed
    rw [show known.id = id from own, found] at found'
    rw [Option.some.inj found']

/--
Tasks fire on schedule. From when it is registered a task starts its flows in the ticks in which
they are due and no others, each one as a root that has its first turn in that tick. The names of
these flows are on record with the task, and a timer has completed once it has started its flow.
-/
theorem tasks_fire_on_schedule [Coroutine σ] (limits : Limits)
    (earlier later : List (Operation σ)) (plan : Plan) (name : String) (recipe : Recipe σ)
    (steady : undisturbed (session limits (earlier ++ [plan.register name recipe])) later = true) :
    let booking := plan.book name recipe (session limits earlier)
    let sim := session limits (earlier ++ plan.register name recipe :: later)
    let timed := Timed.since (session limits (earlier ++ [plan.register name recipe])) later
    let fired := plan.count (sim.now - booking.registeredAt)
    timed.sim = sim ∧
      (∀ k, 0 < k → (k ≤ fired ↔ plan.Allows k ∧ booking.due k < sim.now)) ∧
      List.Forall₂ (Timed.Begins booking) (List.range' 1 fired) (timed.startsOf booking.id) ∧
      (∀ start ∈ timed.startsOf booking.id, timed.firstTurn? start.flow = some start.tick) ∧
      (booking.id ∈ sim.entities.completedTasks.map TaskSummary.id ↔ plan.Expired fired) ∧
      (booking.id ∈ sim.entities.scheduledTasks.map TaskSummary.id ↔ ¬ plan.Expired fired) ∧
      ∀ task ∈ sim.entities.scheduledTasks ++ sim.entities.completedTasks, task.id = booking.id →
        task.name = name ∧ task.spawned = (List.range' 1 fired).map (plan.flowName name) := by
  intro booking sim timed fired
  have begun : session limits (earlier ++ [plan.register name recipe]) =
      (plan.register name recipe).apply (session limits earlier) := by
    rw [session, List.foldl_append]
    rfl
  have split : sim = later.foldl (fun sim operation => operation.apply sim)
      (session limits (earlier ++ [plan.register name recipe])) := by
    rw [begun]
    simp only [sim, session, List.foldl_append, List.foldl_cons]
  have registered := plan.onSchedule_register name recipe (session_kept limits earlier)
  rw [← begun] at registered
  -- The invariant holds once the task is registered, and each later operation keeps it up.
  obtain ⟨same, elapsed, onSchedule⟩ := registered.foldl steady
  have same : timed.sim = sim := same.trans split.symm
  have onSchedule : Timed.OnSchedule booking elapsed timed := onSchedule
  have now := onSchedule.now
  rw [same] at now
  have count : fired = plan.count elapsed := by
    show plan.count (sim.now - booking.registeredAt) = plan.count elapsed
    rw [now, Nat.add_sub_cancel_left]
  obtain ⟨lineage, holds⟩ := onSchedule.kept
  have sound : sim.tasks.Sound (any σ).starts := same ▸ holds.tasks
  have task : sim.tasks.find? booking.id = some (booking.task elapsed) :=
    same ▸ onSchedule.records.task
  obtain ⟨completed, scheduled, listed⟩ := listed_of_find? sound task
  have finished : (booking.task elapsed).schedule.isFinished = true ↔ plan.Expired fired :=
    count ▸ plan.isFinished_schedule elapsed
  refine ⟨same, fun k positive => ?_, count ▸ onSchedule.records.starts, fun start member => ?_,
    completed.trans finished, scheduled.trans (not_congr finished), fun summary member own => ?_⟩
  · rw [count, now]
    exact plan.le_count_iff _ _ positive
  · exact onSchedule.begun start (List.mem_of_mem_filter member)
  · rw [listed summary member own, count]
    exact ⟨rfl, rfl⟩

def worker : Recipe Playback :=
  let here : Address := ⟨"2b2a14d215455d3ce50cfc5c2ae1d125_1", 0⟩
  Playback.recipe "worker" [] [.load here [] false, .halt here 1 1, .unload here (.int 7)]

/-- Four ticks, before the first of which a timer of no time at all is registered. -/
def fourTicks : List (Operation Playback) :=
  [.timer "once" 0 worker, .tick, .spawn worker, .tick, .flush, .tick, .tick]

theorem intervals_go_on :
    let earlier : List (Operation Playback) :=
      [.register { className := "Worker", fields := [] }, .tick]
    let begun := session {} (earlier ++ [(Plan.interval 2).register "beat" worker])
    let ended := session {} (earlier ++ (Plan.interval 2).register "beat" worker :: fourTicks)
    undisturbed begun fourTicks = true ∧
      ((Timed.since begun fourTicks).startsOf 1).map (fun start => (start.tick, start.flow)) =
        [(2, 3), (4, 4)] ∧
      ((Timed.since begun fourTicks).startsOf 2).map (fun start => (start.tick, start.flow)) =
        [(1, 1)] ∧
      ∀ task ∈ ended.entities.scheduledTasks, task.id = 1 → task.spawned = ["beat#1", "beat#2"] := by
  intro earlier begun ended
  have steady : undisturbed begun fourTicks = true := by decide +kernel
  obtain ⟨-, -, -, -, -, -, listed⟩ :=
    tasks_fire_on_schedule {} earlier fourTicks (.interval 2) "beat" worker steady
  refine ⟨steady, by decide +kernel, by decide +kernel, fun task member own => ?_⟩
  obtain ⟨-, spawned⟩ := listed task (List.mem_append_left _ member) own
  refine spawned.trans ?_
  decide +kernel

end Simulation

end Cadence
