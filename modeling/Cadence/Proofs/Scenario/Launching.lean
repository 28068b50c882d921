import Cadence.Proofs.Scenario.Install
/-!
# Launching

Launches take the next free numbers, flows and tasks each in a row of their own, and what was there
before keeps its number.
-/

namespace Cadence.Scenario

variable {σ : Type}

def Launch.isEntry : Launch → Bool
  | .entry _ _ => true
  | .timer _ | .interval _ => false

def Launch.Started (launch : Launch) (id : Nat) (recipe : Recipe σ) (sim : Simulation σ) : Prop :=
  match launch with
  | .entry _ _ => sim.flows.find? id = some (.active (Flow.ofRecipe id recipe none false sim.now))
  | .timer t => sim.tasks.find? id = some
      { id, name := t.name, schedule := .ofTimer t.after, registeredAt := sim.now, recipe }
  | .interval i => sim.tasks.find? id = some
      { id, name := i.name, schedule := .ofInterval i.every, registeredAt := sim.now, recipe }

def Launch.Runs (launch : Launch) (id : Nat) (wrap : Invocation → σ) (program : Program)
    (sim : Simulation σ) : Prop :=
  ∃ target, program.resolve launch.call.service launch.call.method = some target ∧
    launch.Started id ((program.recipe target launch.call.args).map wrap) sim

namespace Installation

def ids (done : Installation σ) (entry : Bool) : List Nat :=
  if entry then done.bundle.entryFlows else done.bundle.tasks

def count (done : Installation σ) (entry : Bool) : Nat :=
  if entry then done.simulation.flows.phases.size else done.simulation.tasks.tasks.length

structure Precedes (before after : Installation σ) : Prop where
  failure : after.failure = before.failure
  program : after.bundle.program = before.bundle.program
  heap : after.simulation.heap = before.simulation.heap
  now : after.simulation.now = before.simulation.now
  flows : ∀ id phase, before.simulation.flows.find? id = some phase →
    after.simulation.flows.find? id = some phase
  tasks : ∀ id task, before.simulation.tasks.find? id = some task →
    after.simulation.tasks.find? id = some task

variable {before middle after done : Installation σ} {launch : Launch} {recipe : Recipe σ}

theorem Precedes.refl (done : Installation σ) : done.Precedes done :=
  ⟨rfl, rfl, rfl, rfl, fun _ _ found => found, fun _ _ found => found⟩

theorem Precedes.trans (earlier : before.Precedes middle) (later : middle.Precedes after) :
    before.Precedes after where
  failure := later.failure.trans earlier.failure
  program := later.program.trans earlier.program
  heap := later.heap.trans earlier.heap
  now := later.now.trans earlier.now
  flows id phase found := later.flows id phase (earlier.flows id phase found)
  tasks id task found := later.tasks id task (earlier.tasks id task found)

theorem Precedes.started {id : Nat} (precedes : before.Precedes after)
    (started : launch.Started id recipe before.simulation) :
    launch.Started id recipe after.simulation := by
  unfold Launch.Started at started ⊢
  rw [precedes.now]
  cases launch with
  | entry number call => exact precedes.flows _ _ started
  | timer t => exact precedes.tasks _ _ started
  | interval i => exact precedes.tasks _ _ started

theorem precedes_schedule (done : Installation σ) (name : String) (schedule : Schedule)
    (recipe : Recipe σ) (bundle : Bundle) (same : bundle.program = done.bundle.program) :
    done.Precedes
      { done with simulation := (done.simulation.schedule name schedule recipe).2, bundle } :=
  ⟨rfl, same, rfl, rfl, fun _ _ found => found,
    fun _ _ found => TaskTable.find?_add found name schedule recipe done.simulation.now⟩

theorem find?_schedule (sim : Simulation σ) (name : String) (schedule : Schedule)
    (recipe : Recipe σ) :
    (sim.schedule name schedule recipe).2.tasks.find? (sim.tasks.tasks.length + 1) =
      some { id := sim.tasks.tasks.length + 1, name, schedule, registeredAt := sim.now, recipe } := by
  simp [Simulation.schedule, TaskTable.add, TaskTable.find?]

theorem start_spec (launch : Launch) (recipe : Recipe σ) (done : Installation σ) :
    done.Precedes (launch.start recipe done) ∧
      launch.Started (done.count launch.isEntry + 1) recipe (launch.start recipe done).simulation ∧
      ∀ entry, (launch.start recipe done).ids entry = done.ids entry ++
          (if launch.isEntry = entry then [done.count entry + 1] else []) ∧
        (launch.start recipe done).count entry =
          done.count entry + if launch.isEntry = entry then 1 else 0 := by
  cases launch with
  | entry number call =>
      refine ⟨⟨rfl, rfl, rfl, rfl, fun id phase found => ?_, fun _ _ found => found⟩, ?_, ?_⟩
      · have inside := (FlowTable.le_size_of_find? found).2
        exact (FlowTable.find?_create ..).trans ((if_neg (by omega)).trans found)
      · exact (FlowTable.find?_create ..).trans (if_pos rfl)
      · rintro (_ | _)
        · exact ⟨(List.append_nil _).symm, rfl⟩
        · exact ⟨rfl, by simp [Launch.start, Launch.isEntry, count, Simulation.spawn, FlowTable.create]⟩
  | timer t =>
      refine ⟨precedes_schedule done t.name (.ofTimer t.after) recipe _ rfl,
        find?_schedule done.simulation t.name (.ofTimer t.after) recipe, ?_⟩
      rintro (_ | _)
      · exact ⟨rfl, by simp [Launch.start, Launch.isEntry, count, Simulation.schedule, TaskTable.add]⟩
      · exact ⟨(List.append_nil _).symm, rfl⟩
  | interval i =>
      refine ⟨precedes_schedule done i.name (.ofInterval i.every) recipe _ rfl,
        find?_schedule done.simulation i.name (.ofInterval i.every) recipe, ?_⟩
      rintro (_ | _)
      · exact ⟨rfl, by simp [Launch.start, Launch.isEntry, count, Simulation.schedule, TaskTable.add]⟩
      · exact ⟨(List.append_nil _).symm, rfl⟩

structure Launched (wrap : Invocation → σ) (launches : List Launch) (before after : Installation σ) :
    Prop where
  precedes : before.Precedes after
  ids : ∀ entry, after.ids entry = before.ids entry ++
    List.range' (before.count entry + 1) (launches.filter (·.isEntry = entry)).length
  runs : ∀ entry, List.Forall₂
    (fun launch id => launch.Runs id wrap before.bundle.program after.simulation)
    (launches.filter (·.isEntry = entry))
    (List.range' (before.count entry + 1) (launches.filter (·.isEntry = entry)).length)

theorem Launched.cons {wrap : Invocation → σ} {launches : List Launch} {target : Target}
    (found : before.bundle.program.resolve launch.call.service launch.call.method = some target)
    (rest : Launched wrap launches
      (launch.start ((before.bundle.program.recipe target launch.call.args).map wrap) before) after) :
    Launched wrap (launch :: launches) before after := by
  obtain ⟨precedes, started, counts⟩ :=
    start_spec launch ((before.bundle.program.recipe target launch.call.args).map wrap) before
  have runs : launch.Runs (before.count launch.isEntry + 1) wrap before.bundle.program
      after.simulation := ⟨target, found, rest.precedes.started started⟩
  refine ⟨precedes.trans rest.precedes, fun entry => ?_, fun entry => ?_⟩
  · rw [rest.ids entry, (counts entry).1, (counts entry).2]
    by_cases same : launch.isEntry = entry
    · simp [same, List.range'_succ]
    · simp [same]
  · have runs' := rest.runs entry
    rw [precedes.program, (counts entry).2] at runs'
    by_cases same : launch.isEntry = entry
    · rw [List.filter_cons_of_pos (by simpa using same), List.length_cons, List.range'_succ]
      rw [if_pos same] at runs'
      exact .cons (same ▸ runs) runs'
    · rw [List.filter_cons_of_neg (by simpa using same)]
      rwa [if_neg same] at runs'

theorem launched_launchAll {scenario : Scenario} {launches : List Launch} (wrap : Invocation → σ)
    (declared : ∀ launch ∈ launches, scenario.Reaches launch.call)
    (reached : ∀ launch ∈ launches, done.bundle.program.Reaches launch.call) :
    Launched wrap launches done (scenario.launchAll wrap launches done) := by
  induction launches generalizing done with
  | nil =>
      exact ⟨.refl done, fun _ => (List.append_nil _).symm, fun _ => .nil⟩
  | cons launch launches ih =>
      obtain ⟨target, warnings, found, next⟩ := launchAll_cons launches wrap
        (declared launch (List.mem_cons_self ..)) (reached launch (List.mem_cons_self ..))
      let warned : Installation σ := { done with warnings }
      let recipe : Recipe σ := (warned.bundle.program.recipe target launch.call.args).map wrap
      have same := (start_spec launch recipe warned).1.program
      have rest : Launched wrap launches (launch.start recipe warned)
          (scenario.launchAll wrap launches (launch.start recipe warned)) := by
        refine ih (fun other member => declared other (List.mem_cons_of_mem _ member))
          fun other member => ?_
        rw [same]
        exact reached other (List.mem_cons_of_mem _ member)
      have all : Launched wrap (launch :: launches) warned
          (scenario.launchAll wrap launches (launch.start recipe warned)) := .cons found rest
      rw [next]
      exact ⟨⟨all.precedes.failure, all.precedes.program, all.precedes.heap, all.precedes.now,
        all.precedes.flows, all.precedes.tasks⟩, all.ids, all.runs⟩

theorem launchAll_keeps (scenario : Scenario) (wrap : Invocation → σ) (launches : List Launch)
    (done : Installation σ) :
    (scenario.launchAll wrap launches done).simulation.heap = done.simulation.heap ∧
      (scenario.launchAll wrap launches done).bundle.program = done.bundle.program := by
  induction launches generalizing done with
  | nil => exact ⟨rfl, rfl⟩
  | cons launch launches ih =>
      unfold launchAll
      dsimp only
      split
      · exact ⟨rfl, rfl⟩
      · split
        · exact ⟨rfl, rfl⟩
        · obtain ⟨heap, program⟩ := ih (launch.start _ _)
          obtain ⟨precedes, -⟩ := start_spec launch _ _
          exact ⟨heap.trans precedes.heap, program.trans precedes.program⟩

end Installation

end Cadence.Scenario
