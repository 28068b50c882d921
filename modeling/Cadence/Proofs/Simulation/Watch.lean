import Cadence.Proofs.Simulation.Production
/-!
Ticks under watch: which tasks they step, and which turns their flows take up to a boundary, with
everything that these turns produce.
-/

namespace Cadence

open Engine

variable {σ : Type}

/-- A simulation, the turns that its flows have taken, and the tasks that were stepped. -/
structure Watched (σ : Type) where
  sim : Simulation σ
  stints : List Stint := []
  tasks : List TaskId := []

namespace Watched

def stepTasks (tick : Tick) : List TaskId → Engine (Watched σ) Unit
  | [] => return ()
  | id :: ids => do
    stepTask id
    stepTasks tick ids
where
  stepTask (id : TaskId) : Engine (Watched σ) Unit := fun watched =>
    match Simulation.stepTasks.stepTask tick id watched.sim with
    | .ok () sim => .ok () { watched with sim, tasks := watched.tasks ++ [id] }
    | .error e sim => .error e { watched with sim }

variable [Coroutine σ]

def process (id : FlowId) (tick : Tick) : Engine (Watched σ) (List Report) := fun watched =>
  match Simulation.process id tick watched.sim with
  | .ok reports sim =>
    .ok reports { watched with sim, stints := watched.stints ++ [watched.sim.stint id tick] }
  | .error e sim => .error e { watched with sim }

def probe : Probe σ (Watched σ) where
  sim := sim
  change change watched := { watched with sim := change watched.sim }
  stepTasks := stepTasks
  process := process

omit [Coroutine σ] in
theorem stepTasks_mimics (tick : Tick) (ids : List TaskId) (stints : List Stint)
    (tasks : List TaskId) :
    Mimics (sim (σ := σ)) (fun watched => watched.stints = stints ∧ watched.tasks = tasks)
      (stepTasks tick ids) (Simulation.stepTasks tick ids)
      (fun _ after => after.stints = stints ∧ after.tasks = tasks ++ ids) fun _ _ => True := by
  induction ids generalizing tasks with
  | nil => exact Mimics.pure fun watched same => by rwa [List.append_nil]
  | cons id ids ih =>
      have first : Mimics (sim (σ := σ))
          (fun watched => watched.stints = stints ∧ watched.tasks = tasks) (stepTasks.stepTask tick id)
          (Simulation.stepTasks.stepTask tick id)
          (fun _ after => after.stints = stints ∧ after.tasks = tasks ++ [id]) fun _ _ => True := by
        intro watched same
        unfold stepTasks.stepTask
        cases done : Simulation.stepTasks.stepTask tick id watched.sim with
        | ok result after => exact ⟨rfl, same.1, congrArg (· ++ [id]) same.2⟩
        | error e after => exact ⟨rfl, trivial⟩
      exact first.bind fun _ => by simpa using ih (tasks ++ [id])

theorem pendingTasks_mimics {contract : Contract σ} {watched : Watched σ}
    (kept : contract.Kept watched.sim) (covered : Coverage) (tick : Tick) :
    Mimics sim (· = watched) (stepTasks tick (watched.sim.pendingTasks covered))
      (Simulation.stepTasks tick (watched.sim.pendingTasks covered))
      (fun _ after =>
        Simulation.stepTasks tick (watched.sim.pendingTasks covered) watched.sim = .ok () after.sim ∧
        contract.Kept after.sim ∧ after.stints = watched.stints ∧
        after.tasks = watched.tasks ++ watched.sim.pendingTasks covered) fun _ _ => True := by
  refine ((stepTasks_mimics tick _ watched.stints watched.tasks).exact ⟨rfl, rfl⟩).imp
    fun _ after known => ?_
  obtain ⟨-, plain, stints, noted⟩ := known
  obtain ⟨sim, done, kept'⟩ := Simulation.pendingTasks_ok kept covered tick
  obtain rfl : sim = after.sim := by
    have same := done.symm.trans plain
    injection same
  exact ⟨plain, kept', stints, noted⟩

theorem process_mimics (id : FlowId) (tick : Tick) (watched : Watched σ) :
    Mimics sim (· = watched) (process id tick) (Simulation.process id tick)
      (fun reports after => Simulation.process id tick watched.sim = .ok reports after.sim ∧
        after.stints = watched.stints ++ [watched.sim.stint id tick] ∧
        after.tasks = watched.tasks) fun _ _ => True := by
  intro state same
  subst same
  unfold process
  cases done : Simulation.process id tick state.sim with
  | ok reports after => exact ⟨rfl, rfl, rfl, rfl⟩
  | error e after => exact ⟨rfl, trivial⟩

def responses (watched : Watched σ) (id : FlowId) : List Response :=
  ((watched.stints.filter (·.flow = id)).flatMap Stint.results).flatten

end Watched

namespace Simulation

structure Launches (ids : List TaskId) (before after : Simulation σ) : Prop where
  tasks : after.tasks = ids.foldl (fun table id => (TaskTable.tick id).after table) before.tasks
  ages : before.flows.Ages after.flows
  old : ∀ id : Nat, id ≤ before.flows.phases.size → after.flows.find? id = before.flows.find? id
  replay : after.replay = before.replay

variable {before middle after : Simulation σ} {ids : List TaskId} {tick : Tick}

theorem Launches.cons {id : TaskId} (first : Launches [id] before middle)
    (rest : Launches ids middle after) : Launches (id :: ids) before after where
  tasks := by
    rw [rest.tasks, first.tasks]
    rfl
  ages := first.ages.trans rest.ages
  old other inside :=
    (rest.old other (Nat.le_trans inside first.ages.size)).trans (first.old other inside)
  replay := rest.replay.trans first.replay

theorem stepTask_launches {id : TaskId} (done : stepTasks.stepTask tick id before = .ok () after) :
    Launches [id] before after := by
  unfold stepTasks.stepTask at done
  cases ticked : TaskTable.tick id before.tasks with
  | error e tasks =>
      rw [ticked] at done
      cases done
  | ok recipe? tasks =>
      have same : (TaskTable.tick id).after before.tasks = tasks := by
        unfold Engine.after
        rw [ticked]
      rw [ticked] at done
      cases recipe? with
      | none =>
          injection done with _ done
          subst done
          exact ⟨same.symm, ⟨Nat.le_refl _, fun _ flow _ live => ⟨flow, live, Nat.le_refl _⟩⟩,
            fun _ _ => rfl, rfl⟩
      | some recipe =>
          injection done with _ done
          subst done
          refine ⟨same.symm, FlowTable.ages_create .., fun other inside => ?_, rfl⟩
          rw [FlowTable.find?_create, if_neg (by omega)]

theorem stepTasks_launches (done : stepTasks tick ids before = .ok () after) :
    Launches ids before after := by
  induction ids generalizing before with
  | nil =>
      obtain rfl := (pure_ok.1 done).2
      exact ⟨rfl, ⟨Nat.le_refl _, fun _ flow _ live => ⟨flow, live, Nat.le_refl _⟩⟩, fun _ _ => rfl,
        rfl⟩
  | cons id ids ih =>
      obtain ⟨_, middle, first, rest⟩ := bind_ok.1 done
      exact (stepTask_launches first).cons (ih rest)

end Simulation

end Cadence
