import Cadence.Proofs.Simulation.Diary
import Cadence.Proofs.Simulation.Reporting
/-!
Idleness. An idle simulation stays idle until something is started in it, and as long as a flow is
live, each tick that succeeds has something to show for it.
-/

namespace Cadence

variable {σ : Type}

open Contract Engine FlowTable

def Simulation.Operation.isLaunch : Simulation.Operation σ → Bool
  | spawn _ | timer _ _ _ | interval _ _ _ => true
  | register _ | setNode _ _ | addEffect _ _ | setLimits _ | tick | flush | reset | resetStacks => false

namespace Simulation

variable {sim after : Simulation σ} {report : TickReport} {id : Nat}

theorem isIdle_iff : sim.isIdle = true ↔
    (∀ id, sim.flows.isLive id = false) ∧ sim.tasks.scheduled = [] := by
  simp [isIdle, hasLive_eq_false]

variable [Coroutine σ]

theorem tick_idle (idle : sim.isIdle = true) :
    Simulation.tick sim = .ok ⟨sim.now, []⟩ { sim with now := sim.now + 1, journal := [] } := by
  obtain ⟨dead, unscheduled⟩ := isIdle_iff.1 idle
  have tasks : pendingTasks { sim with journal := [] } {} = [] := by
    simp [pendingTasks, TaskTable.ids, unscheduled]
  have flows : pendingFlows { sim with journal := [] } {} = [] := by
    have none : sim.flows.activations = [] := by
      rw [List.eq_nil_iff_forall_not_mem]
      rintro ⟨id, activation⟩ member
      obtain ⟨flow, found, -⟩ := mem_activations.1 member
      exact Bool.false_ne_true ((dead id).symm.trans (isLive_of_active found))
    simp [pendingFlows, none]
  have rounds : runRounds sim.now sim.limits.rounds sim.limits.rounds {} []
      { sim with journal := [] } = .ok [] { sim with journal := [] } := by
    unfold runRounds
    simp only [get_ok, tasks, flows]
    rfl
  show (do let reports ← runRounds sim.now sim.limits.rounds sim.limits.rounds {} []
           modify fun sim : Simulation σ => { sim with now := sim.now + 1 }
           return { tick := sim.now, reports } : Engine (Simulation σ) TickReport)
    { sim with journal := [] } = _
  exact bind_ok.2 ⟨_, _, rounds, rfl⟩

theorem Operation.apply_idle {operation : Simulation.Operation σ} (launchless : operation.isLaunch = false)
    (idle : sim.isIdle = true) : (operation.apply sim).isIdle = true := by
  cases operation with
  | spawn => cases launchless
  | timer => cases launchless
  | interval => cases launchless
  | tick =>
      simp only [apply, Engine.after, tick_idle idle]
      exact idle
  | reset => rfl
  | resetStacks => rfl
  | _ => exact idle

theorem tick_ends (kept : (any σ).Kept sim) (live : sim.flows.isLive id = true)
    (done : Simulation.tick sim = .ok report after) (dead : after.flows.isLive id = false) :
    report.reports ≠ [] := by
  obtain ⟨watched, -, -, complete⟩ := tick_complete kept done
  have reported := (tick_reports kept (.notActive 0)).2
  rw [done] at reported
  obtain ⟨ended, accounts⟩ := reported
  obtain ⟨flow, was⟩ := isLive_iff.1 live
  have unfinished : sim.flows.completed? id = none ∧ sim.flows.cancelled? id = none := by
    rcases live?_eq_some.1 was with found | ⟨wait, found⟩ <;> simp [completed?, cancelled?, found]
  intro unreported
  rw [unreported] at accounts
  cases found : after.flows.find? id with
  | none =>
      obtain ⟨phase, known⟩ := exists_of_isLive live
      cases (complete.lasts id found).symm.trans known
  | some phase =>
      cases phase with
      | active flow => cases dead.symm.trans (isLive_of_active found)
      | suspended flow wait => cases dead.symm.trans (isLive_of_suspended found)
      | completed done =>
          obtain ⟨member, -⟩ :=
            (accounts.completions.listed id done).1 ⟨completed?_eq_some.2 found, unfinished.1⟩
          have nothing := accounts.reported
          rw [List.filterMap_nil, eq_comm, List.map_eq_nil_iff] at nothing
          simp [nothing] at member
      | cancelled gone =>
          obtain ⟨member, -⟩ :=
            (accounts.cancellations.listed id gone).1 ⟨cancelled?_eq_some.2 found, unfinished.2⟩
          simp at member

theorem exists_active (kept : (any σ).Kept sim) (live : sim.flows.isLive id = true) :
    ∃ other flow, sim.flows.find? other = some (.active flow) := by
  obtain ⟨lineage, holds⟩ := kept
  obtain ⟨flow, was⟩ := isLive_iff.1 live
  rcases live?_eq_some.1 was with found | ⟨wait, found⟩
  · exact ⟨id, flow, found⟩
  · have progressing := holds.orders.forest.progressing holds.orders.resumable holds.unsettled
    obtain ⟨other, -, flow', active⟩ :=
      progressing.active id flow wait (suspended?_eq_some.2 found)
    exact ⟨other, flow', active?_eq_some.1 active⟩

omit [Coroutine σ] in
theorem responses_of_silent {watched : Watched σ}
    (silent : watched.stints.flatMap Stint.reports = []) (id : FlowId) : watched.responses id = [] := by
  have quiet : ∀ stint ∈ watched.stints, stint.results = [] := fun stint member => by
    rw [Stint.results, List.flatMap_eq_nil_iff.1 silent stint member, resultsOf, List.flatMap_nil]
  rw [Watched.responses, List.flatten_eq_nil_iff]
  intro result member
  obtain ⟨stint, member, seen⟩ := List.mem_flatMap.1 member
  rw [quiet stint (List.mem_of_mem_filter member)] at seen
  cases seen

theorem tick_produces (kept : (any σ).Kept sim) (live : sim.flows.isLive id = true)
    (done : Simulation.tick sim = .ok report after) :
    ∃ held, after.replay.results.map Report.unmark = sim.replay.results.map Report.unmark ++ held ∧
      (report.reports ≠ [] ∨ held ≠ []) := by
  obtain ⟨watched, -, same, fixed⟩ := tick_fixedPoint kept done
  obtain ⟨held, stored, split⟩ := fixed.divided
  rw [same] at stored
  refine ⟨held.map Report.unmark, by rw [stored, ReplayStore.results_foldl_hold], ?_⟩
  cases still : after.flows.isLive id with
  | false => exact .inl (tick_ends kept live done still)
  | true =>
      have kept' : (any σ).Kept after := by
        obtain ⟨lineage, holds⟩ := kept
        have ticked := holds.ticks 1
        rwa [Function.iterate_one, Engine.after, done] at ticked
      obtain ⟨other, flow, found⟩ := exists_active kept' still
      obtain ⟨address, covered, total, last⟩ := fixed.halted other flow (same ▸ found)
      rw [← not_and_or]
      rintro ⟨unreported, nothing⟩
      rw [unreported, nothing] at split
      have silent : watched.stints.flatMap Stint.reports = [] := by
        generalize watched.stints.flatMap Stint.reports = whole at split
        cases split
        rfl
      rw [responses_of_silent silent] at last
      cases last

/--
Idleness is exact. An idle session stays idle until something is started, its ticks succeed with
nothing to report and hold nothing back, and in a session that has a live flow a tick that succeeds
reports something or holds something back.
-/
theorem idleness_is_exact (limits : Limits) (operations : List (Simulation.Operation σ)) :
    ((session limits operations).isIdle = true →
      ∀ more : List (Simulation.Operation σ), (∀ operation ∈ more, operation.isLaunch = false) →
        let later := session limits (operations ++ more)
        later.isIdle = true ∧ Simulation.tick later =
          .ok ⟨later.now, []⟩ { later with now := later.now + 1, journal := [] }) ∧
    ∀ id, (session limits operations).flows.isLive id = true →
      ∀ report after, Simulation.tick (session limits operations) = .ok report after →
        ∃ held, after.replay.results.map Report.unmark =
            (session limits operations).replay.results.map Report.unmark ++ held ∧
          (report.reports ≠ [] ∨ held ≠ []) := by
  refine ⟨fun idle more launchless => ?_, fun id live report after done => ?_⟩
  · have still : (session limits (operations ++ more)).isIdle = true := by
      rw [session, List.foldl_append]
      exact List.foldlRecOn (motive := fun sim : Simulation σ => sim.isIdle = true) more _ idle
        fun sim idle operation member => Operation.apply_idle (launchless operation member) idle
    exact ⟨still, tick_idle still⟩
  · exact tick_produces (session_kept limits operations) live done

theorem race_runs_until_it_is_idle :
    (∃ report after held, Simulation.tick (session {} raceBeforeFinish) = .ok report after ∧
      after.replay.results.map Report.unmark =
        (session {} raceBeforeFinish).replay.results.map Report.unmark ++ held ∧
      (report.reports ≠ [] ∨ held ≠ [])) ∧
    let operations := raceBeforeFinish ++ [.tick]
    let later := session {} (operations ++ [.tick, .flush])
    (session {} operations).isIdle = true ∧ later.isIdle = true ∧ Simulation.tick later =
      .ok ⟨later.now, []⟩ { later with now := later.now + 1, journal := [] } := by
  refine ⟨?_, ?_⟩
  · obtain ⟨report, after, done⟩ := Engine.succeeds_iff.1
      (show Engine.succeeds Simulation.tick (session {} raceBeforeFinish) = true by decide +kernel)
    obtain ⟨held, told, some⟩ := (idleness_is_exact {} raceBeforeFinish).2 1
      (show (session {} raceBeforeFinish).flows.isLive 1 = true by decide +kernel) report after done
    exact ⟨report, after, held, done, told, some⟩
  · intro operations later
    have idle : (session {} operations).isIdle = true := by decide +kernel
    exact ⟨idle, (idleness_is_exact {} operations).1 idle [.tick, .flush] (by decide)⟩

end Simulation

end Cadence
