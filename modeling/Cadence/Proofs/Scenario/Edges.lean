import Cadence.Proofs.Scenario.Run
import Cadence.Proofs.Simulation.Answers
/-!
The edges that the methods of a scenario draw: whatever is called or asked for is answered once.
-/

namespace Cadence.Scenario

variable {program : Program} {scenario : Scenario}

theorem Program.Sound.endsWithEntry (sound : program.Sound) : sound.contract.EndsWithEntry := by
  intro memory flow tick outcome top root installed sound' running records leaving done
  obtain ⟨outcome', done', -, moves⟩ := stepsOn sound installed sound'.shape running tick
  obtain rfl := Except.ok.inj (done'.symm.trans done)
  have running : Running program flow.stack.records flow.coroutine := running
  have left : ∃ value, Config.ofFlow flow = .hand value [] := by
    rw [records] at running
    generalize resumed : flow.coroutine = run at running
    cases running with
    | @loaded _ _ frame _ mirrors expects =>
        obtain ⟨frames, entered, callers⟩ := mirrors.callers
        have none : frames = [] := by
          cases callers with
          | entry => rfl
          | frame place waits callers => cases callers
        rcases expects with ⟨idle, -⟩ | ⟨⟨value, given⟩, -⟩ | ⟨returned, -⟩
        · simp [Stack.isLeaving, idle] at leaving
        · simp [Stack.isLeaving, given] at leaving
        · simp [Config.ofFlow, Config.of, records, returned, resumed, entered, none]
  obtain ⟨value, left⟩ := left
  rw [left] at moves
  generalize outcome'.boundary = boundary, Config.ofFlow _ = next at moves
  cases moves with
  | complete => exact ⟨_, _, rfl⟩

/-- In ticks that succeed, all that the flows of an installed scenario have produced surfaces or is
held back, and its edges are answered. -/
def AnswersEdges (scenario : Scenario) (limits : Limits) : Prop :=
  ∀ n reports after,
    let installed := (scenario.install id (Simulation.withLimits limits)).simulation
    Engine.times Simulation.tick n installed = .ok reports after →
    ∃ watched, Engine.times Watched.probe.tick n ⟨installed, [], []⟩ = .ok reports watched ∧
      watched.sim = after ∧
      Split (watched.stints.flatMap Stint.reports) (reports.flatMap TickReport.reports)
        (after.replay.results.map Report.unmark) ∧
      watched.EdgesAnswered

theorem valid_scenarios_answer_edges (valid : scenario.isValid = true) (limits : Limits) :
    scenario.AnswersEdges limits := by
  intro n reports after installed done
  obtain ⟨-, sound, lineage, holds⟩ := (sound_of_isValid valid).install_spec limits
  have unstepped := unstepped_install scenario limits
  have started : Watched.Recorded sound.contract {} [] ⟨installed, [], []⟩ :=
    ⟨⟨lineage, holds⟩, tells_nil unstepped.flows, [], by rw [unstepped.replay]; rfl, .nil⟩
  have watching := Watched.times_recorded sound.endsWithEntry {} n _ started
  cases watch : Engine.times Watched.probe.tick n ⟨installed, [], []⟩ with
  | error e watched =>
      rw [watch] at watching
      cases done.symm.trans watching.1
  | ok reports' watched =>
      rw [watch] at watching
      obtain ⟨plain, recorded⟩ := watching
      injection done.symm.trans plain with same same'
      subst same same'
      obtain ⟨held, stored, split⟩ := recorded.divided
      refine ⟨watched, rfl, rfl, ?_, recorded.edgesAnswered⟩
      rw [stored]
      exact split

theorem race_on_the_clock_answers_edges :
    let installed := (raceOnTheClock.install id
      (Simulation.withLimits { rounds := 5, steps := 30 })).simulation
    ∃ reports after watched, Engine.times Simulation.tick 5 installed = .ok reports after ∧
      ((reports.flatMap TickReport.reports).flatMap Report.responses).countP
        (fun response => response.traffic.isResolve) = 2 ∧
      Engine.times Watched.probe.tick 5 ⟨installed, [], []⟩ = .ok reports watched ∧
      watched.EdgesAnswered := by
  intro installed
  have counted : (match Engine.times Simulation.tick 5 installed with
      | .ok reports _ => ((reports.flatMap TickReport.reports).flatMap Report.responses).countP
          (fun response => response.traffic.isResolve)
      | .error _ _ => 0) = 2 := by decide +kernel
  cases done : Engine.times Simulation.tick 5 installed with
  | error e after =>
      rw [done] at counted
      cases counted
  | ok reports after =>
      rw [done] at counted
      obtain ⟨watched, watch, -, -, answered⟩ :=
        valid_scenarios_answer_edges (by decide) { rounds := 5, steps := 30 } 5 reports after done
      exact ⟨reports, after, watched, rfl, counted, watch, answered⟩

end Cadence.Scenario
