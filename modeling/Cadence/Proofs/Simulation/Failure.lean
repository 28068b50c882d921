import Cadence.Proofs.Simulation.Session
/-!
The errors that a tick can run into. Coroutines can break their part of the protocol and exhaust the
budgets, but never bring the engine's own tables out of order, not even by making a tick fail.
-/

namespace Cadence

def EngineError.isInconsistency : EngineError → Bool
  | stackUnderflow _ | stackPeekOutOfRange _ _ _ | notActive _ | alreadySuspended _
  | cancelNotAlive _ | resumeWithoutSuspension _ | pageFault _ | unknownTask _ => true
  | _ => false

theorem EngineError.isInconsistency_eq (e : EngineError) :
    e.isInconsistency = !(e.isFault || e.isBudgetExhausted) := by
  cases e <;> rfl

/-- In every session, a tick fails only through a fault of a coroutine or an exhausted budget. -/
theorem Simulation.no_tick_is_inconsistent {σ : Type} [Coroutine σ] (limits : Limits)
    (operations : List (Simulation.Operation σ)) {e : EngineError} {after : Simulation σ}
    (failed : Simulation.tick (Simulation.session limits operations) = .error e after) :
    e.isInconsistency = false ∧ (e.isFault = true ∨ e.isBudgetExhausted = true) := by
  have ticked := Simulation.tick_spec (Tracked.session_holds limits operations)
  rw [Tracked.sim_session, failed] at ticked
  have stops : e.isFault = true ∨ e.isBudgetExhausted = true := ticked.1
  refine ⟨?_, stops⟩
  rw [e.isInconsistency_eq]
  rcases stops with fault | budget <;> simp [*]

def brokenTwice : List (Simulation.Operation Playback) :=
  [.spawn (Playback.recipe "main" [] [.fail "out of moves"]), .tick]

theorem Simulation.second_failure_is_consistent :
    (∃ after, Simulation.tick (Simulation.session {} brokenTwice) =
        .error (.missingUnload 1) after) ∧
      (EngineError.missingUnload 1).isInconsistency = false := by
  obtain ⟨after, failed⟩ : ∃ after, Simulation.tick (Simulation.session {} brokenTwice) =
      .error (.missingUnload 1) after := ⟨_, rfl⟩
  exact ⟨⟨after, failed⟩, (Simulation.no_tick_is_inconsistent {} brokenTwice failed).1⟩

end Cadence
