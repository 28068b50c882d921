import Cadence.Proofs.Simulation.Diary
import Cadence.Proofs.Simulation.Routing
/-!
What a session holds back. Since the store was last emptied it has one report for each tick in which
anything was held back, and in these reports exactly the results that were.
-/

namespace Cadence

open Contract Engine

variable {σ : Type} [Coroutine σ]

namespace Noted

/-- An operation with a note of each result that it routes. Emptying the store starts afresh. -/
def apply (operation : Simulation.Operation σ) (noted : Noted (Simulation σ)) :
    Noted (Simulation σ) :=
  match operation with
  | .tick =>
    let ticked := probe.tick.after ⟨noted.state, []⟩
    ⟨ticked.state, noted.routings ++ ticked.routings⟩
  | .flush | .reset | .resetStacks => ⟨operation.apply noted.state, []⟩
  | operation => ⟨operation.apply noted.state, noted.routings⟩

def session (limits : Limits) (operations : List (Simulation.Operation σ)) :
    Noted (Simulation σ) :=
  operations.foldl (fun noted operation => apply operation noted)
    ⟨Simulation.withLimits limits, []⟩

structure Buffers (noted : Noted (Simulation σ)) : Prop where
  kept : (any σ).Kept noted.state
  orderly : noted.state.replay.Orderly noted.state.now (heldBack noted.routings)

omit [Coroutine σ] in
theorem heldBack_append (routings more : List Routing) :
    heldBack (routings ++ more) = heldBack routings ++ heldBack more := by
  simp [heldBack]

variable {noted : Noted (Simulation σ)}

theorem Buffers.tick (buffers : Buffers noted) :
    (apply .tick noted).state = Simulation.Operation.tick.apply noted.state ∧
      Buffers (apply .tick noted) := by
  have kept := Simulation.Operation.tick.apply_kept buffers.kept
  have clock := Simulation.tick_clock buffers.kept
  have accounts := tick_accounts buffers.kept
  simp only [apply, Simulation.Operation.apply, Engine.after] at kept ⊢
  cases done : (probe (σ := σ)).tick ⟨noted.state, []⟩ with
  | ok report after =>
      rw [done] at accounts
      rw [accounts.1] at kept clock
      simp only [accounts.1]
      have orderly := (buffers.orderly.foldl_hold (heldBack after.routings)).mono
        (Nat.le_add_right noted.state.now 1)
      rw [← accounts.2.held, ← heldBack_append, ← clock] at orderly
      exact ⟨trivial, kept, orderly⟩
  | error e after =>
      rw [done] at accounts
      rw [accounts.1] at kept clock
      simp only [accounts.1]
      -- The clock stands still, so that another try goes on in the report of this one.
      have orderly := buffers.orderly.foldl_hold (heldBack after.routings)
      rw [← accounts.2, ← heldBack_append, ← clock] at orderly
      exact ⟨trivial, kept, orderly⟩

theorem Buffers.apply (operation : Simulation.Operation σ) (buffers : Buffers noted) :
    (apply operation noted).state = operation.apply noted.state ∧
      Buffers (apply operation noted) := by
  have kept := operation.apply_kept buffers.kept
  cases operation with
  | tick => exact buffers.tick
  | flush => exact ⟨rfl, kept, ReplayStore.orderly_empty _⟩
  | reset => exact ⟨rfl, kept, ReplayStore.orderly_empty _⟩
  | resetStacks => exact ⟨rfl, kept, ReplayStore.orderly_empty _⟩
  | register | setNode | spawn | timer | interval | addEffect | setLimits =>
      exact ⟨rfl, kept, buffers.orderly⟩

theorem session_buffers (limits : Limits) (operations : List (Simulation.Operation σ)) :
    (session limits operations).state = Simulation.session limits operations ∧
      Buffers (session limits operations) := by
  have kept : (any σ).Kept (Simulation.session limits ([] : List (Simulation.Operation σ))) :=
    Simulation.session_kept limits []
  exact Simulation.foldl_beside (fun operation _ buffers => buffers.apply operation) operations
    ⟨kept, ReplayStore.orderly_empty _⟩

end Noted

namespace Simulation

theorem marked_of_heldBack {routings : List Routing} {result : Report}
    (member : result ∈ (heldBack routings).map Report.markAutoPop) :
    result.isYielded = true ∧ ∀ response ∈ result.responses, response.isAutoPop = true := by
  obtain ⟨_, held, rfl⟩ := List.mem_map.1 member
  obtain ⟨routing, -, rfl⟩ := List.mem_map.1 held
  refine ⟨rfl, fun response inside => ?_⟩
  obtain ⟨plain, -, rfl⟩ := List.mem_map.1 inside
  rfl

theorem unmarked_of_surfacing {effects : EffectTable} {tick : Tick} {before replay : ReplayStore}
    {told : List Report} {heap : Heap} {routings : List Routing}
    (accounts : Accounts effects tick before told heap replay routings) {result : Report}
    (member : result ∈ told) : ∀ response ∈ result.responses, response.isAutoPop = false := by
  cases result with
  | constructed flow name value cancelled => simp [Report.responses]
  | yielded flow name responses =>
      have surfaced : Report.yielded flow name responses ∈ surfacing routings := by
        rw [← accounts.told]
        exact List.mem_filter.2 ⟨member, rfl⟩
      obtain ⟨routing, noted, same⟩ := List.mem_map.1 surfaced
      have issued := (accounts.decided routing (List.mem_filter.1 noted).1).issued
      rw [← same]
      exact fun response inside => (issued response inside).2

/--
A tick puts each result of a step in one place: it is held back and marked if there is one effect
around everything that it touches, and else it is told as it is. Completed flows are always told.
-/
theorem buffering_is_exact (limits : Limits) (operations : List (Operation σ)) {report : TickReport}
    {after : Simulation σ} (done : Simulation.tick (session limits operations) = .ok report after) :
    let sim := session limits operations
    ∃ routings, Noted.probe.tick ⟨sim, []⟩ = .ok report ⟨after, routings⟩ ∧
      (∀ routing ∈ routings, routing.responses ≠ [] ∧
        (routing.held = true ↔ sim.effects.Encloses after.heap routing.responses)) ∧
      report.reports.filter Report.isYielded = surfacing routings ∧
      (∀ result ∈ report.reports, ∀ response ∈ result.responses, response.isAutoPop = false) ∧
      after.replay.results = sim.replay.results ++ (heldBack routings).map Report.markAutoPop ∧
      ∀ result ∈ after.replay.results, result.isYielded = true ∧
        ∀ response ∈ result.responses, response.isAutoPop = true := by
  intro sim
  have kept : (any σ).Kept sim := session_kept limits operations
  obtain ⟨state, buffers⟩ := Noted.session_buffers limits operations
  have orderly := buffers.orderly
  rw [state] at orderly
  have accounts := Noted.tick_accounts kept
  cases noting : (Noted.probe (σ := σ)).tick ⟨sim, []⟩ with
  | error e noted =>
      rw [noting, done] at accounts
      cases accounts.1
  | ok told noted =>
      rw [noting, done] at accounts
      obtain ⟨same, accounts⟩ := accounts
      injection same with same same'
      subst same same'
      have results := (orderly.foldl_hold (heldBack noted.routings)).results
      rw [← accounts.held, ← Noted.heldBack_append] at results
      refine ⟨noted.routings, rfl, ?_, accounts.told, ?_, ?_, ?_⟩
      · intro routing member
        have decided := accounts.decided routing member
        refine ⟨decided.some, ?_⟩
        rw [← EffectTable.isInternal_iff decided.some, decided.routed, Except.ok.injEq]
      · exact fun result member => unmarked_of_surfacing accounts member
      · rw [results, orderly.results, Noted.heldBack_append, List.map_append]
      · intro result member
        rw [results] at member
        exact marked_of_heldBack member

def workersApart : List (Operation Playback) :=
  let worker (object : String) : List PlaybackMove :=
    [.load ⟨object, 0⟩ [] false, .halt ⟨object, 0⟩ 1 1]
  workerInEffect ++ [.register { className := "Worker", fields := [] },
    .spawn (Playback.recipe "inside" [] (worker "2b2a14d215455d3ce50cfc5c2ae1d125_1")),
    .spawn (Playback.recipe "outside" [] (worker "2b2a14d215455d3ce50cfc5c2ae1d125_2"))]

theorem workers_apart :
    (Noted.probe.tick.after ⟨session {} workersApart, []⟩).routings.map Routing.held =
        [true, true, false, false] ∧
      ∃ report after routings, Simulation.tick (session {} workersApart) = .ok report after ∧
        Noted.probe.tick ⟨session {} workersApart, []⟩ = .ok report ⟨after, routings⟩ ∧
        report.reports.filter Report.isYielded = surfacing routings ∧
        after.replay.results = (heldBack routings).map Report.markAutoPop := by
  have started : succeeds Simulation.tick (session {} workersApart) = true := by decide +kernel
  obtain ⟨report, after, done⟩ := succeeds_iff.1 started
  obtain ⟨routings, noted, -, told, -, held, -⟩ := buffering_is_exact {} workersApart done
  exact ⟨by decide +kernel, report, after, routings, done, noted, told, held⟩

end Simulation

end Cadence
