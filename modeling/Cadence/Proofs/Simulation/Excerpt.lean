import Cadence.Proofs.FlowTable.Agreement
import Cadence.Proofs.Simulation.Echo
import Cadence.Proofs.Simulation.Turn
/-!
A simulation beside one in which only some of its flows take part. The turn of a kept flow is taken
in both, and the turn of any other flow leaves the smaller simulation an excerpt of the larger one.
-/

namespace Cadence

open Contract Engine FlowTable

variable {σ : Type} {s : Selection} {tick : Tick} {id : Nat}

namespace Selection

def reports (s : Selection) (reports : List Report) : List Report :=
  (reports.filter fun report => s.kept report.flow).map (Report.renumber s.number)

variable {results more : List Report}

@[simp] theorem reports_nil (s : Selection) : s.reports [] = [] := rfl

@[simp] theorem reports_append (s : Selection) (results more : List Report) :
    s.reports (results ++ more) = s.reports results ++ s.reports more := by
  simp [reports]

theorem reports_of_kept (kept : s.kept id = true) (known : ∀ report ∈ results, report.flow = id) :
    s.reports results = results.map (Report.renumber s.number) := by
  rw [reports, List.filter_eq_self.2 fun report member => by rw [known report member, kept]]

theorem reports_of_other (other : s.kept id = false) (known : ∀ report ∈ results, report.flow = id) :
    s.reports results = [] := by
  rw [reports, List.filter_eq_nil_iff.2 fun report member => by simp [known report member, other]]
  rfl

def Held (s : Selection) (tick : Tick) (before before' after after' : ReplayStore) : Prop :=
  ∃ held : List Report, after = held.foldl (·.hold tick) before ∧
    after' = (s.reports held).foldl (·.hold tick) before'

variable {before before' middle middle' after after' : ReplayStore}

theorem Held.refl (s : Selection) (tick : Tick) (before before' : ReplayStore) :
    s.Held tick before before' before before' :=
  ⟨[], rfl, rfl⟩

theorem Held.trans (earlier : s.Held tick before before' middle middle')
    (later : s.Held tick middle middle' after after') : s.Held tick before before' after after' := by
  obtain ⟨held, rfl, rfl⟩ := earlier
  obtain ⟨more, rfl, rfl⟩ := later
  exact ⟨held ++ more, by rw [List.foldl_append], by rw [reports_append, List.foldl_append]⟩

theorem held_of_kept (kept : s.kept id = true)
    (alike : HeldAlike s.number id tick before before' after after') :
    s.Held tick before before' after after' := by
  obtain ⟨held, known, rfl, rfl⟩ := alike
  exact ⟨held, rfl, by rw [reports_of_kept kept known]⟩

theorem held_of_other (other : s.kept id = false) {f : FlowId → FlowId}
    (alike : HeldAlike f id tick before middle after middle') (store : ReplayStore) :
    s.Held tick before store after store := by
  obtain ⟨held, known, rfl, -⟩ := alike
  exact ⟨held, rfl, by rw [reports_of_other other known]; rfl⟩

end Selection

namespace Lineage

variable {lineage later : Lineage} {kept : FlowId → Bool} {child n : Nat} {origin : Option FlowId}

def Respects (lineage : Lineage) (kept : FlowId → Bool) : Prop :=
  ∀ child parent, lineage.spawner child = some parent → kept child = kept parent

theorem spawner_of_extends (extended : lineage <+: later) (inside : child ≤ lineage.length) :
    later.spawner child = lineage.spawner child := by
  obtain ⟨more, rfl⟩ := extended
  cases child with
  | zero => rfl
  | succ m => rw [spawner, spawner, List.getElem?_append_left (by omega)]

theorem spawner_eq_none (beyond : lineage.length < child) : lineage.spawner child = none := by
  cases spawned : lineage.spawner child with
  | none => rfl
  | some parent => exact absurd (le_of_spawner spawned).2 (Nat.not_le_of_lt beyond)

theorem Respects.of_extends (respects : later.Respects kept) (extended : lineage <+: later) :
    lineage.Respects kept := fun child parent spawned =>
  respects child parent
    ((spawner_of_extends extended (le_of_spawner spawned).2).trans spawned)

theorem Respects.new {parent : Nat}
    (respects : (lineage ++ List.replicate n (some parent)).Respects kept)
    (above : lineage.length < child) (within : child ≤ lineage.length + n) :
    kept child = kept parent :=
  respects child parent (spawner_append_replicate above within)

def Matches (s : Selection) (lineage part : Lineage) : Prop :=
  ∀ id : Nat, s.kept id = true →
    part.spawner (s.number id) = (lineage.spawner id).map s.number

theorem Matches.append {part : Lineage} (matching : Matches s lineage part)
    (size : part.length = s.number lineage.length)
    (size' : part.length + n = s.number (lineage.length + n)) (origin : Option FlowId) :
    Matches s (lineage ++ List.replicate n origin)
      (part ++ List.replicate n (origin.map s.number)) := by
  intro id kept
  by_cases old : id ≤ lineage.length
  · have old' : s.number id ≤ part.length := size ▸ s.number_mono old
    rw [spawner_of_extends (List.prefix_append ..) old, spawner_of_extends (List.prefix_append ..) old']
    exact matching id kept
  · have above : part.length < s.number id :=
      size ▸ Selection.number_lt_number kept (Nat.lt_of_not_le old)
    by_cases new : id ≤ lineage.length + n
    · have new' : s.number id ≤ part.length + n := size' ▸ s.number_mono new
      rw [spawner_append_replicate (by omega) new, spawner_append_replicate above new']
    · have above' : part.length + n < s.number id :=
        size' ▸ Selection.number_lt_number kept (Nat.lt_of_not_le new)
      rw [spawner_eq_none (by simpa using above'), spawner_eq_none (by simp; omega)]
      rfl

theorem Matches.append_other {part : Lineage} (matching : Matches s lineage part)
    (others : ∀ child : Nat, lineage.length < child → child ≤ lineage.length + n →
      s.kept child = false) (origin : Option FlowId) :
    Matches s (lineage ++ List.replicate n origin) part := by
  intro id kept
  rw [matching id kept]
  by_cases old : id ≤ lineage.length
  · rw [spawner_of_extends (List.prefix_append ..) old]
  · by_cases new : id ≤ lineage.length + n
    · rw [others id (by omega) new] at kept
      cases kept
    · rw [spawner_eq_none (by omega), spawner_eq_none (by simp; omega)]

end Lineage

def Boundary.spawns : Boundary σ → Nat
  | .await request _ => request.recipes.length
  | .halt | .complete _ _ => 0

inductive Concludes (tick : Tick) (id : Nat) (name : String) (stage : Stage σ)
    (results : List Report) (before : FlowTable σ) : Boundary σ → FlowTable σ → List Report → Prop
  | halt : Concludes tick id name stage results before .halt
      (before.put id (some (.active stage.flow))) results
  | await {request : Request σ} {caller : Address} {cancelled : List Cancellation}
      {after : FlowTable σ}
      (shapely : request.strategy.check id request.recipes.length = .ok ())
      (resolved : resolve tick (before.awaiting id stage.flow request caller tick) =
        .ok cancelled after) :
      Concludes tick id name stage results before (.await request caller) after results
  | complete {value : Json} {last : Option Address} {cancelled : List Cancellation}
      {after : FlowTable σ}
      (resolved : resolve tick (before.completing id ⟨id, stage.flow.name, value, last,
        stage.flow.spawnedAt, tick, before.completions + 1⟩) = .ok cancelled after) :
      Concludes tick id name stage results before (.complete value last) after
        (results ++ [.constructed id name value cancelled])

section Concludes

variable {name : String} {stage : Stage σ} {results reports : List Report} {before after : FlowTable σ}
  {boundary : Boundary σ} {flow : Flow σ}

theorem Concludes.size (concludes : Concludes tick id name stage results before boundary after reports)
    (found : before.find? id = some (.active flow)) :
    after.phases.size = before.phases.size + boundary.spawns := by
  cases concludes with
  | halt => exact size_put ..
  | await shapely resolved =>
      exact (resolve_ok resolved).1.size.trans (awaiting_spec found stage.flow _ _ tick).1
  | complete resolved => exact (resolve_ok resolved).1.size.trans (size_put ..)

theorem Concludes.reports_flow
    (concludes : Concludes tick id name stage results before boundary after reports)
    (known : ∀ report ∈ results, report.flow = id) : ∀ report ∈ reports, report.flow = id := by
  cases concludes with
  | halt => exact known
  | await => exact known
  | complete => exact List.forall_mem_append.2 ⟨known, by simp [Report.flow]⟩

variable [Coroutine σ] {sim : Simulation σ} {lineage : Lineage}

theorem process_of_concludes (holds : (any σ).Holds ⟨sim, lineage⟩)
    (found : sim.flows.find? id = some (.active flow))
    (ran : Stage.run sim.effects tick sim.limits.steps
      ⟨flow, sim.heap, sim.replay, sim.journal⟩ = .ok (results, boundary) stage)
    (drives : (any σ).Drives id sim.heap (some boundary) stage)
    (concludes : Concludes tick id flow.name stage results sim.flows boundary after reports) :
    Simulation.process id tick sim = .ok reports { sim.commit stage with flows := after } := by
  simp only [Simulation.process, active?_eq_some.2 found, ran]
  cases concludes with
  | halt =>
      rw [← sim.commit_flows drives.named]
      rfl
  | await shapely resolved =>
      obtain ⟨cancelled, flows, done, resolved', -⟩ :=
        Simulation.await_ok holds found drives shapely tick
      rw [resolved] at resolved'
      injection resolved' with same same'
      subst same same'
      simp only [Simulation.conclude_await, done]
  | complete resolved =>
      obtain ⟨cancelled, flows, done, resolved', -⟩ := Simulation.complete_ok holds found drives tick
      rw [resolved] at resolved'
      injection resolved' with same same'
      subst same same'
      simp only [Simulation.conclude_complete, done]

theorem process_concludes (holds : (any σ).Holds ⟨sim, lineage⟩)
    (found : sim.flows.find? id = some (.active flow)) {later : Simulation σ}
    (done : Simulation.process id tick sim = .ok reports later) :
    ∃ results boundary stage flows, Stage.run sim.effects tick sim.limits.steps
        ⟨flow, sim.heap, sim.replay, sim.journal⟩ = .ok (results, boundary) stage ∧
      (any σ).Drives id sim.heap (some boundary) stage ∧
      Concludes tick id flow.name stage results sim.flows boundary flows reports ∧
      later = { sim.commit stage with flows } := by
  have active : (any σ).Active sim.heap id flow := holds.orders.admits id _ found
  have spec := Stage.run_spec ((any σ).steady_any tick) ⟨flow, sim.heap, sim.replay, sim.journal⟩
    sim.effects sim.limits.steps holds.heap active trivial _ rfl
  cases ran : Stage.run sim.effects tick sim.limits.steps
      ⟨flow, sim.heap, sim.replay, sim.journal⟩ with
  | error e stage => simp [Simulation.process, active?_eq_some.2 found, ran] at done
  | ok result stage =>
      obtain ⟨results, boundary⟩ := result
      rw [ran] at spec
      obtain ⟨drives, -⟩ := spec
      have settle {flows : FlowTable σ} {reports' : List Report}
          (concludes : Concludes tick id flow.name stage results sim.flows boundary flows reports') :
          ∃ results' boundary' stage' flows, (.ok (results, boundary) stage :
              EStateM.Result EngineError (Stage σ) _) = .ok (results', boundary') stage' ∧
            (any σ).Drives id sim.heap (some boundary') stage' ∧
            Concludes tick id flow.name stage' results' sim.flows boundary' flows reports ∧
            later = { sim.commit stage' with flows } := by
        rw [process_of_concludes holds found ran drives concludes] at done
        injection done with same same'
        subst same same'
        exact ⟨results, boundary, stage, flows, rfl, drives, concludes, rfl⟩
      cases boundary with
      | halt => exact settle .halt
      | await request caller =>
          cases check : request.strategy.check id request.recipes.length with
          | error e =>
              simp [Simulation.process, active?_eq_some.2 found, ran, Simulation.conclude_await,
                Simulation.await, check] at done
          | ok =>
              obtain ⟨cancelled, flows, -, resolved, -⟩ :=
                Simulation.await_ok holds found drives check tick
              exact settle (.await check resolved)
      | complete value last =>
          obtain ⟨cancelled, flows, -, resolved, -⟩ :=
            Simulation.complete_ok holds found drives tick
          exact settle (.complete resolved)

end Concludes

section Turns

variable {whole part after : FlowTable σ} {name : String} {stage stage' : Stage σ}
  {results reports : List Report} {boundary : Boundary σ} {flow : Flow σ}

theorem Strategy.check_id {strategy : Strategy} {flow : FlowId} {count : Nat}
    (shapely : strategy.check flow count = .ok ()) (other : FlowId) :
    strategy.check other count = .ok () := by
  unfold Strategy.check at shapely ⊢
  cases strategy with
  | single =>
      simp only at shapely ⊢
      split at shapely
      next one => exact if_pos one
      next => cases shapely
  | all => rfl
  | race =>
      simp only at shapely ⊢
      split at shapely
      next => cases shapely
      next some => exact if_neg some

theorem Concludes.kept
    (concludes : Concludes tick id name stage results whole boundary after reports)
    (excerpt : Excerpt s whole part) (aligned : Aligned s whole part) (closed : whole.Closed s.kept)
    (unsettled : whole.Unsettled) (kept : s.kept id = true)
    (found : whole.find? id = some (.active flow))
    (new : ∀ child : Nat, whole.phases.size < child →
      child ≤ whole.phases.size + boundary.spawns → s.kept child = s.kept id)
    (same : stage'.flow = stage.flow.renumber s.number) :
    ∃ after', Concludes tick (s.number id) name stage' (results.map (Report.renumber s.number)) part
        boundary after' (reports.map (Report.renumber s.number)) ∧
      Excerpt s after after' ∧ Aligned s after after' := by
  have found' := excerpt.active kept found
  cases concludes with
  | halt =>
      refine ⟨_, .halt, same ▸ excerpt.put kept found (.active stage.flow), ?_⟩
      exact aligned.congr (fun other _ => completed?_put found (by simp) other)
        (fun other _ => completed?_put found' (by simp) _) (Nat.le_of_eq (completions_put ..).symm)
        (Nat.le_of_eq (completions_put ..).symm)
  | @await request here _ _ shapely resolved =>
      have begun : Excerpt s (whole.awaiting id stage.flow request here tick)
          (part.awaiting (s.number id) stage'.flow request here tick) := by
        rw [same]
        exact excerpt.awaiting kept found fun child above within =>
          (new child above within).trans kept
      obtain ⟨after', resolved', excerpt, aligned⟩ := begun.resolve
        (aligned.awaiting found found' stage.flow stage'.flow request here tick)
        (closed.awaiting found new)
        (fun other ready => (ready_awaiting unsettled found ready).symm ▸ kept) resolved
      exact ⟨after', .await (Strategy.check_id shapely _) resolved', excerpt, aligned⟩
  | @complete value last _ _ resolved =>
      let done : Completion := ⟨id, stage.flow.name, value, last, stage.flow.spawnedAt, tick,
        whole.completions + 1⟩
      let done' : Completion := ⟨s.number id, stage'.flow.name, value, last, stage'.flow.spawnedAt,
        tick, part.completions + 1⟩
      have ended : Excerpt s (whole.completing id done) (part.completing (s.number id) done') := by
        have ended := excerpt.completing kept found done (part.completions + 1)
        simpa only [done', same] using! ended
      obtain ⟨after', resolved', excerpt, aligned⟩ := ended.resolve
        (aligned.completing kept found found' rfl rfl rfl) (closed.completing found done)
        (fun other ready =>
          (kept_ready_completing unsettled closed found ready).trans kept) resolved
      rw [List.map_append]
      exact ⟨after', .complete resolved', excerpt, aligned⟩

theorem Concludes.other
    (concludes : Concludes tick id name stage results whole boundary after reports)
    (excerpt : Excerpt s whole part) (aligned : Aligned s whole part) (closed : whole.Closed s.kept)
    (unsettled : whole.Unsettled) (other : s.kept id = false)
    (found : whole.find? id = some (.active flow))
    (new : ∀ child : Nat, whole.phases.size < child →
      child ≤ whole.phases.size + boundary.spawns → s.kept child = s.kept id) :
    Excerpt s after part ∧ Aligned s after part := by
  have size := concludes.size found
  have same : ∀ child, s.kept child = true → after.find? child = whole.find? child := by
    intro child known
    cases concludes with
    | halt =>
        refine find?_put_of_ne _ _ ?_
        rintro rfl
        rw [known] at other
        cases other
    | await shapely resolved =>
        exact find?_waiting_of_kept closed unsettled found other new resolved known
    | complete resolved => exact find?_completed_of_kept closed unsettled found other resolved known
  have grows : whole.completions ≤ after.completions := by
    cases concludes with
    | halt => exact Nat.le_of_eq (completions_put ..).symm
    | await shapely resolved =>
        rw [(resolve_ok resolved).1.completions, completions_awaiting]
    | complete resolved =>
        rw [(resolve_ok resolved).1.completions]
        exact Nat.le_succ _
  refine ⟨excerpt.outside (by omega) same fun child above within => ?_,
    aligned.congr (fun child known => ?_) (fun _ _ => rfl) grows (Nat.le_refl _)⟩
  · exact (new child above (by omega)).trans other
  · simp only [completed?, same child known]

end Turns

namespace Tracked

/-- A simulation of kept flows beside one in which these are among others. -/
structure Beside [Coroutine σ] (s : Selection) (whole part : Tracked σ) : Prop where
  holds : (any σ).Holds whole
  holds' : (any σ).Holds part
  flows : Excerpt s whole.sim.flows part.sim.flows
  aligned : Aligned s whole.sim.flows part.sim.flows
  within : part.sim.heap.Within whole.sim.heap
  effects : part.sim.effects = whole.sim.effects
  tasks : part.sim.tasks = whole.sim.tasks
  idle : whole.sim.tasks.scheduled = []
  limits : part.sim.limits = whole.sim.limits
  now : part.sim.now = whole.sim.now
  spawned : Lineage.Matches s whole.lineage part.lineage

variable [Coroutine σ] {whole part after : Tracked σ} {flow : Flow σ} {reports : List Report}

theorem track_process_ok (holds : (any σ).Holds whole)
    (found : whole.sim.flows.find? id = some (.active flow)) :
    track (some id) (Simulation.process id tick) whole = .ok reports after ↔
      ∃ results boundary stage flows, Stage.run whole.sim.effects tick whole.sim.limits.steps
          ⟨flow, whole.sim.heap, whole.sim.replay, whole.sim.journal⟩ =
            .ok (results, boundary) stage ∧
        (any σ).Drives id whole.sim.heap (some boundary) stage ∧
        Concludes tick id flow.name stage results whole.sim.flows boundary flows reports ∧
        after = ⟨{ whole.sim.commit stage with flows },
          whole.lineage ++ List.replicate boundary.spawns (some id)⟩ := by
  obtain ⟨sim, lineage⟩ := whole
  have same := holds.orders.forest.size
  simp only at same found
  constructor
  · intro done
    cases processed : Simulation.process id tick sim with
    | error e later => simp [track, processed] at done
    | ok reports' later =>
        simp only [track, processed] at done
        injection done with same' follows
        subst same' follows
        obtain ⟨results, boundary, stage, flows, ran, drives, concludes, rfl⟩ :=
          process_concludes holds found processed
        refine ⟨results, boundary, stage, flows, ran, drives, concludes, ?_⟩
        exact follow_eq (some id) ((concludes.size found).trans (by rw [same]))
  · rintro ⟨results, boundary, stage, flows, ran, drives, concludes, rfl⟩
    simp only [track, process_of_concludes holds found ran drives concludes]
    rw [follow_eq (some id) ((concludes.size found).trans (by rw [same]))]

theorem Beside.idle' (beside : Beside s whole part) : part.sim.tasks.scheduled = [] := by
  rw [beside.tasks, beside.idle]

theorem Beside.closed (beside : Beside s whole part) (respects : whole.lineage.Respects s.kept) :
    whole.sim.flows.Closed s.kept := fun id child member =>
  respects child id (beside.holds.orders.forest.owned id child member)

theorem Beside.active (beside : Beside s whole part) (kept : s.kept id = true)
    (found : whole.sim.flows.find? id = some (.active flow)) :
    (any σ).Active whole.sim.heap id flow ∧
      (any σ).Active part.sim.heap (s.number id) (flow.renumber s.number) :=
  ⟨beside.holds.orders.admits id _ found,
    beside.holds'.orders.admits _ _ (beside.flows.active kept found)⟩

theorem track_process_kept (beside : Beside s whole part) (kept : s.kept id = true)
    (found : whole.sim.flows.find? id = some (.active flow))
    (done : track (some id) (Simulation.process id tick) whole = .ok reports after)
    (respects : after.lineage.Respects s.kept) :
    ∃ after', track (some (s.number id)) (Simulation.process (s.number id) tick) part =
        .ok (s.reports reports) after' ∧ Beside s after after' ∧
      s.Held tick whole.sim.replay part.sim.replay after.sim.replay after'.sim.replay := by
  have holds := Simulation.process_spec id tick whole ⟨beside.holds, flow, found⟩
  rw [done] at holds
  obtain ⟨results, boundary, stage, flows, ran, drives, concludes, rfl⟩ :=
    (track_process_ok beside.holds found).1 done
  have found' := beside.flows.active kept found
  obtain ⟨active, active'⟩ := beside.active kept found
  have size := beside.holds.orders.forest.size
  have size' := beside.holds'.orders.forest.size
  have start : Stage.Echoes s.number id tick whole.sim.heap whole.sim.replay part.sim.replay
      ⟨flow, whole.sim.heap, whole.sim.replay, whole.sim.journal⟩
      ⟨flow.renumber s.number, part.sim.heap, part.sim.replay, part.sim.journal⟩ :=
    ⟨rfl, beside.within, .refl _, .refl _ _ _ _ _⟩
  -- The turn is driven to its boundary in both simulations, and then concluded in both.
  obtain ⟨known, stage', ran', echoes⟩ :=
    Stage.echoes_run whole.sim.limits.steps active active' start ran
  rw [← beside.effects, ← beside.limits] at ran'
  have spec := Stage.run_spec ((any σ).steady_any tick)
    ⟨flow.renumber s.number, part.sim.heap, part.sim.replay, part.sim.journal⟩ part.sim.effects
    part.sim.limits.steps trivial active' trivial _ rfl
  rw [ran'] at spec
  have new : ∀ child : Nat, whole.sim.flows.phases.size < child →
      child ≤ whole.sim.flows.phases.size + boundary.spawns → s.kept child = s.kept id :=
    fun child above within => respects.new (size ▸ above) (size ▸ within)
  have closed := beside.closed (respects.of_extends (List.prefix_append ..))
  obtain ⟨flows', concludes', excerpt, aligned⟩ := concludes.kept beside.flows beside.aligned closed
    beside.holds.unsettled kept found new echoes.flow
  have done' := (track_process_ok beside.holds' found').2
    ⟨_, boundary, stage', flows', ran', spec.1, concludes', rfl⟩
  have holds' := Simulation.process_spec (s.number id) tick part ⟨beside.holds', _, found'⟩
  rw [done'] at holds'
  rw [Selection.reports_of_kept kept (concludes.reports_flow known)]
  refine ⟨_, done', ⟨holds, holds', excerpt, aligned, echoes.within, beside.effects, beside.tasks,
    beside.idle, beside.limits, beside.now, ?_⟩, Selection.held_of_kept kept echoes.held⟩
  have grown := excerpt.size
  rw [concludes'.size found', concludes.size found] at grown
  refine beside.spawned.append ?_ ?_ (some id)
  · rw [← size, ← size']
    exact beside.flows.size
  · rw [← size, ← size']
    exact grown

theorem track_process_other (beside : Beside s whole part) (other : s.kept id = false)
    (found : whole.sim.flows.find? id = some (.active flow))
    (done : track (some id) (Simulation.process id tick) whole = .ok reports after)
    (respects : after.lineage.Respects s.kept) :
    s.reports reports = [] ∧ Beside s after part ∧
      s.Held tick whole.sim.replay part.sim.replay after.sim.replay part.sim.replay := by
  have holds := Simulation.process_spec id tick whole ⟨beside.holds, flow, found⟩
  rw [done] at holds
  obtain ⟨results, boundary, stage, flows, ran, drives, concludes, rfl⟩ :=
    (track_process_ok beside.holds found).1 done
  have active : (any σ).Active whole.sim.heap id flow := beside.holds.orders.admits id _ found
  have size := beside.holds.orders.forest.size
  -- Run beside itself, the flow shows what it does to the heap and whose results it brings.
  have start : Stage.Echoes (fun id => id) id tick whole.sim.heap whole.sim.replay whole.sim.replay
      ⟨flow, whole.sim.heap, whole.sim.replay, whole.sim.journal⟩
      ⟨flow, whole.sim.heap, whole.sim.replay, whole.sim.journal⟩ :=
    ⟨flow.renumber_id.symm, .refl _, .refl _, .refl _ _ _ _ _⟩
  obtain ⟨known, stage', -, echoes⟩ :=
    Stage.echoes_run whole.sim.limits.steps active active start ran
  have new : ∀ child : Nat, whole.sim.flows.phases.size < child →
      child ≤ whole.sim.flows.phases.size + boundary.spawns → s.kept child = s.kept id :=
    fun child above within => respects.new (size ▸ above) (size ▸ within)
  have closed := beside.closed (respects.of_extends (List.prefix_append ..))
  obtain ⟨excerpt, aligned⟩ := concludes.other beside.flows beside.aligned closed
    beside.holds.unsettled other found new
  refine ⟨Selection.reports_of_other other (concludes.reports_flow known),
    ⟨holds, beside.holds', excerpt, aligned, beside.within.trans echoes.grown, beside.effects,
      beside.tasks, beside.idle, beside.limits, beside.now, ?_⟩,
    Selection.held_of_other other echoes.held _⟩
  exact beside.spawned.append_other (fun child above within =>
    (respects.new above within).trans other) (some id)

end Tracked

end Cadence
