import Cadence.Proofs.Simulation.Excerpt
import Cadence.Proofs.Simulation.Rounds
/-!
Whole ticks of a simulation beside one in which only some of its flows take part. A round of the
larger one is a round of the smaller one, unless no kept flow has anything to do in it.
-/

namespace Cadence

open Contract Engine FlowTable

variable {σ : Type} {s : Selection} {tick : Tick}

namespace Selection

def keys (s : Selection) (keys : List (FlowId × Nat)) : List (FlowId × Nat) :=
  (keys.filter fun key => s.kept key.1).map fun key => (s.number key.1, key.2)

theorem keys_cons_of_kept {id : FlowId} (kept : s.kept id = true) (activation : Nat)
    (rest : List (FlowId × Nat)) :
    s.keys ((id, activation) :: rest) = (s.number id, activation) :: s.keys rest := by
  simp [keys, kept]

theorem keys_cons_of_other {id : FlowId} (other : s.kept id = false) (activation : Nat)
    (rest : List (FlowId × Nat)) : s.keys ((id, activation) :: rest) = s.keys rest := by
  simp [keys, other]

variable {due : List (FlowId × Nat)}

theorem pos_of_mem_keys {key : FlowId × Nat} (member : key ∈ s.keys due) : 0 < key.1 := by
  obtain ⟨old, listed, rfl⟩ := List.mem_map.1 member
  exact Nat.zero_lt_of_lt (base_lt_number (List.mem_filter.1 listed).2)

theorem filter_keys {test test' : FlowId × Nat → Bool}
    (same : ∀ key, s.kept key.1 = true → test' (s.number key.1, key.2) = test key) :
    (s.keys due).filter test' = s.keys (due.filter test) := by
  rw [keys, keys, List.filter_map, List.filter_filter, List.filter_filter]
  congr 1
  refine List.filter_congr fun key _ => ?_
  cases kept : s.kept key.1 with
  | false => simp
  | true => simp [same key kept]

def Covers (s : Selection) (covered covered' : Coverage) : Prop :=
  ∀ id : Nat, s.kept id = true →
    Coverage.latest covered'.flows (s.number id) = Coverage.latest covered.flows id

theorem foldl_note {stepped stepped' : FlowId → Option Nat}
    (same : ∀ id : Nat, s.kept id = true → stepped' (s.number id) = stepped id) (id : Nat)
    (kept : s.kept id = true) :
    (s.keys due).foldl Coverage.note stepped' (s.number id) =
      due.foldl Coverage.note stepped id := by
  induction due generalizing stepped stepped' with
  | nil => exact same id kept
  | cons key rest ih =>
      obtain ⟨first, activation⟩ := key
      cases kept' : s.kept first with
      | true =>
          rw [keys_cons_of_kept kept', List.foldl_cons, List.foldl_cons]
          refine ih fun other kept'' => ?_
          by_cases here : other = first
          · rw [here, Coverage.note, Coverage.note, Function.update_self, Function.update_self]
          · have apart : s.number other ≠ s.number first := fun same =>
              here (number_inj kept'' kept' same)
            rw [Coverage.note, Coverage.note, Function.update_of_ne here, Function.update_of_ne apart]
            exact same other kept''
      | false =>
          rw [keys_cons_of_other kept', List.foldl_cons]
          refine ih fun other kept'' => ?_
          have apart : other ≠ first := by
            rintro rfl
            rw [kept''] at kept'
            cases kept'
          rw [Coverage.note, Function.update_of_ne apart]
          exact same other kept''

theorem covers_empty (s : Selection) : s.Covers {} {} := by
  have nothing (id : Nat) : Coverage.latest #[] id = none := by
    cases id <;> simp [Coverage.latest]
  exact fun id _ => (nothing _).trans (nothing id).symm

theorem Covers.add {covered covered' : Coverage} (covers : s.Covers covered covered')
    (positive : ∀ key ∈ due, 0 < key.1) (tasks : List TaskId) :
    s.Covers (covered.add tasks due) (covered'.add tasks (s.keys due)) := by
  intro id kept
  rw [Coverage.latest_add positive, Coverage.latest_add fun key => pos_of_mem_keys]
  exact foldl_note covers id kept

theorem Covers.pendingFlows {covered covered' : Coverage} {whole part : Simulation σ}
    (covers : s.Covers covered covered') (excerpt : Excerpt s whole.flows part.flows) :
    part.pendingFlows covered' = s.keys (whole.pendingFlows covered) := by
  have same : part.flows.activations = s.keys whole.flows.activations := excerpt.activations
  rw [Simulation.pendingFlows, same, filter_keys fun key kept => ?_]
  · rfl
  · congr 1
    rw [Bool.eq_iff_iff, Coverage.covers_iff, Coverage.covers_iff, covers key.1 kept]

end Selection

namespace Tracked

variable [Coroutine σ] {whole part before after : Tracked σ} {reports : List Report}
  {keys : List (FlowId × Nat)}

theorem stepFlows_cons_ok {id : FlowId} {activation : Nat} {rest : List (FlowId × Nat)} :
    stepFlows tick ((id, activation) :: rest) before = .ok reports after ↔
      ∃ first mid later,
        (if (before.sim.flows.active? id).map Flow.activation = some activation then
          track (some id) (Simulation.process id tick) else pure []) before = .ok first mid ∧
        stepFlows tick rest mid = .ok later after ∧ first ++ later = reports := by
  simp only [stepFlows, get_ok, ite_bind]
  constructor
  · intro done
    obtain ⟨first, mid, stepped, others⟩ := bind_ok.1 done
    obtain ⟨later, last, stepped', final⟩ := bind_ok.1 others
    obtain ⟨same, rfl⟩ := pure_ok.1 final
    exact ⟨first, mid, later, stepped, stepped', same⟩
  · rintro ⟨first, mid, later, stepped, stepped', rfl⟩
    exact bind_ok.2 ⟨first, mid, stepped, bind_ok.2 ⟨later, after, stepped', pure_ok.2 ⟨rfl, rfl⟩⟩⟩

omit [Coroutine σ] in
theorem prefix_track {α : Type} {a : α} {origin : Option FlowId}
    {operation : Engine (Simulation σ) α} (done : track origin operation before = .ok a after) :
    before.lineage <+: after.lineage := by
  unfold track at done
  split at done
  · injection done with _ same
    subst same
    exact List.prefix_append ..
  · cases done

theorem prefix_stepFlow {id : FlowId} {choice : Prop} [Decidable choice]
    (done : (if choice then track (some id) (Simulation.process id tick) else pure []) before =
      .ok reports after) : before.lineage <+: after.lineage := by
  split at done
  · exact prefix_track done
  · obtain ⟨-, rfl⟩ := pure_ok.1 done
    exact List.prefix_rfl

theorem prefix_stepFlows (done : stepFlows tick keys before = .ok reports after) :
    before.lineage <+: after.lineage := by
  induction keys generalizing before reports with
  | nil =>
      obtain ⟨-, rfl⟩ := pure_ok.1 done
      exact List.prefix_rfl
  | cons key rest ih =>
      obtain ⟨first, mid, later, stepped, rest, -⟩ := stepFlows_cons_ok.1 done
      exact (prefix_stepFlow stepped).trans (ih rest)

theorem Beside.stepFlow_kept {id activation : Nat} (beside : Beside s whole part)
    (kept : s.kept id = true)
    (done : (if (whole.sim.flows.active? id).map Flow.activation = some activation then
      track (some id) (Simulation.process id tick) else pure []) whole = .ok reports after)
    (respects : after.lineage.Respects s.kept) :
    ∃ after', (if (part.sim.flows.active? (s.number id)).map Flow.activation = some activation then
          track (some (s.number id)) (Simulation.process (s.number id) tick) else pure []) part =
        .ok (s.reports reports) after' ∧ Beside s after after' ∧
      s.Held tick whole.sim.replay part.sim.replay after.sim.replay after'.sim.replay := by
  have same : (part.sim.flows.active? (s.number id)).map Flow.activation =
      (whole.sim.flows.active? id).map Flow.activation := by
    rw [beside.flows.active? kept, Option.map_map]
    rfl
  rw [same]
  split at done
  next current =>
    obtain ⟨flow, active, -⟩ := Option.map_eq_some_iff.1 current
    rw [if_pos current]
    exact track_process_kept beside kept (active?_eq_some.1 active) done respects
  next stale =>
    obtain ⟨rfl, rfl⟩ := pure_ok.1 done
    rw [if_neg stale]
    exact ⟨part, rfl, beside, .refl ..⟩

theorem Beside.stepFlow_other {id activation : Nat} (beside : Beside s whole part)
    (other : s.kept id = false)
    (done : (if (whole.sim.flows.active? id).map Flow.activation = some activation then
      track (some id) (Simulation.process id tick) else pure []) whole = .ok reports after)
    (respects : after.lineage.Respects s.kept) :
    s.reports reports = [] ∧ Beside s after part ∧
      s.Held tick whole.sim.replay part.sim.replay after.sim.replay part.sim.replay := by
  split at done
  next current =>
    obtain ⟨flow, active, -⟩ := Option.map_eq_some_iff.1 current
    exact track_process_other beside other (active?_eq_some.1 active) done respects
  next =>
    obtain ⟨rfl, rfl⟩ := pure_ok.1 done
    exact ⟨rfl, beside, .refl ..⟩

theorem Beside.stepFlows (beside : Beside s whole part)
    (done : Tracked.stepFlows tick keys whole = .ok reports after)
    (respects : after.lineage.Respects s.kept) :
    ∃ after', Tracked.stepFlows tick (s.keys keys) part = .ok (s.reports reports) after' ∧
      Beside s after after' ∧
        s.Held tick whole.sim.replay part.sim.replay after.sim.replay after'.sim.replay := by
  induction keys generalizing whole part reports with
  | nil =>
      obtain ⟨rfl, rfl⟩ := pure_ok.1 done
      exact ⟨part, pure_ok.2 ⟨rfl, rfl⟩, beside, .refl ..⟩
  | cons key rest ih =>
      obtain ⟨id, activation⟩ := key
      obtain ⟨first, mid, later, stepped, stepped', rfl⟩ := stepFlows_cons_ok.1 done
      have respects' := respects.of_extends (prefix_stepFlows stepped')
      rw [Selection.reports_append]
      cases kept : s.kept id with
      | true =>
          obtain ⟨mid', here, beside, held⟩ := beside.stepFlow_kept kept stepped respects'
          obtain ⟨after', there, beside, held'⟩ := ih beside stepped'
          rw [Selection.keys_cons_of_kept kept]
          exact ⟨after', stepFlows_cons_ok.2 ⟨_, mid', _, here, there, rfl⟩, beside,
            held.trans held'⟩
      | false =>
          obtain ⟨nothing, beside, held⟩ := beside.stepFlow_other kept stepped respects'
          obtain ⟨after', there, beside, held'⟩ := ih beside stepped'
          rw [Selection.keys_cons_of_other kept, nothing, List.nil_append]
          exact ⟨after', there, beside, held.trans held'⟩

omit [Coroutine σ] in
theorem pendingTasks_of_idle {sim : Simulation σ} (idle : sim.tasks.scheduled = [])
    (covered : Coverage) : sim.pendingTasks covered = [] := by
  simp [Simulation.pendingTasks, TaskTable.ids, idle]

theorem runRounds_of_idle {limit remaining : Nat} {covered : Coverage}
    (idle : before.sim.tasks.scheduled = []) (nothing : before.sim.pendingFlows covered = []) :
    runRounds tick limit remaining covered reports before = .ok reports before := by
  unfold runRounds
  simp only [get_ok, pendingTasks_of_idle idle, nothing]
  rfl

theorem track_stepTasks_nil (holds : (any σ).Holds before) :
    track none (Simulation.stepTasks tick []) before = .ok () before := by
  obtain ⟨sim, lineage⟩ := before
  show (.ok () ((Tracked.mk sim lineage).follow none sim) : EStateM.Result _ _ _) = _
  rw [follow_same holds.orders.forest.size]

theorem runRounds_succ_ok {limit remaining : Nat} {covered : Coverage} {all : List Report}
    (holds : (any σ).Holds before) (idle : before.sim.tasks.scheduled = [])
    (pending : before.sim.pendingFlows covered ≠ []) :
    runRounds tick limit (remaining + 1) covered reports before = .ok all after ↔
      ∃ fresh mid, stepFlows tick (before.sim.pendingFlows covered) before = .ok fresh mid ∧
        runRounds tick limit remaining (covered.add [] (before.sim.pendingFlows covered))
          (reports ++ fresh) mid = .ok all after := by
  have busy : ¬ (([] : List TaskId).isEmpty = true ∧
      (before.sim.pendingFlows covered).isEmpty = true) :=
    fun ⟨_, empty⟩ => pending (List.isEmpty_iff.1 empty)
  rw [runRounds]
  simp only [get_ok, pendingTasks_of_idle idle, if_neg busy]
  rw [bind_ok]
  constructor
  · rintro ⟨_, mid, tasks, rest⟩
    rw [track_stepTasks_nil holds] at tasks
    injection tasks with _ same
    subst same
    rw [get_ok] at rest
    exact bind_ok.1 rest
  · intro rest
    exact ⟨_, before, track_stepTasks_nil holds, get_ok.2 (bind_ok.2 rest)⟩

theorem prefix_runRounds {limit remaining : Nat} {covered : Coverage} {all : List Report}
    (done : runRounds tick limit remaining covered reports before = .ok all after) :
    before.lineage <+: after.lineage := by
  induction remaining generalizing before covered reports with
  | zero =>
      rw [runRounds] at done
      simp only [get_ok] at done
      split at done
      · obtain ⟨-, rfl⟩ := pure_ok.1 done
        exact List.prefix_rfl
      · cases done
  | succ remaining ih =>
      rw [runRounds] at done
      simp only [get_ok] at done
      split at done
      · obtain ⟨-, rfl⟩ := pure_ok.1 done
        exact List.prefix_rfl
      · obtain ⟨_, mid, tasks, rest⟩ := bind_ok.1 done
        rw [get_ok] at rest
        obtain ⟨fresh, mid', stepped, rest⟩ := bind_ok.1 rest
        exact (prefix_track tasks).trans ((prefix_stepFlows stepped).trans (ih rest))

theorem runRounds_zero {limit : Nat} {covered : Coverage} {all : List Report}
    (done : runRounds tick limit 0 covered reports before = .ok all after) :
    before.sim.pendingFlows covered = [] := by
  rw [runRounds] at done
  simp only [get_ok] at done
  split at done
  next nothing => exact List.isEmpty_iff.1 nothing.2
  next => cases done

/-- Once nothing is pending in the smaller simulation, further rounds are of no account in it. -/
theorem Beside.runRounds {limit remaining : Nat} {covered covered' : Coverage} {all : List Report}
    (beside : Beside s whole part) (covers : s.Covers covered covered')
    (done : Tracked.runRounds tick limit remaining covered reports whole = .ok all after)
    (respects : after.lineage.Respects s.kept) :
    ∃ after', Tracked.runRounds tick limit remaining covered' (s.reports reports) part =
        .ok (s.reports all) after' ∧
      Beside s after after' ∧
        s.Held tick whole.sim.replay part.sim.replay after.sim.replay after'.sim.replay := by
  have settledAlready {whole part : Tracked σ} {remaining : Nat} {covered covered' : Coverage}
      {reports : List Report} (beside : Beside s whole part) (covers : s.Covers covered covered')
      (done : Tracked.runRounds tick limit remaining covered reports whole = .ok all after)
      (nothing : whole.sim.pendingFlows covered = []) :
      ∃ after', Tracked.runRounds tick limit remaining covered' (s.reports reports) part =
          .ok (s.reports all) after' ∧
        Beside s after after' ∧
          s.Held tick whole.sim.replay part.sim.replay after.sim.replay after'.sim.replay := by
    rw [runRounds_of_idle beside.idle nothing] at done
    injection done with same same'
    subst same same'
    have nothing' := covers.pendingFlows beside.flows
    rw [nothing] at nothing'
    exact ⟨part, runRounds_of_idle beside.idle' nothing', beside, .refl ..⟩
  induction remaining generalizing whole part covered covered' reports with
  | zero => exact settledAlready beside covers done (runRounds_zero done)
  | succ remaining ih =>
      by_cases nothing : whole.sim.pendingFlows covered = []
      · exact settledAlready beside covers done nothing
      obtain ⟨fresh, mid, stepped, rest⟩ := (runRounds_succ_ok beside.holds beside.idle nothing).1 done
      obtain ⟨mid', stepped', between, held⟩ :=
        beside.stepFlows stepped (respects.of_extends (prefix_runRounds rest))
      have positive : ∀ key ∈ whole.sim.pendingFlows covered, 0 < key.1 := fun key member => by
        obtain ⟨flow, active, -⟩ := mem_activations.1 (List.mem_filter.1 member).1
        exact (le_size_of_find? active).1
      obtain ⟨after', rest', related, held'⟩ := ih between (covers.add positive []) rest
      rw [← covers.pendingFlows beside.flows] at stepped' rest'
      refine ⟨after', ?_, related, held.trans held'⟩
      by_cases nothing' : part.sim.pendingFlows covered' = []
      · -- The others' round was one more than the kept flows needed.
        rw [nothing'] at stepped' rest'
        obtain ⟨none, rfl⟩ := pure_ok.1 stepped'
        have still : part.sim.pendingFlows (covered'.add [] []) = [] := nothing'
        rw [runRounds_of_idle beside.idle' still, Selection.reports_append, ← none,
          List.append_nil] at rest'
        exact (runRounds_of_idle beside.idle' nothing').trans rest'
      · rw [Selection.reports_append] at rest'
        exact (runRounds_succ_ok beside.holds' beside.idle' nothing').2 ⟨_, mid', stepped', rest'⟩

theorem tick_ok {report : TickReport} : Tracked.tick before = .ok report after ↔
    ∃ reports last, runRounds before.sim.now before.sim.limits.rounds before.sim.limits.rounds {} []
        ⟨{ before.sim with journal := [] }, before.lineage⟩ = .ok reports last ∧
      after = ⟨{ last.sim with now := last.sim.now + 1 }, last.lineage⟩ ∧
      report = ⟨before.sim.now, reports⟩ := by
  show (do
    let reports ← runRounds before.sim.now before.sim.limits.rounds before.sim.limits.rounds {} []
    modify fun tracked => { tracked with sim := { tracked.sim with now := tracked.sim.now + 1 } }
    return { tick := before.sim.now, reports } : Engine (Tracked σ) TickReport)
      ⟨{ before.sim with journal := [] }, before.lineage⟩ = .ok report after ↔ _
  rw [bind_ok]
  refine exists_congr fun reports => exists_congr fun last => and_congr_right fun _ => ?_
  constructor
  · intro done
    obtain ⟨rfl, rfl⟩ := pure_ok.1 done
    exact ⟨rfl, rfl⟩
  · rintro ⟨rfl, rfl⟩
    rfl

theorem prefix_tick {report : TickReport} (done : Tracked.tick before = .ok report after) :
    before.lineage <+: after.lineage := by
  obtain ⟨reports, last, ran, rfl, -⟩ := tick_ok.1 done
  have grown := prefix_runRounds ran
  exact grown

theorem Beside.ticked (beside : Beside s whole part) {report : TickReport}
    (done : Tracked.tick whole = .ok report after) (respects : after.lineage.Respects s.kept) :
    ∃ after', Tracked.tick part = .ok ⟨report.tick, s.reports report.reports⟩ after' ∧
      Beside s after after' ∧
        s.Held report.tick whole.sim.replay part.sim.replay after.sim.replay after'.sim.replay := by
  obtain ⟨reports, last, ran, rfl, rfl⟩ := tick_ok.1 done
  have cleared : Beside s ⟨{ whole.sim with journal := [] }, whole.lineage⟩
      ⟨{ part.sim with journal := [] }, part.lineage⟩ :=
    { beside with
      holds := ⟨beside.holds.orders, beside.holds.unsettled, trivial, beside.holds.tasks⟩
      holds' := ⟨beside.holds'.orders, beside.holds'.unsettled, trivial, beside.holds'.tasks⟩ }
  obtain ⟨last', ran', between, held⟩ := cleared.runRounds s.covers_empty ran respects
  refine ⟨⟨{ last'.sim with now := last'.sim.now + 1 }, last'.lineage⟩,
    tick_ok.2 ⟨s.reports reports, last', ?_, rfl, ?_⟩, ?_, held⟩
  · rw [beside.now, beside.limits]
    exact ran'
  · rw [beside.now]
  · exact { between with
      holds := ⟨between.holds.orders, between.holds.unsettled, trivial, between.holds.tasks⟩
      holds' := ⟨between.holds'.orders, between.holds'.unsettled, trivial, between.holds'.tasks⟩
      now := congrArg (· + 1) between.now }

end Tracked

end Cadence
