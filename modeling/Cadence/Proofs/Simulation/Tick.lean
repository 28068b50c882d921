import Cadence.Proofs.Simulation.Process
/-!
A whole tick keeps up what holds of a simulation, also where it fails, and it fails only through a
coroutine or an exhausted budget.
-/

namespace Cadence

open Contract Engine

variable {σ : Type} [Coroutine σ] {contract : Contract σ} {sim : Simulation σ} {lineage : Lineage}
  {tracked : Tracked σ} {recipe : Recipe σ} {tick : Tick}

theorem Contract.Orders.create {heap : Heap} {table : FlowTable σ}
    (orders : contract.Orders heap lineage table) (starts : contract.starts recipe.start)
    (tick : Tick) :
    contract.Orders heap (lineage ++ [none]) (table.create recipe none false tick).2 where
  forest := by
    simpa using orders.forest.create recipe none false tick none (by simp)
  admits id phase found := by
    rw [FlowTable.find?_create] at found
    split at found
    · obtain rfl := Option.some.inj found
      exact admits_ofRecipe starts (by simp) false tick
    · exact orders.admits id phase found

theorem Contract.Holds.spawn (holds : contract.Holds ⟨sim, lineage⟩)
    (starts : contract.starts recipe.start) :
    contract.Holds ⟨(sim.spawn recipe).2, lineage ++ [none]⟩ :=
  ⟨holds.orders.create starts sim.now, holds.unsettled.create recipe none false sim.now,
    holds.heap, holds.tasks⟩

namespace Simulation

theorem stepTask_holds {id : Nat} (holds : contract.Holds ⟨sim, lineage⟩)
    (scheduled : sim.tasks.Scheduled id) (tick : Tick) :
    ∃ n after, stepTasks.stepTask tick id sim = .ok () after ∧
      contract.Holds ⟨after, lineage ++ List.replicate n none⟩ ∧
      ∀ other, other ≠ id → sim.tasks.Scheduled other → after.tasks.Scheduled other := by
  obtain ⟨recipe?, tasks, stepped, sound, starts, others⟩ := holds.tasks.tick scheduled
  cases recipe? with
  | none =>
      refine ⟨0, { sim with tasks }, by simp only [stepTasks.stepTask, stepped], ?_, others⟩
      have holds' : contract.Holds ⟨{ sim with tasks }, lineage⟩ :=
        ⟨holds.orders, holds.unsettled, holds.heap, sound⟩
      simpa using! holds'
  | some recipe =>
      refine ⟨1, { sim with tasks, flows := (sim.flows.create recipe none false tick).2 },
        by simp only [stepTasks.stepTask, stepped], ?_, others⟩
      exact ⟨holds.orders.create (starts recipe rfl) tick,
        holds.unsettled.create recipe none false tick, holds.heap, sound⟩

theorem stepTasks_holds {ids : List TaskId} (holds : contract.Holds ⟨sim, lineage⟩)
    (nodup : ids.Nodup) (scheduled : ∀ id ∈ ids, sim.tasks.Scheduled id) (tick : Tick) :
    ∃ n after, stepTasks tick ids sim = .ok () after ∧
      contract.Holds ⟨after, lineage ++ List.replicate n none⟩ := by
  induction ids generalizing sim lineage with
  | nil => exact ⟨0, sim, rfl, by simpa using holds⟩
  | cons id ids ih =>
      obtain ⟨fresh, nodup⟩ := List.nodup_cons.1 nodup
      obtain ⟨n, middle, stepped, holds', others⟩ :=
        stepTask_holds holds (scheduled id (List.mem_cons_self ..)) tick
      have scheduled' : ∀ other ∈ ids, middle.tasks.Scheduled other := fun other member =>
        others other (fun same => fresh (same ▸ member))
          (scheduled other (List.mem_cons_of_mem _ member))
      obtain ⟨m, after, rest, holds''⟩ := ih holds' nodup scheduled'
      rw [List.append_assoc, ← List.replicate_add] at holds''
      refine ⟨n + m, after, ?_, holds''⟩
      show EStateM.bind (stepTasks.stepTask tick id) (fun _ => stepTasks tick ids) sim = _
      unfold EStateM.bind
      rw [stepped]
      exact rest

theorem stepTasks_spec (covered : Coverage) (tick : Tick)
    {fails : EngineError → Tracked σ → Prop} (holds : contract.Holds tracked) :
    Triple (· = tracked) (Tracked.track none (stepTasks tick (tracked.sim.pendingTasks covered)))
      (fun _ => contract.Holds) fails := by
  rintro ⟨sim, lineage⟩ rfl
  have nodup : (sim.pendingTasks covered).Nodup := holds.tasks.nodup_ids.filter _
  have scheduled : ∀ id ∈ sim.pendingTasks covered, sim.tasks.Scheduled id := fun id member =>
    holds.tasks.scheduled (List.mem_filter.1 member).1
  obtain ⟨n, after, stepped, holds'⟩ := stepTasks_holds holds nodup scheduled tick
  have size : after.flows.phases.size = lineage.length + n := by
    simpa using holds'.orders.forest.size
  simp only [Tracked.track, stepped, Tracked.follow_eq none size]
  exact holds'

theorem stepFlows_spec (tick : Tick) (keys : List (FlowId × Nat)) :
    Triple contract.Holds (Tracked.stepFlows tick keys) (fun _ => contract.Holds)
      (fun e after => contract.Stops e ∧ contract.Holds after) := by
  induction keys with
  | nil => exact Triple.pure fun _ holds => holds
  | cons key rest ih =>
      obtain ⟨id, activation⟩ := key
      refine Triple.get fun tracked holds => ?_
      refine Triple.bind_ite (fun _ => contract.Holds) ?_ fun reports => ?_
      · split
        next current =>
          obtain ⟨flow, active, -⟩ := Option.map_eq_some_iff.1 current
          refine (process_spec id tick).weaken ?_
          rintro _ rfl
          exact ⟨holds, flow, FlowTable.active?_eq_some.1 active⟩
        next =>
          refine Triple.pure ?_
          rintro _ rfl
          exact holds
      · exact ih.bind fun later => Triple.pure fun _ holds => holds

theorem runRounds_spec (tick : Tick) (limit remaining : Nat) (covered : Coverage)
    (reports : List Report) :
    Triple contract.Holds (Tracked.runRounds tick limit remaining covered reports)
      (fun _ => contract.Holds) (fun e after => contract.Stops e ∧ contract.Holds after) := by
  induction remaining generalizing covered reports with
  | zero =>
      refine Triple.get fun tracked holds => Triple.get ?_
      rintro _ rfl
      split
      · exact Triple.pure (by rintro _ rfl; exact holds)
      · exact Triple.throw (by rintro _ rfl; exact ⟨.inr rfl, holds⟩)
  | succ remaining ih =>
      refine Triple.get fun tracked holds => Triple.get ?_
      rintro _ rfl
      split
      · exact Triple.pure (by rintro _ rfl; exact holds)
      · refine (stepTasks_spec covered tick holds).bind fun _ => Triple.get fun stepped holds' => ?_
        refine ((stepFlows_spec tick _).weaken ?_).bind fun fresh => ih _ _
        rintro _ rfl
        exact holds'

theorem trackedTick_spec :
    Triple contract.Holds (Tracked.tick (σ := σ)) (fun _ => contract.Holds)
      (fun e after => contract.Stops e ∧ contract.Holds after) := by
  refine Triple.modify contract.Holds (fun _ holds => ?_) (Triple.get fun tracked holds => ?_)
  · exact ⟨holds.orders, holds.unsettled, holds.heap, holds.tasks⟩
  refine ((runRounds_spec _ _ _ _ _).weaken (by rintro _ rfl; exact holds)).bind fun reports => ?_
  refine Triple.modify contract.Holds (fun _ holds => ?_) (Triple.pure fun _ holds => holds)
  exact ⟨holds.orders, holds.unsettled, holds.heap, holds.tasks⟩

/-- A tick keeps up what holds of a simulation, and stops short only of a fault or the budget. -/
theorem tick_spec (holds : contract.Holds tracked) :
    match Simulation.tick tracked.sim with
    | .ok _ after => ∃ lineage, contract.Holds ⟨after, lineage⟩
    | .error e after => contract.Stops e ∧ ∃ lineage, contract.Holds ⟨after, lineage⟩ := by
  have ticked := trackedTick_spec tracked holds
  rw [Tracked.mirrors_tick tracked]
  cases done : Tracked.tick tracked with
  | ok report after =>
      rw [done] at ticked
      exact ⟨after.lineage, ticked⟩
  | error e after =>
      rw [done] at ticked
      exact ⟨ticked.1, after.lineage, ticked.2⟩

end Simulation

end Cadence
