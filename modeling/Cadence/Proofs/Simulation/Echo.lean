import Cadence.Proofs.Coupling
import Cadence.Proofs.Flow.Renumbering
import Cadence.Proofs.Simulation.Stage
/-!
Driving a flow under another id. It runs to the same boundary with the same responses, and what
surfaces and what is held back is the same but for the id.
-/

namespace Cadence

open Contract Engine

variable {σ : Type} {f : FlowId → FlowId}

theorem EffectTable.encloses_within {heap more : Heap} (within : heap.Within more) (table : EffectTable)
    (shared : Option String) {addresses : List Address}
    (mapped : ∀ address ∈ addresses, heap.hasNode address = true) :
    table.encloses more shared addresses = table.encloses heap shared addresses := by
  induction addresses generalizing shared with
  | nil => rfl
  | cons address rest ih =>
      obtain ⟨here, mapped⟩ := List.forall_mem_cons.1 mapped
      simp only [encloses, within.nodeAt here]
      congr 1
      funext node
      split
      · rfl
      · split
        · rfl
        · exact ih _ mapped

theorem EffectTable.isInternal_within {heap more : Heap} (within : heap.Within more) (table : EffectTable)
    {responses : List Response} (covers : heap.Covers responses) :
    table.isInternal more responses = table.isInternal heap responses := by
  unfold isInternal
  rw [encloses_within within table none fun address member => ?_]
  obtain ⟨response, known, touched⟩ := List.mem_flatMap.1 member
  exact covers response known address touched

def HeldAlike (f : FlowId → FlowId) (id : FlowId) (tick : Tick) (before before' after after' : ReplayStore) :
    Prop :=
  ∃ held : List Report, (∀ report ∈ held, report.flow = id) ∧
    after = held.foldl (·.hold tick) before ∧
      after' = (held.map (Report.renumber f)).foldl (·.hold tick) before'

theorem HeldAlike.refl (f : FlowId → FlowId) (id : FlowId) (tick : Tick) (store store' : ReplayStore) :
    HeldAlike f id tick store store' store store' :=
  ⟨[], by simp, rfl, rfl⟩

theorem HeldAlike.hold {id : FlowId} {tick : Tick} {before before' after after' : ReplayStore}
    (alike : HeldAlike f id tick before before' after after') {result : Report}
    (known : result.flow = id) :
    HeldAlike f id tick before before' (after.hold tick result)
      (after'.hold tick (result.renumber f)) := by
  obtain ⟨held, all, rfl, rfl⟩ := alike
  refine ⟨held ++ [result], ?_, by simp, by simp⟩
  exact List.forall_mem_append.2 ⟨all, List.forall_mem_singleton.2 known⟩

namespace Stage

variable {id : FlowId} {tick : Tick} {start : Heap} {before before' : ReplayStore}
  {whole part after : Stage σ} {effects : EffectTable}

structure Echoes (f : FlowId → FlowId) (id : FlowId) (tick : Tick) (start : Heap)
    (before before' : ReplayStore) (whole part : Stage σ) : Prop where
  flow : part.flow = whole.flow.renumber f
  within : part.heap.Within whole.heap
  grown : start.Within whole.heap
  held : HeldAlike f id tick before before' whole.replay part.replay

theorem echoes_takeResumption (echoes : Echoes f id tick start before before' whole part)
    {pending : List Response} (done : takeResumption tick whole = .ok pending after) :
    ∃ after', takeResumption tick part = .ok pending after' ∧
      Echoes f id tick start before before' after after' := by
  obtain ⟨flow, heap, replay, journal⟩ := part
  obtain ⟨rfl, within, grown, held⟩ := echoes
  unfold takeResumption at done ⊢
  cases resumed : whole.flow.resumption with
  | none =>
      simp only [resumed] at done
      injection done with nothing same
      subst nothing same
      exact ⟨_, by simp [Flow.renumber, resumed], rfl, within, grown, held⟩
  | some resumption =>
      have resumed' : (whole.flow.renumber f).resumption = some (resumption.renumber f) := by
        simp [Flow.renumber, resumed]
      simp only [resumed, resumed'] at done ⊢
      cases records : whole.flow.stack.records with
      | nil => simp [Stack.peek, records] at done
      | cons top below =>
          have top? : whole.flow.stack.peek 0 = .ok top := by simp [Stack.peek, records]
          have top?' : (whole.flow.renumber f).stack.peek 0 = .ok top := by
            simp [Stack.peek, records]
          have edges : releaseEdges (resumption.renumber f) tick = releaseEdges resumption tick := by
            simp only [releaseEdges, Resumption.renumber, List.filterMap_map]
            rfl
          simp only [top?, top?', edges] at done ⊢
          split at done
          · cases done
          next primed =>
            rw [if_neg primed]
            split at done
            next unconsumed =>
              injection done with nothing same
              subst nothing same
              exact ⟨_, if_pos unconsumed, rfl, within, grown, held⟩
            next consumed =>
              injection done with nothing same
              subst nothing same
              exact ⟨_, if_neg consumed, rfl, within, grown, held⟩

theorem spawnEdge_of_root {outcome : Outcome σ} {root : Record}
    (bottom : whole.flow.stack.records.getLast? = some root) :
    spawnEdge outcome tick whole =
      .ok (match root.address?, outcome.responses.head?.map Response.traffic with
        | some caller, some (.load address params) =>
          [{ traffic := .call caller address params root.isDependency, tick }]
        | _, _ => []) whole := by
  have found : whole.flow.stack.root = .ok root := by simp [Stack.root, bottom]
  unfold spawnEdge
  show EStateM.bind (spawnEdge.liftExcept whole.flow.stack.root) _ whole = _
  rw [found]
  simp only [spawnEdge.liftExcept, EStateM.bind, pure, EStateM.pure]
  generalize outcome.responses.head?.map Response.traffic = first?
  cases root.address? with
  | none => rfl
  | some caller => rcases first? with _ | ⟨address, params⟩ | _ <;> rfl

theorem echoes_spawnEdge (echoes : Echoes f id tick start before before' whole part)
    {outcome : Outcome σ} {isFirst : Prop} [Decidable isFirst] {edge : List Response}
    (done : (if isFirst then spawnEdge outcome tick else pure []) whole = .ok edge after) :
    after = whole ∧ (if isFirst then spawnEdge outcome tick else pure []) part = .ok edge part := by
  by_cases first : isFirst
  · rw [if_pos first] at done ⊢
    cases bottom : whole.flow.stack.records.getLast? with
    | none =>
        unfold spawnEdge at done
        replace done : EStateM.bind (spawnEdge.liftExcept whole.flow.stack.root) _ whole =
          .ok edge after := done
        simp only [EStateM.bind, spawnEdge.liftExcept, Stack.root, bottom] at done
        cases done
    | some root =>
        have bottom' : part.flow.stack.records.getLast? = some root := by
          rw [echoes.flow]
          exact bottom
        rw [spawnEdge_of_root bottom] at done
        injection done with same same'
        subst same same'
        exact ⟨rfl, spawnEdge_of_root bottom'⟩
  · rw [if_neg first] at done ⊢
    obtain ⟨rfl, rfl⟩ := pure_ok.1 done
    exact ⟨rfl, rfl⟩

theorem echoes_route (echoes : Echoes f id tick start before before' whole part)
    (named : whole.flow.id = id) {responses : List Response} (covers : part.heap.Covers responses)
    {result? : Option Report} (done : route effects tick responses whole = .ok result? after) :
    (∀ result ∈ result?, result.flow = id) ∧
      ∃ after', route effects tick responses part = .ok (result?.map (Report.renumber f)) after' ∧
        Echoes f id tick start before before' after after' := by
  unfold route at done ⊢
  split at done
  next silent =>
    rw [if_pos silent]
    injection done with nothing same
    subst nothing same
    exact ⟨by simp, _, rfl, echoes⟩
  next loud =>
    rw [if_neg loud]
    rw [EffectTable.isInternal_within echoes.within effects covers] at done
    have named' : Report.yielded part.flow.id part.flow.name responses =
        (Report.yielded whole.flow.id whole.flow.name responses).renumber f := by
      rw [echoes.flow]
      rfl
    simp only [named'] at done ⊢
    cases internal : effects.isInternal part.heap responses with
    | error e => simp [internal] at done
    | ok held =>
        cases held with
        | true =>
            simp only [internal] at done ⊢
            injection done with nothing same
            subst nothing same
            exact ⟨by simp, _, rfl, echoes.flow, echoes.within, echoes.grown, echoes.held.hold named⟩
        | false =>
            simp only [internal] at done ⊢
            injection done with nothing same
            subst nothing same
            exact ⟨fun result same => Option.some.inj same ▸ named, _, rfl, echoes⟩

theorem advance_of_ok [Coroutine σ] {outcome : Outcome σ}
    (result : (whole.flow.step whole.heap tick).result = .ok outcome) :
    advance tick whole = .ok outcome
      { whole with
        flow := (whole.flow.step whole.heap tick).flow,
        heap := (whole.flow.step whole.heap tick).heap,
        journal := (whole.flow.step whole.heap tick).exchange.toList ++ whole.journal } := by
  simp only [advance, result]

theorem echoes_advance [Coroutine σ] (echoes : Echoes f id tick start before before' whole part)
    {outcome : Outcome σ} (done : advance tick whole = .ok outcome after) :
    ∃ after', advance tick part = .ok outcome after' ∧
      Echoes f id tick start before before' after after' := by
  cases result : (whole.flow.step whole.heap tick).result with
  | error e => simp [advance, result] at done
  | ok outcome' =>
      rw [advance_of_ok result] at done
      injection done with same same'
      subst same same'
      have stepped := Flow.echoes_step (f := f) echoes.within result
      rw [← echoes.flow] at stepped
      exact ⟨_, advance_of_ok stepped.result, stepped.flow, stepped.within,
        echoes.grown.trans stepped.grown, echoes.held⟩

variable [Coroutine σ] {base base' : Heap}

theorem echoes_drive (limit steps : Nat) (echoes : Echoes f id tick start before before' whole part)
    (drives : (any σ).Drives id base none whole) (drives' : (any σ).Drives (f id) base' none part)
    {pending : List Response} (covers : whole.heap.Covers pending)
    (covers' : part.heap.Covers pending) {surfaced reports : List Report}
    (known : ∀ report ∈ surfaced, report.flow = id) {boundary : Boundary σ}
    (done : drive effects tick limit steps pending surfaced whole = .ok (reports, boundary) after) :
    (∀ report ∈ reports, report.flow = id) ∧ ∃ after',
      drive effects tick limit steps pending (surfaced.map (Report.renumber f)) part =
          .ok (reports.map (Report.renumber f), boundary) after' ∧
        Echoes f id tick start before before' after after' := by
  induction steps generalizing whole part pending surfaced with
  | zero => cases done
  | succ steps ih =>
      obtain ⟨outcome, mid, edge, mid', result?, last, first, second, third, rest⟩ :=
        drive_succ_ok.1 done
      have same : part.flow.stepsTaken = whole.flow.stepsTaken := by rw [echoes.flow]; rfl
      obtain ⟨part', first', echoes⟩ := echoes_advance echoes first
      -- On either side what the edges name is on the heap, which is why both are routed alike.
      have stepped := advance_spec tick pending whole ⟨drives, covers⟩
      have stepped' := advance_spec tick pending part ⟨drives', covers'⟩
      rw [first] at stepped
      rw [first'] at stepped'
      obtain ⟨rfl, second'⟩ := echoes_spawnEdge echoes second
      have edged := @spawnEdge_spec _ _ id base (any σ) outcome pending
        (whole.flow.stepsTaken = 0) _ tick (fun _ _ => True) _ stepped
      have edged' := @spawnEdge_spec _ _ (f id) base' (any σ) outcome pending
        (whole.flow.stepsTaken = 0) _ tick (fun _ _ => True) _ stepped'
      rw [second] at edged
      rw [second'] at edged'
      obtain ⟨flagged, part'', third', echoes⟩ :=
        echoes_route echoes stepped.1.named edged'.2 third
      have routed := @route_spec _ _ (any σ) id base effects tick outcome.boundary _
        (fun _ _ => True) _ edged
      have routed' := @route_spec _ _ (any σ) (f id) base' effects tick outcome.boundary _
        (fun _ _ => True) _ edged'
      rw [third] at routed
      rw [third'] at routed'
      have known' : ∀ report ∈ result?.toList ++ surfaced, report.flow = id :=
        List.forall_mem_append.2 ⟨fun report member => flagged report (by simpa using member), known⟩
      have surfaced' : (result?.map (Report.renumber f)).toList ++ surfaced.map (Report.renumber f) =
          (result?.toList ++ surfaced).map (Report.renumber f) := by
        cases result? <;> simp
      simp only [drive_succ_ok, same]
      cases reached : outcome.boundary with
      | some boundary' =>
          simp only [reached] at rest
          obtain ⟨result, rfl⟩ := pure_ok.1 rest
          obtain ⟨rfl, rfl⟩ := Prod.mk.inj result
          refine ⟨fun report member => known' report (List.mem_reverse.1 member), part'',
            ⟨outcome, part', edge, part', _, part'', first', second', third', ?_⟩, echoes⟩
          simp only [reached, surfaced', List.map_reverse]
          rfl
      | none =>
          simp only [reached] at rest routed routed'
          obtain ⟨all, after', rest', echoes⟩ := ih echoes routed routed' (by simp [Heap.Covers])
            (by simp [Heap.Covers]) known' rest
          refine ⟨all, after',
            ⟨outcome, part', edge, part', _, part'', first', second', third', ?_⟩, echoes⟩
          simp only [reached, surfaced']
          exact rest'

theorem echoes_run (limit : Nat) (active : (any σ).Active whole.heap id whole.flow)
    (active' : (any σ).Active part.heap (f id) part.flow)
    (echoes : Echoes f id tick start before before' whole part) {reports : List Report}
    {boundary : Boundary σ} (done : run effects tick limit whole = .ok (reports, boundary) after) :
    (∀ report ∈ reports, report.flow = id) ∧ ∃ after',
      run effects tick limit part = .ok (reports.map (Report.renumber f), boundary) after' ∧
        Echoes f id tick start before before' after after' := by
  obtain ⟨pending, mid, taken, rest⟩ := bind_ok.1 done
  obtain ⟨part', taken', echoes⟩ := echoes_takeResumption echoes taken
  have spec := @takeResumption_spec _ _ (any σ) id whole tick trivial active (fun _ _ => True) whole rfl
  have spec' := @takeResumption_spec _ _ (any σ) (f id) part tick trivial active' (fun _ _ => True) part rfl
  rw [taken] at spec
  rw [taken'] at spec'
  obtain ⟨all, after', rest', echoes⟩ := echoes_drive limit limit echoes spec.1 spec'.1 spec.2 spec'.2
    (by simp) rest
  exact ⟨all, after', bind_ok.2 ⟨pending, part', taken', rest'⟩, echoes⟩

end Stage

end Cadence
