import Cadence.Proofs.Engine
import Cadence.Proofs.Simulation.Contract
import Cadence.Simulation.Process
/-!
Driving one flow to its next boundary. Whatever the flow's responses touch has a node, so that only
its coroutine or the budget can stop it before.
-/

namespace Cadence

theorem EffectTable.encloses_ok {heap : Heap} (table : EffectTable) (shared : Option String)
    {addresses : List Address} (mapped : ∀ address ∈ addresses, heap.hasNode address = true) :
    ∃ enclosed, table.encloses heap shared addresses = .ok enclosed := by
  induction addresses generalizing shared with
  | nil => exact ⟨_, rfl⟩
  | cons address rest ih =>
      obtain ⟨node, found⟩ := Heap.nodeAt_of_hasNode (mapped address (List.mem_cons_self ..))
      have mapped' : ∀ address ∈ rest, heap.hasNode address = true := fun other member =>
        mapped other (List.mem_cons_of_mem _ member)
      simp only [encloses, found, bind, Except.bind]
      split
      next => exact ⟨false, rfl⟩
      next effect affected =>
        split
        · exact ⟨false, rfl⟩
        · exact ih (some effect) mapped'

theorem EffectTable.isInternal_ok {heap : Heap} (table : EffectTable) {responses : List Response}
    (covers : heap.Covers responses) : ∃ internal, table.isInternal heap responses = .ok internal := by
  unfold isInternal
  split
  · exact ⟨false, rfl⟩
  · refine encloses_ok table none fun address member => ?_
    obtain ⟨response, known, touched⟩ := List.mem_flatMap.1 member
    exact covers response known address touched

namespace Contract

variable {σ : Type} [Coroutine σ] (contract : Contract σ)

/-- What a boundary says about the flow that has reached it; without one the flow goes on. -/
def Reached (heap : Heap) (flow : Flow σ) : Option (Boundary σ) → Prop
  | none | some .halt => contract.running flow.stack.records flow.coroutine
  | some (.await request caller) =>
    contract.parked flow.stack.records flow.coroutine ∧
      (∀ recipe ∈ request.recipes, contract.starts recipe.start) ∧
      (∀ e, request.strategy.check flow.id request.recipes.length = .error e →
        contract.faults e ∧ contract.running flow.stack.records flow.coroutine) ∧
      Stack.Parked flow.stack.records ∧ heap.hasNode caller = true
  | some (.complete _ last) => ∀ address, last = some address → heap.hasNode address = true

structure Drives (id : FlowId) (base : Heap) (boundary : Option (Boundary σ)) (stage : Stage σ) :
    Prop where
  named : stage.flow.id = id
  sound : stage.flow.Sound stage.heap
  resumed : stage.flow.resumption = none
  heap : contract.heap stage.heap
  grows : base.Grows stage.heap
  reached : contract.Reached stage.heap stage.flow boundary

/-- An error that the flow's coroutine has caused, or the exhausted budget. -/
def Stops (e : EngineError) : Prop :=
  contract.faults e ∨ e.isBudgetExhausted = true

variable {contract} {id : FlowId} {base : Heap} {stage : Stage σ} {tick : Tick}

theorem Drives.active (drives : contract.Drives id base none stage) :
    contract.Active stage.heap id stage.flow :=
  ⟨drives.named, drives.sound, drives.reached, by simp [drives.resumed]⟩

theorem Active.drives (active : contract.Active stage.heap id stage.flow)
    (heap : contract.heap stage.heap) : contract.Drives id stage.heap none
      { stage with flow := { stage.flow with resumption := none } } :=
  ⟨active.named, ⟨active.sound.shape, active.sound.maps⟩, rfl, heap, .refl _, active.running⟩

end Contract

def Contract.Steady {σ : Type} [Coroutine σ] (contract : Contract σ) (tick : Tick)
    (keeps : Option (Boundary σ) → Flow σ → List (Exchange σ) → Prop) : Prop :=
  ∀ (memory : Heap) (flow : Flow σ) (journal : List (Exchange σ)), contract.heap memory →
    flow.Sound memory → contract.running flow.stack.records flow.coroutine →
    keeps none flow journal →
      match (flow.step memory tick).result with
      | .ok outcome => keeps outcome.boundary (flow.step memory tick).flow
          ((flow.step memory tick).exchange.toList ++ journal)
      | .error _ => keeps none (flow.step memory tick).flow
          ((flow.step memory tick).exchange.toList ++ journal)

def Contract.Carries {σ : Type} [Coroutine σ] (contract : Contract σ) (tick : Tick)
    (keeps : Option (Boundary σ) → Heap → Flow σ → List (Exchange σ) → Prop)
    (fails : EngineError → Heap → Flow σ → List (Exchange σ) → Prop) : Prop :=
  ∀ (memory : Heap) (flow : Flow σ) (journal : List (Exchange σ)), contract.heap memory →
    flow.Sound memory → contract.running flow.stack.records flow.coroutine →
    keeps none memory flow journal →
      match (flow.step memory tick).result with
      | .ok outcome => keeps outcome.boundary (flow.step memory tick).heap
          (flow.step memory tick).flow ((flow.step memory tick).exchange.toList ++ journal)
      | .error e => fails e (flow.step memory tick).heap (flow.step memory tick).flow
          ((flow.step memory tick).exchange.toList ++ journal)

theorem Contract.Steady.carries {σ : Type} [Coroutine σ] {contract : Contract σ} {tick : Tick}
    {keeps : Option (Boundary σ) → Flow σ → List (Exchange σ) → Prop}
    (steady : contract.Steady tick keeps) :
    contract.Carries tick (fun boundary _ => keeps boundary) fun _ _ => keeps none :=
  steady

theorem Contract.steady_any {σ : Type} [Coroutine σ] (contract : Contract σ) (tick : Tick) :
    contract.Steady tick fun _ _ _ => True := by
  intro memory flow journal _ _ _ _
  split <;> trivial

namespace Stage

open Contract Engine

variable {σ : Type} {stage : Stage σ}

theorem spawnEdge_ok (sound : stage.flow.Sound stage.heap) {outcome : Outcome σ}
    (covers : stage.heap.Covers outcome.responses) (tick : Tick) :
    ∃ edge, spawnEdge outcome tick stage = .ok edge stage ∧ stage.heap.Covers edge := by
  obtain ⟨root, bottom⟩ : ∃ root, stage.flow.stack.records.getLast? = some root :=
    ⟨_, List.getLast?_eq_some_getLast sound.shape.ne_nil⟩
  have member : root ∈ stage.flow.stack.records := List.mem_of_getLast? bottom
  have found : stage.flow.stack.root = .ok root := by simp [Stack.root, bottom]
  have nothing : stage.heap.Covers [] := by simp [Heap.Covers]
  unfold spawnEdge
  show ∃ edge, EStateM.bind (spawnEdge.liftExcept stage.flow.stack.root) _ stage = .ok edge stage ∧ _
  rw [found]
  simp only [spawnEdge.liftExcept, EStateM.bind, pure, EStateM.pure]
  cases place : root.address? with
  | none => exact ⟨[], rfl, nothing⟩
  | some caller =>
      cases first : outcome.responses.head?.map Response.traffic with
      | none => exact ⟨[], rfl, nothing⟩
      | some traffic =>
          cases traffic with
          | load address params =>
              refine ⟨_, rfl, fun response known other touched => ?_⟩
              obtain rfl : response =
                  { traffic := .call caller address params root.isDependency, tick } := by
                simpa using known
              have ends : other = caller ∨ other = address := by simpa using touched
              obtain ⟨loaded, head, traffic⟩ := Option.map_eq_some_iff.1 first
              rcases ends with rfl | rfl
              · exact sound.maps root member other place
              · refine covers loaded (List.mem_of_head? head) other ?_
                rw [traffic]
                exact List.mem_singleton_self other
          | _ => exact ⟨[], rfl, nothing⟩

theorem route_ok (effects : EffectTable) (tick : Tick) {responses : List Response}
    (covers : stage.heap.Covers responses) :
    ∃ result? replay, route effects tick responses stage = .ok result? { stage with replay } := by
  unfold route
  split
  · exact ⟨none, stage.replay, rfl⟩
  · obtain ⟨internal, found⟩ := effects.isInternal_ok covers
    rw [found]
    cases internal with
    | true => exact ⟨none, _, rfl⟩
    | false => exact ⟨_, stage.replay, rfl⟩

variable [Coroutine σ] {contract : Contract σ} {id : FlowId} {base : Heap}

theorem takeResumption_ok (active : contract.Active stage.heap id stage.flow) (tick : Tick) :
    ∃ pending, takeResumption tick stage =
        .ok pending { stage with flow := { stage.flow with resumption := none } } ∧
      stage.heap.Covers pending := by
  unfold takeResumption
  cases resumed : stage.flow.resumption with
  | none =>
      have same : { stage with flow := { stage.flow with resumption := none } } = stage := by
        rw [← resumed]
      exact ⟨[], by rw [same], by simp [Heap.Covers]⟩
  | some resumption =>
      obtain ⟨⟨caller, released⟩, top, below, value, records, given⟩ :=
        active.primed resumption resumed
      have primed : isPrimed top = true := by simp [isPrimed, given]
      simp only [Stack.peek, records, List.getElem?_cons_zero, primed]
      cases resumption.isDependency with
      | false => exact ⟨[], rfl, by simp [Heap.Covers]⟩
      | true =>
          refine ⟨releaseEdges resumption tick, rfl, fun response member address touched => ?_⟩
          obtain ⟨one, known, edge⟩ := List.mem_filterMap.1 member
          obtain ⟨source, place, rfl⟩ := Option.map_eq_some_iff.1 edge
          have ends : address = source ∨ address = resumption.caller := by
            simpa [Traffic.addresses] using touched
          rcases ends with rfl | rfl
          · exact released one known address place
          · exact caller

theorem advance_spec (tick : Tick) (pending : List Response) :
    Triple (fun stage => contract.Drives id base none stage ∧ stage.heap.Covers pending)
      (advance tick)
      (fun outcome stage => contract.Drives id base outcome.boundary stage ∧
        stage.heap.Covers pending ∧ stage.heap.Covers outcome.responses)
      (fun e stage => contract.Stops e ∧ contract.Drives id base none stage) := by
  rintro stage ⟨drives, pendingCovered⟩
  obtain ⟨⟨input, -, ⟨records, kept⟩, -⟩, sound, grows, accepts⟩ :=
    Flow.step_advances drives.sound tick
  have keeps := contract.step tick drives.heap drives.sound drives.reached
  have heap := contract.grow grows drives.heap
  have pendingCovered := pendingCovered.grows grows
  have grows := drives.grows.trans grows
  have named : (stage.flow.step stage.heap tick).flow.id = id := by
    rw [kept]
    exact drives.named
  have resumed : (stage.flow.step stage.heap tick).flow.resumption = none := by
    rw [kept]
    exact drives.resumed
  simp only [advance]
  cases result : (stage.flow.step stage.heap tick).result with
  | error e =>
      rw [result] at keeps
      exact ⟨.inl keeps.1, named, sound, resumed, heap, grows, keeps.2⟩
  | ok outcome =>
      rw [result] at accepts keeps
      obtain ⟨covers, accepts⟩ := accepts
      refine ⟨⟨named, sound, resumed, heap, grows, ?_⟩, pendingCovered, covers⟩
      unfold Terms.Keeps at keeps
      unfold Reached
      cases boundary : outcome.boundary with
      | none => simpa only [boundary] using keeps
      | some boundary' =>
          cases boundary' with
          | halt => simpa only [boundary] using keeps
          | await request caller =>
              simp only [boundary] at keeps accepts
              exact ⟨keeps.1, keeps.2.1, keeps.2.2, accepts⟩
          | complete value last =>
              simp only [boundary] at accepts
              exact accepts

theorem spawnEdge_spec (contract : Contract σ) {outcome : Outcome σ} {pending : List Response}
    (isFirst : Prop) [Decidable isFirst] (tick : Tick) {fails : EngineError → Stage σ → Prop} :
    Triple (fun stage => contract.Drives id base outcome.boundary stage ∧
        stage.heap.Covers pending ∧ stage.heap.Covers outcome.responses)
      (if isFirst then spawnEdge outcome tick else pure [])
      (fun edge stage => contract.Drives id base outcome.boundary stage ∧
        stage.heap.Covers (pending ++ edge ++ outcome.responses)) fails := by
  rintro stage ⟨drives, pendingCovered, covers⟩
  by_cases first : isFirst
  · rw [if_pos first]
    obtain ⟨edge, done, edgeCovered⟩ := spawnEdge_ok drives.sound covers tick
    rw [done]
    exact ⟨drives, (pendingCovered.append edgeCovered).append covers⟩
  · rw [if_neg first]
    exact ⟨drives, (pendingCovered.append (by simp [Heap.Covers])).append covers⟩

theorem route_spec (effects : EffectTable) (tick : Tick) {boundary : Option (Boundary σ)}
    {responses : List Response} {fails : EngineError → Stage σ → Prop} :
    Triple (fun stage => contract.Drives id base boundary stage ∧ stage.heap.Covers responses)
      (route effects tick responses) (fun _ stage => contract.Drives id base boundary stage)
      fails := by
  rintro stage ⟨drives, covers⟩
  obtain ⟨result?, replay, done⟩ := route_ok effects tick covers
  rw [done]
  exact ⟨drives.named, drives.sound, drives.resumed, drives.heap, drives.grows, drives.reached⟩

def Passive {α : Type} (operation : Engine (Stage σ) α) : Prop :=
  ∀ stage, match operation stage with
    | .ok _ after | .error _ after =>
      after.heap = stage.heap ∧ after.flow = stage.flow ∧ after.journal = stage.journal

omit [Coroutine σ] in
theorem Passive.frame {α : Type} {operation : Engine (Stage σ) α} (passive : Passive operation)
    {pre : Stage σ → Prop} {post : α → Stage σ → Prop} {fails : EngineError → Stage σ → Prop}
    (triple : Triple pre operation post fails) (known : Heap → Flow σ → List (Exchange σ) → Prop) :
    Triple (fun stage => pre stage ∧ known stage.heap stage.flow stage.journal) operation
      (fun a stage => post a stage ∧ known stage.heap stage.flow stage.journal) fails := by
  rintro stage ⟨holds, kept⟩
  have reached := triple stage holds
  have same := passive stage
  cases done : operation stage with
  | ok a after =>
      rw [done] at reached same
      rw [← same.1, ← same.2.1, ← same.2.2] at kept
      exact ⟨reached, kept⟩
  | error e after => rwa [done] at reached

omit [Coroutine σ] in
theorem passive_route (effects : EffectTable) (tick : Tick) (responses : List Response) :
    Passive (route (σ := σ) effects tick responses) := by
  intro stage
  unfold route
  by_cases silent : responses.isEmpty = true
  · simp only [if_pos silent, and_self]
  · simp only [if_neg silent]
    cases effects.isInternal stage.heap responses with
    | error e => exact ⟨rfl, rfl, rfl⟩
    | ok internal => cases internal <;> exact ⟨rfl, rfl, rfl⟩

omit [Coroutine σ] in
theorem spawnEdge_cases (outcome : Outcome σ) (tick : Tick) (stage : Stage σ) :
    (∃ edge, spawnEdge outcome tick stage = .ok edge stage) ∨
      ∃ e, spawnEdge outcome tick stage = .error e stage := by
  unfold spawnEdge
  show (∃ edge, EStateM.bind (spawnEdge.liftExcept stage.flow.stack.root) _ stage = .ok edge stage) ∨
    ∃ e, EStateM.bind (spawnEdge.liftExcept stage.flow.stack.root) _ stage = .error e stage
  cases stage.flow.stack.root with
  | error e => exact .inr ⟨e, rfl⟩
  | ok root =>
      simp only [spawnEdge.liftExcept, EStateM.bind, pure, EStateM.pure]
      generalize outcome.responses.head?.map Response.traffic = first?
      cases root.address? with
      | none => exact .inl ⟨_, rfl⟩
      | some caller => rcases first? with _ | ⟨address, params⟩ | _ <;> exact .inl ⟨_, rfl⟩

omit [Coroutine σ] in
theorem passive_spawnEdge (outcome : Outcome σ) (isFirst : Prop) [Decidable isFirst] (tick : Tick) :
    Passive (if isFirst then spawnEdge outcome tick else pure []) := by
  intro stage
  by_cases first : isFirst
  · simp only [if_pos first]
    rcases spawnEdge_cases outcome tick stage with ⟨edge, done⟩ | ⟨e, done⟩
    · simp only [done, and_self]
    · simp only [done, and_self]
  · simp only [if_neg first]
    exact ⟨rfl, rfl, rfl⟩

theorem drive_succ_ok {effects : EffectTable} {limit steps : Nat} {pending : List Response}
    {surfaced : List Report} {result : List Report × Boundary σ} {tick : Tick} {after : Stage σ} :
    drive effects tick limit (steps + 1) pending surfaced stage = .ok result after ↔
      ∃ outcome mid edge mid' result? last, advance tick stage = .ok outcome mid ∧
        (if stage.flow.stepsTaken = 0 then spawnEdge outcome tick else pure []) mid =
          .ok edge mid' ∧
        route effects tick (pending ++ edge ++ outcome.responses) mid' = .ok result? last ∧
        (match outcome.boundary with
          | some boundary => pure ((result?.toList ++ surfaced).reverse, boundary)
          | none => drive effects tick limit steps [] (result?.toList ++ surfaced) :
            Engine (Stage σ) _) last = .ok result after := by
  simp only [drive, get_ok, ite_bind]
  constructor
  · intro done
    obtain ⟨outcome, mid, first, rest⟩ := bind_ok.1 done
    obtain ⟨edge, mid', second, rest⟩ := bind_ok.1 rest
    obtain ⟨result?, last, third, rest⟩ := bind_ok.1 rest
    exact ⟨outcome, mid, edge, mid', result?, last, first, second, third, rest⟩
  · rintro ⟨outcome, mid, edge, mid', result?, last, first, second, third, rest⟩
    exact bind_ok.2 ⟨outcome, mid, first, bind_ok.2 ⟨edge, mid', second,
      bind_ok.2 ⟨result?, last, third, rest⟩⟩⟩

variable {keeps : Option (Boundary σ) → Heap → Flow σ → List (Exchange σ) → Prop}
  {fails : EngineError → Heap → Flow σ → List (Exchange σ) → Prop}

theorem advance_keeps (carries : contract.Carries tick keeps fails) (id : FlowId) (base : Heap) :
    Triple (fun stage => contract.Drives id base none stage ∧
        keeps none stage.heap stage.flow stage.journal)
      (advance tick)
      (fun outcome stage => keeps outcome.boundary stage.heap stage.flow stage.journal)
      (fun e stage => fails e stage.heap stage.flow stage.journal) := by
  rintro stage ⟨drives, kept⟩
  have stepped := carries stage.heap stage.flow stage.journal drives.heap drives.sound drives.reached
    kept
  simp only [advance]
  cases result : (stage.flow.step stage.heap tick).result with
  | error e => simpa only [result] using stepped
  | ok outcome => simpa only [result] using stepped

theorem drive_spec (carries : contract.Carries tick keeps fails)
    (exhausted : ∀ e heap flow journal, e.isBudgetExhausted = true →
      keeps none heap flow journal → fails e heap flow journal)
    (effects : EffectTable) (limit steps : Nat) (pending : List Response) (surfaced : List Report) :
    Triple (fun stage => (contract.Drives id base none stage ∧ stage.heap.Covers pending) ∧
        keeps none stage.heap stage.flow stage.journal)
      (drive effects tick limit steps pending surfaced)
      (fun result stage => contract.Drives id base (some result.2) stage ∧
        keeps (some result.2) stage.heap stage.flow stage.journal)
      (fun e stage => (contract.Stops e ∧ contract.Drives id base none stage) ∧
        fails e stage.heap stage.flow stage.journal) := by
  induction steps generalizing pending surfaced with
  | zero =>
      refine Triple.get fun stage holds => Triple.throw ?_
      rintro _ rfl
      exact ⟨⟨.inr rfl, holds.1.1⟩, exhausted _ _ _ _ rfl holds.2⟩
  | succ steps ih =>
      refine Triple.get fun first holds => ?_
      refine Triple.bind (((advance_spec tick pending).and (advance_keeps carries id base)).weaken ?_)
        fun outcome => ?_
      · rintro _ rfl
        exact ⟨holds.1, holds.1.1, holds.2⟩
      refine Triple.bind_ite _ ((passive_spawnEdge outcome (first.flow.stepsTaken = 0) tick).frame
        (spawnEdge_spec contract (first.flow.stepsTaken = 0) tick) (keeps outcome.boundary))
          fun edge => ?_
      refine Triple.bind ((passive_route effects tick _).frame (route_spec effects tick)
        (keeps outcome.boundary)) fun result? => ?_
      cases boundary : outcome.boundary with
      | none =>
          refine (ih [] _).weaken fun stage ⟨drives, kept⟩ => ⟨⟨drives, ?_⟩, kept⟩
          simp [Heap.Covers]
      | some boundary => exact Triple.pure fun _ holds => holds

theorem takeResumption_spec (stage : Stage σ) (tick : Tick) (heap : contract.heap stage.heap)
    (active : contract.Active stage.heap id stage.flow) {fails : EngineError → Stage σ → Prop} :
    Triple (· = stage) (takeResumption tick)
      (fun pending after => contract.Drives id stage.heap none after ∧ after.heap.Covers pending)
      fails := by
  rintro _ rfl
  obtain ⟨pending, taken, covers⟩ := takeResumption_ok active tick
  rw [taken]
  exact ⟨active.drives heap, covers⟩

theorem run_carries (carries : contract.Carries tick keeps fails)
    (exhausted : ∀ e heap flow journal, e.isBudgetExhausted = true →
      keeps none heap flow journal → fails e heap flow journal)
    (stage : Stage σ) (effects : EffectTable) (limit : Nat) (heap : contract.heap stage.heap)
    (active : contract.Active stage.heap id stage.flow)
    (kept : keeps none stage.heap { stage.flow with resumption := none } stage.journal) :
    Triple (· = stage) (run effects tick limit)
      (fun result after => contract.Drives id stage.heap (some result.2) after ∧
        keeps (some result.2) after.heap after.flow after.journal)
      (fun e after => (contract.Stops e ∧ contract.Drives id stage.heap none after) ∧
        fails e after.heap after.flow after.journal) := by
  refine Triple.bind ?_ fun pending => drive_spec carries exhausted effects limit limit pending []
  rintro _ rfl
  obtain ⟨pending, taken, covers⟩ := takeResumption_ok active tick
  rw [taken]
  exact ⟨⟨active.drives heap, covers⟩, kept⟩

theorem run_spec {keeps : Option (Boundary σ) → Flow σ → List (Exchange σ) → Prop}
    (steady : contract.Steady tick keeps) (stage : Stage σ) (effects : EffectTable)
    (limit : Nat) (heap : contract.heap stage.heap)
    (active : contract.Active stage.heap id stage.flow)
    (kept : keeps none { stage.flow with resumption := none } stage.journal) :
    Triple (· = stage) (run effects tick limit)
      (fun result after => contract.Drives id stage.heap (some result.2) after ∧
        keeps (some result.2) after.flow after.journal)
      (fun e after => (contract.Stops e ∧ contract.Drives id stage.heap none after) ∧
        keeps none after.flow after.journal) :=
  run_carries steady.carries (fun _ _ _ _ _ kept => kept) stage effects limit heap active kept

end Stage

end Cadence
