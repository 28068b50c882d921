import Cadence.Proofs.Simulation.Rerun
import Cadence.Proofs.Simulation.Watch
/-!
Where the results of a tick go. A tick is run with a note of each result that a step produces:
whether it has surfaced or was held back. The notes change nothing, and the results that have
surfaced and those that are held back are read off them.
-/

namespace Cadence

open Contract Engine

variable {S σ α : Type}

def Report.isYielded : Report → Bool
  | yielded _ _ _ => true
  | constructed _ _ _ _ => false

namespace EffectTable

def Affects (table : EffectTable) (heap : Heap) (effect : String) (address : Address) : Prop :=
  ∃ node, heap.nodeAt address = .ok node ∧ table.affecting? node = some effect

/-- There is one effect that affects every address that the responses touch. -/
def Encloses (table : EffectTable) (heap : Heap) (responses : List Response) : Prop :=
  ∃ effect, ∀ response ∈ responses, ∀ address ∈ response.traffic.addresses,
    table.Affects heap effect address

end EffectTable

/-! ## Notes -/

/-- A result of a step: the responses, of which flow they are, and whether they were held back. -/
structure Routing where
  flow : FlowId
  name : String
  responses : List Response
  held : Bool

def Routing.result (routing : Routing) : Report :=
  .yielded routing.flow routing.name routing.responses

def heldBack (routings : List Routing) : List Report :=
  (routings.filter (·.held)).map Routing.result

def surfacing (routings : List Routing) : List Report :=
  (routings.filter (!·.held)).map Routing.result

structure Noted (S : Type) where
  state : S
  routings : List Routing := []

namespace Noted

def lift (operation : Engine S α) : Engine (Noted S) α := fun noted =>
  match operation noted.state with
  | .ok a state => .ok a { noted with state }
  | .error e state => .error e { noted with state }

def route (effects : EffectTable) (tick : Tick) (responses : List Response) :
    Engine (Noted (Stage σ)) (Option Report) := fun noted =>
  match Stage.route effects tick responses noted.state with
  | .error e state => .error e { noted with state }
  | .ok result? state =>
    let flow := noted.state.flow
    let routings := (resultOf responses).map (⟨flow.id, flow.name, ·, result?.isNone⟩)
    .ok result? ⟨state, noted.routings ++ routings⟩

variable [Coroutine σ]

def drive (effects : EffectTable) (tick : Tick) (limit : Nat) :
    Nat → List Response → List Report → Engine (Noted (Stage σ)) (List Report × Boundary σ)
  | 0, _, _ => do throw (.stepBudgetExceeded (← get).state.flow.id (limit + 1))
  | steps + 1, pending, surfaced => do
    let isFirst := (← get).state.flow.stepsTaken = 0
    let outcome ← lift (Stage.advance tick)
    let edge ← if isFirst then lift (Stage.spawnEdge outcome tick) else pure []
    let result? ← route effects tick (pending ++ edge ++ outcome.responses)
    let surfaced := result?.toList ++ surfaced
    match outcome.boundary with
    | some boundary => return (surfaced.reverse, boundary)
    | none => drive effects tick limit steps [] surfaced

def run (effects : EffectTable) (tick : Tick) (limit : Nat) :
    Engine (Noted (Stage σ)) (List Report × Boundary σ) := do
  let pending ← lift (Stage.takeResumption tick)
  drive effects tick limit limit pending []

def process (id : FlowId) (tick : Tick) : Engine (Noted (Simulation σ)) (List Report) :=
  fun noted =>
    let sim := noted.state
    match sim.flows.active? id with
    | none => .error (.notActive id) noted
    | some flow =>
      match run sim.effects tick sim.limits.steps
          ⟨⟨flow, sim.heap, sim.replay, sim.journal⟩, noted.routings⟩ with
      | .error e stage => .error e ⟨sim.commit stage.state, stage.routings⟩
      | .ok (reports, boundary) stage =>
        lift (Simulation.process.conclude id tick flow.name reports boundary)
          ⟨sim.commit stage.state, stage.routings⟩

def probe : Probe σ (Noted (Simulation σ)) where
  sim := state
  change change noted := { noted with state := change noted.state }
  stepTasks tick ids := lift (Simulation.stepTasks tick ids)
  process := process

/-! ## Noting changes nothing -/

omit [Coroutine σ] in
theorem lift_mimics (operation : Engine S α) : Mimics (state (S := S)) (fun _ => True)
    (lift operation) operation (fun _ _ => True) fun _ _ => True := by
  intro noted _
  unfold lift
  cases done : operation noted.state with
  | ok a state => exact ⟨rfl, trivial⟩
  | error e state => exact ⟨rfl, trivial⟩

omit [Coroutine σ] in
theorem route_mimics (effects : EffectTable) (tick : Tick) (responses : List Response) :
    Mimics (state (S := Stage σ)) (fun _ => True) (route effects tick responses)
      (Stage.route effects tick responses) (fun _ _ => True) fun _ _ => True := by
  intro noted _
  unfold route
  cases done : Stage.route effects tick responses noted.state with
  | ok result? state => exact ⟨rfl, trivial⟩
  | error e state => exact ⟨rfl, trivial⟩

theorem drive_mimics (effects : EffectTable) (tick : Tick) (limit steps : Nat)
    (pending : List Response) (surfaced : List Report) :
    Mimics (state (S := Stage σ)) (fun _ => True) (drive effects tick limit steps pending surfaced)
      (Stage.drive effects tick limit steps pending surfaced) (fun _ _ => True) fun _ _ => True := by
  induction steps generalizing pending surfaced with
  | zero =>
      apply Mimics.get
      intro noted _
      exact Mimics.throw fun _ _ => trivial
  | succ steps ih =>
      apply Mimics.get
      intro noted _
      apply Mimics.bind ((lift_mimics (Stage.advance tick)).weaken fun _ _ => trivial)
      intro outcome
      simp only [ite_bind]
      have edge : Mimics (state (S := Stage σ)) (fun _ => True)
          (if noted.state.flow.stepsTaken = 0 then lift (Stage.spawnEdge outcome tick) else pure [])
          (if noted.state.flow.stepsTaken = 0 then Stage.spawnEdge outcome tick else pure [])
          (fun _ _ => True) fun _ _ => True := by
        split
        · exact lift_mimics _
        · exact Mimics.pure fun _ _ => trivial
      apply edge.bind
      intro edge
      apply (route_mimics effects tick _).bind
      intro result?
      cases outcome.boundary with
      | none => exact ih [] _
      | some boundary => exact Mimics.pure fun _ _ => trivial

theorem run_mimics (effects : EffectTable) (tick : Tick) (limit : Nat) :
    Mimics (state (S := Stage σ)) (fun _ => True) (run effects tick limit)
      (Stage.run effects tick limit) (fun _ _ => True) fun _ _ => True :=
  (lift_mimics _).bind fun pending => drive_mimics effects tick limit limit pending []

theorem process_mimics (id : FlowId) (tick : Tick) :
    Mimics (state (S := Simulation σ)) (fun _ => True) (process id tick)
      (Simulation.process id tick) (fun _ _ => True) fun _ _ => True := by
  intro noted _
  unfold process Simulation.process
  cases active : noted.state.flows.active? id with
  | none => simp only [active, and_self]
  | some flow =>
      have ran := run_mimics noted.state.effects tick noted.state.limits.steps
        ⟨⟨flow, noted.state.heap, noted.state.replay, noted.state.journal⟩, noted.routings⟩ trivial
      simp only [active]
      cases done : run noted.state.effects tick noted.state.limits.steps
          ⟨⟨flow, noted.state.heap, noted.state.replay, noted.state.journal⟩, noted.routings⟩ with
      | error e after =>
          rw [done] at ran
          simp only [ran.1, and_self]
      | ok result after =>
          rw [done] at ran
          simp only [ran.1]
          exact lift_mimics (Simulation.process.conclude id tick flow.name result.1 result.2)
            ⟨noted.state.commit after.state, after.routings⟩ trivial

end Noted

/-! ## Enclosed results -/

theorem Traffic.addresses_ne_nil (traffic : Traffic) : traffic.addresses ≠ [] := by
  cases traffic <;> simp [addresses]

namespace EffectTable

variable {table : EffectTable} {heap : Heap} {effect : String} {address : Address}
  {addresses : List Address}

theorem encloses_cons {shared : Option String} :
    table.encloses heap shared (address :: addresses) = .ok true ↔ ∃ effect,
      table.Affects heap effect address ∧ (∀ other, shared = some other → other = effect) ∧
        table.encloses heap (some effect) addresses = .ok true := by
  unfold Affects
  rw [encloses]
  cases located : heap.nodeAt address with
  | error e => simp [bind, Except.bind]
  | ok node =>
      simp only [bind, Except.bind]
      cases affecting : table.affecting? node with
      | none => simp [affecting, pure, Except.pure]
      | some effect =>
          cases shared with
          | none => simp [affecting]
          | some other => by_cases same : other = effect <;> simp [affecting, pure, Except.pure, same]

theorem encloses_some : table.encloses heap (some effect) addresses = .ok true ↔
    ∀ address ∈ addresses, table.Affects heap effect address := by
  induction addresses with
  | nil => simp [encloses]
  | cons address addresses ih =>
      rw [encloses_cons, List.forall_mem_cons]
      constructor
      · rintro ⟨_, here, same, rest⟩
        obtain rfl := same effect rfl
        exact ⟨here, ih.1 rest⟩
      · rintro ⟨here, rest⟩
        exact ⟨effect, here, fun other same => (Option.some.inj same).symm, ih.2 rest⟩

theorem encloses_none (some : addresses ≠ []) : table.encloses heap none addresses = .ok true ↔
    ∃ effect, ∀ address ∈ addresses, table.Affects heap effect address := by
  cases addresses with
  | nil => exact absurd rfl some
  | cons address addresses =>
      rw [encloses_cons]
      refine exists_congr fun effect => ?_
      rw [List.forall_mem_cons, encloses_some]
      simp

theorem isInternal_iff {responses : List Response} (some : responses ≠ []) :
    table.isInternal heap responses = .ok true ↔ table.Encloses heap responses := by
  obtain ⟨response, rest, rfl⟩ := List.exists_cons_of_ne_nil some
  have touched : (response :: rest).flatMap (fun response => response.traffic.addresses) ≠ [] := by
    simp [Traffic.addresses_ne_nil]
  unfold isInternal
  split
  next nothing =>
    have none : table.effects = [] := by simpa [isEmpty] using nothing
    simp only [Except.ok.injEq, Bool.false_eq_true, false_iff]
    rintro ⟨effect, affects⟩
    obtain ⟨address, member⟩ := List.exists_mem_of_ne_nil _ response.traffic.addresses_ne_nil
    obtain ⟨node, -, affected⟩ := affects response List.mem_cons_self address member
    simp [affecting?, none, smallest?] at affected
  next =>
    rw [encloses_none touched]
    simp only [Encloses, List.mem_flatMap, forall_exists_index, and_imp]
    exact exists_congr fun effect => ⟨fun all response member address touches =>
      all address response member touches, fun all address response member touches =>
        all response member address touches⟩

end EffectTable

/-! ## Accounts -/

structure Routing.Decided (effects : EffectTable) (tick : Tick) (heap : Heap) (routing : Routing) :
    Prop where
  some : routing.responses ≠ []
  issued : Issued tick routing.responses
  covered : heap.Covers routing.responses
  routed : effects.isInternal heap routing.responses = .ok routing.held

structure Accounts (effects : EffectTable) (tick : Tick) (before : ReplayStore) (told : List Report)
    (heap : Heap) (replay : ReplayStore) (routings : List Routing) : Prop where
  told : told.filter Report.isYielded = surfacing routings
  held : replay = (heldBack routings).foldl (·.hold tick) before
  decided : ∀ routing ∈ routings, routing.Decided effects tick heap

variable {effects : EffectTable} {tick : Tick} {before replay : ReplayStore} {told : List Report}
  {heap more : Heap} {routings : List Routing}

theorem accounts_nil (effects : EffectTable) (tick : Tick) (store : ReplayStore) (heap : Heap) :
    Accounts effects tick store [] heap store [] :=
  ⟨rfl, rfl, by simp⟩

theorem Accounts.within (accounts : Accounts effects tick before told heap replay routings)
    (within : heap.Within more) : Accounts effects tick before told more replay routings where
  told := accounts.told
  held := accounts.held
  decided routing member := by
    have decided := accounts.decided routing member
    exact { decided with
      covered := decided.covered.grows within.grows
      routed := (EffectTable.isInternal_within within effects decided.covered).trans decided.routed }

theorem Accounts.tell (accounts : Accounts effects tick before told heap replay routings)
    {fresh : List Report} (constructed : ∀ result ∈ fresh, result.isYielded = false) :
    Accounts effects tick before (told ++ fresh) heap replay routings where
  told := by
    have nothing : fresh.filter Report.isYielded = [] := by
      simpa [List.filter_eq_nil_iff] using constructed
    rw [List.filter_append, nothing, List.append_nil, accounts.told]
  held := accounts.held
  decided := accounts.decided

theorem Accounts.route (accounts : Accounts effects tick before told heap replay routings)
    {routing : Routing} (decided : routing.Decided effects tick heap) :
    Accounts effects tick before (told ++ routing.result.unless routing.held) heap
      (replay.holdIf routing.held tick routing.result) (routings ++ [routing]) where
  told := by
    rw [List.filter_append, accounts.told]
    cases held : routing.held <;>
      simp [surfacing, Report.unless, Report.isYielded, Routing.result, held]
  held := by
    rw [accounts.held]
    cases held : routing.held <;> simp [heldBack, ReplayStore.holdIf, held]
  decided := by
    rw [List.forall_mem_append, List.forall_mem_singleton]
    exact ⟨accounts.decided, decided⟩

namespace Noted

def Backed (tick : Tick) (before : ReplayStore) (replay : ReplayStore) (routings : List Routing) : Prop :=
  replay = (heldBack routings).foldl (·.hold tick) before

variable [Coroutine σ] {contract : Contract σ} {id : FlowId} {base : Heap} {pending : List Response}

theorem advance_accounts (contract : Contract σ) (id : FlowId) (base : Heap) (effects : EffectTable)
    (tick : Tick) (before : ReplayStore) (pending : List Response) (told : List Report) :
    Triple (fun noted => (contract.Drives id base none noted.state ∧
          noted.state.heap.Covers pending) ∧
        Accounts effects tick before told noted.state.heap noted.state.replay noted.routings)
      (lift (Stage.advance tick))
      (fun outcome noted => (contract.Drives id base outcome.boundary noted.state ∧
          noted.state.heap.Covers pending ∧ noted.state.heap.Covers outcome.responses) ∧
        Issued tick outcome.responses ∧
        Accounts effects tick before told noted.state.heap noted.state.replay noted.routings)
      (fun _ noted => Backed tick before noted.state.replay noted.routings) := by
  rintro ⟨stage, routings⟩ ⟨known, accounts⟩
  have advanced := Stage.advance_spec tick pending stage known
  have within := stage.flow.step_within stage.heap tick
  unfold lift
  unfold Stage.advance at advanced ⊢
  cases result : (stage.flow.step stage.heap tick).result with
  | error e =>
      simp only [result]
      exact accounts.held
  | ok outcome =>
      simp only [result] at advanced ⊢
      exact ⟨advanced, Flow.issued_step result, accounts.within within⟩

omit [Coroutine σ] in
theorem issued_spawnEdge (flow after : Flow σ) (responses : List Response) (tick : Tick) :
    Issued tick (flow.spawnEdge after responses tick) := by
  unfold Flow.spawnEdge
  split
  · split
    · exact issued_nil
    · split
      · exact issued_one _
      · exact issued_nil
  · exact issued_nil

omit [Coroutine σ] in
theorem issued_pending (flow : Flow σ) (tick : Tick) : Issued tick (flow.pending tick) := by
  unfold Flow.pending
  split
  · exact issued_nil
  · split
    · intro response member
      obtain ⟨released, -, edge⟩ := List.mem_filterMap.1 member
      obtain ⟨source, -, rfl⟩ := Option.map_eq_some_iff.1 edge
      exact ⟨rfl, rfl⟩
    · exact issued_nil

theorem spawnEdge_accounts {outcome : Outcome σ} (flow : Flow σ)
    {fails : EngineError → Noted (Stage σ) → Prop} :
    Triple (fun noted => (contract.Drives id base outcome.boundary noted.state ∧
          noted.state.heap.Covers pending ∧ noted.state.heap.Covers outcome.responses) ∧
        Issued tick outcome.responses ∧
        Accounts effects tick before told noted.state.heap noted.state.replay noted.routings)
      (if flow.stepsTaken = 0 then lift (Stage.spawnEdge outcome tick) else pure [])
      (fun edge noted => (contract.Drives id base outcome.boundary noted.state ∧
          noted.state.heap.Covers (pending ++ edge ++ outcome.responses)) ∧
        (Issued tick edge ∧ Issued tick outcome.responses) ∧
        Accounts effects tick before told noted.state.heap noted.state.replay noted.routings)
      fails := by
  rintro ⟨stage, routings⟩ ⟨known, issued, accounts⟩
  have lifted : (if flow.stepsTaken = 0 then lift (Stage.spawnEdge outcome tick) else pure []) =
      lift (if flow.stepsTaken = 0 then Stage.spawnEdge outcome tick else pure []) := by
    split <;> rfl
  have drawn := @Stage.spawnEdge_spec _ _ id base contract outcome pending (flow.stepsTaken = 0) _
    tick (fun _ _ => False) stage known
  rw [lifted]
  unfold lift
  cases done : (if flow.stepsTaken = 0 then Stage.spawnEdge outcome tick else pure []) stage with
  | error e after =>
      rw [done] at drawn
      exact drawn.elim
  | ok edge after =>
      rw [done] at drawn
      obtain ⟨rfl, rfl⟩ := Stage.spawnEdge_eq done
      simp only
      exact ⟨drawn, ⟨issued_spawnEdge flow after.flow outcome.responses tick, issued⟩, accounts⟩

theorem route_accounts {boundary : Option (Boundary σ)} {responses : List Response}
    (issued : Issued tick responses) {fails : EngineError → Noted (Stage σ) → Prop} :
    Triple (fun noted => (contract.Drives id base boundary noted.state ∧
          noted.state.heap.Covers responses) ∧
        Accounts effects tick before told noted.state.heap noted.state.replay noted.routings)
      (route effects tick responses)
      (fun result? noted => contract.Drives id base boundary noted.state ∧
        Accounts effects tick before (told ++ result?.toList) noted.state.heap noted.state.replay
          noted.routings) fails := by
  rintro ⟨stage, routings⟩ ⟨known, accounts⟩
  have routed := @Stage.route_spec _ _ contract id base effects tick boundary responses
    (fun _ _ => False) stage known
  unfold route
  unfold Stage.route at routed ⊢
  by_cases silent : responses.isEmpty = true
  · simp only [if_pos silent] at routed ⊢
    refine ⟨routed, ?_⟩
    simpa [resultOf, silent] using accounts
  · obtain ⟨internal, found⟩ := effects.isInternal_ok known.2
    have some : responses ≠ [] := by simpa using silent
    have decided : Routing.Decided effects tick stage.heap
        ⟨stage.flow.id, stage.flow.name, responses, internal⟩ := ⟨some, issued, known.2, found⟩
    have accounts := accounts.route decided
    rw [Routing.result] at accounts
    simp only [if_neg silent, found] at routed ⊢
    cases internal with
    | true => exact ⟨routed, by simpa [resultOf, silent, Report.unless, ReplayStore.holdIf] using accounts⟩
    | false => exact ⟨routed, by simpa [resultOf, silent, Report.unless, ReplayStore.holdIf] using accounts⟩

theorem drive_accounts (limit steps : Nat) (issued : Issued tick pending)
    (earlier surfaced : List Report) :
    Triple (fun noted => (contract.Drives id base none noted.state ∧
          noted.state.heap.Covers pending) ∧
        Accounts effects tick before (earlier ++ surfaced.reverse) noted.state.heap
          noted.state.replay noted.routings)
      (drive effects tick limit steps pending surfaced)
      (fun result noted => Accounts effects tick before (earlier ++ result.1) noted.state.heap
        noted.state.replay noted.routings)
      (fun _ noted => Backed tick before noted.state.replay noted.routings) := by
  induction steps generalizing pending surfaced with
  | zero =>
      apply Triple.get
      intro noted known
      apply Triple.throw
      rintro _ rfl
      exact known.2.held
  | succ steps ih =>
      refine Triple.get fun first known => ?_
      refine Triple.bind ((advance_accounts contract id base effects tick before pending
        (earlier ++ surfaced.reverse)).weaken ?_) fun outcome => ?_
      · rintro _ rfl
        exact known
      refine Triple.bind_ite _ (spawnEdge_accounts first.state.flow) fun edge => ?_
      rintro noted ⟨known, issued', accounts⟩
      have responded := (issued.append issued'.1).append issued'.2
      refine Triple.bind (route_accounts responded) (fun result? => ?_) noted ⟨known, accounts⟩
      have longer : earlier ++ surfaced.reverse ++ result?.toList =
          earlier ++ (result?.toList ++ surfaced).reverse := by
        cases result? <;> simp
      rw [longer]
      cases outcome.boundary with
      | some boundary => exact Triple.pure fun noted known => known.2
      | none =>
          apply (ih issued_nil _).weaken
          intro noted known
          exact ⟨⟨known.1, by simp [Heap.Covers]⟩, known.2⟩

theorem run_accounts (limit : Nat) (stage : Stage σ) (heap : contract.heap stage.heap)
    (active : contract.Active stage.heap id stage.flow) :
    Triple (fun noted => noted.state = stage ∧
        Accounts effects tick before told noted.state.heap noted.state.replay noted.routings)
      (run effects tick limit)
      (fun result noted => Accounts effects tick before (told ++ result.1) noted.state.heap
        noted.state.replay noted.routings)
      (fun _ noted => Backed tick before noted.state.replay noted.routings) := by
  rintro noted ⟨rfl, accounts⟩
  obtain ⟨pending, taken, covers⟩ := Stage.takeResumption_ok active tick
  obtain ⟨same, -⟩ := Stage.takeResumption_eq taken
  have issued : Issued tick pending := by
    rw [same]
    exact issued_pending noted.state.flow tick
  have drives := active.drives heap
  have lifted : lift (Stage.takeResumption tick) noted =
      .ok pending { noted with
        state := { noted.state with flow := { noted.state.flow with resumption := none } } } := by
    unfold lift
    rw [taken]
  unfold run
  rw [bind_of_ok lifted]
  refine drive_accounts limit limit issued told [] _ ⟨⟨drives, covers⟩, ?_⟩
  rw [List.reverse_nil, List.append_nil]
  exact accounts

omit [Coroutine σ] in
theorem onFlows_holds {β : Type} (operation : Engine (FlowTable σ) β) (sim : Simulation σ) :
    Triple (· = sim) (Simulation.onFlows operation)
      (fun _ after =>
        after.heap = sim.heap ∧ after.replay = sim.replay ∧ after.effects = sim.effects)
      (fun _ after => after.replay = sim.replay) := by
  rintro sim rfl
  unfold Simulation.onFlows
  simp only
  cases operation sim.flows with
  | ok b flows => exact ⟨rfl, rfl, rfl⟩
  | error e flows => rfl

omit [Coroutine σ] in
theorem await_holds (id : FlowId) (request : Request σ) (caller : Address) (tick : Tick)
    (sim : Simulation σ) :
    Triple (· = sim) (Simulation.await id request caller tick)
      (fun _ after =>
        after.heap = sim.heap ∧ after.replay = sim.replay ∧ after.effects = sim.effects)
      (fun _ after => after.replay = sim.replay) := by
  rintro sim rfl
  unfold Simulation.await
  cases request.strategy.check id request.recipes.length with
  | error e => rfl
  | ok => exact onFlows_holds _ sim sim rfl

omit [Coroutine σ] in
theorem conclude_tells (id : FlowId) (tick : Tick) (name : String) (reports : List Report)
    (boundary : Boundary σ) (sim : Simulation σ) :
    Triple (· = sim) (Simulation.process.conclude id tick name reports boundary)
      (fun all after => (∃ fresh, all = reports ++ fresh ∧
          ∀ result ∈ fresh, result.isYielded = false) ∧
        after.heap = sim.heap ∧ after.replay = sim.replay ∧ after.effects = sim.effects)
      (fun _ after => after.replay = sim.replay) := by
  rintro sim rfl
  cases boundary with
  | halt => exact ⟨⟨[], by simp⟩, rfl, rfl, rfl⟩
  | await request caller =>
      rw [Simulation.conclude_await]
      have frame := await_holds id request caller tick sim sim rfl
      cases done : Simulation.await id request caller tick sim with
      | ok cancelled after =>
          rw [done] at frame
          exact ⟨⟨[], by simp⟩, frame⟩
      | error e after =>
          rw [done] at frame
          exact frame
  | complete value last =>
      rw [Simulation.conclude_complete]
      have frame := onFlows_holds (FlowTable.complete id value last tick) sim sim rfl
      cases done : Simulation.onFlows (FlowTable.complete id value last tick) sim with
      | ok cancelled after =>
          rw [done] at frame
          exact ⟨⟨_, rfl, by simp [Report.isYielded]⟩, frame⟩
      | error e after =>
          rw [done] at frame
          exact frame

theorem process_accounts (id : Nat) :
    Triple (fun noted => ((any σ).Kept noted.state ∧
          ∃ flow, noted.state.flows.find? id = some (.active flow)) ∧
        noted.state.effects = effects ∧
        Accounts effects tick before told noted.state.heap noted.state.replay noted.routings)
      (process id tick)
      (fun fresh noted => noted.state.effects = effects ∧
        Accounts effects tick before (told ++ fresh) noted.state.heap noted.state.replay
          noted.routings)
      (fun _ noted => Backed tick before noted.state.replay noted.routings) := by
  rintro ⟨sim, routings⟩ ⟨⟨⟨lineage, holds⟩, flow, found⟩, rfl, accounts⟩
  have ran := run_accounts sim.limits.steps ⟨flow, sim.heap, sim.replay, sim.journal⟩ holds.heap
    (holds.orders.admits id _ found)
    ⟨⟨flow, sim.heap, sim.replay, sim.journal⟩, routings⟩ ⟨rfl, accounts⟩
  unfold process
  simp only [FlowTable.active?_eq_some.2 found]
  cases done : run sim.effects tick sim.limits.steps
      ⟨⟨flow, sim.heap, sim.replay, sim.journal⟩, routings⟩ with
  | error e stage =>
      rw [done] at ran
      exact ran
  | ok result stage =>
      rw [done] at ran
      have told := conclude_tells id tick flow.name result.1 result.2 (sim.commit stage.state) _ rfl
      simp only [lift]
      cases concluded : Simulation.process.conclude id tick flow.name result.1 result.2
          (sim.commit stage.state) with
      | error e after =>
          rw [concluded] at told
          simp only at told ⊢
          rw [told]
          exact ran.held
      | ok reports after =>
          rw [concluded] at told
          obtain ⟨⟨fresh, rfl, constructed⟩, heap, replay, effects⟩ := told
          simp only
          rw [heap, replay, effects, ← List.append_assoc]
          exact ⟨rfl, ran.tell constructed⟩

/-! ## Ticks -/

theorem faithful (start : Simulation σ) (tick : Tick) :
    (probe (σ := σ)).Faithful tick (fun reports noted => (any σ).Kept noted.state ∧
        noted.state.effects = start.effects ∧
        Accounts start.effects tick start.replay reports noted.state.heap noted.state.replay
          noted.routings)
      (fun _ noted => Backed tick start.replay noted.state.replay noted.routings) where
  change _ _ := rfl
  tasks reports covered noted known := by
    obtain ⟨kept, effects, accounts⟩ := known
    apply ((lift_mimics _).weaken fun _ _ => trivial).and_triple
    rintro noted rfl
    obtain ⟨after, done, kept'⟩ := Simulation.pendingTasks_ok kept covered tick
    have launches := Simulation.stepTasks_launches done
    have retains := Simulation.stepTasks_retains noted.state tick (noted.state.pendingTasks covered)
      noted.state (.refl _)
    simp only [probe, lift, done] at retains ⊢
    refine ⟨kept', retains.effects.trans effects, ?_⟩
    rw [launches.replay]
    exact accounts.within retains.heap
  process reports id := by
    apply (process_mimics id tick).and_triple
    rintro noted ⟨⟨kept, effects, accounts⟩, found⟩
    have same := process_mimics id tick noted trivial
    have kept' := Simulation.process_kept id tick noted.state ⟨kept, found⟩
    have accounts' := process_accounts id noted ⟨⟨kept, found⟩, effects, accounts⟩
    simp only
    cases done : process id tick noted with
    | error e after =>
        rw [done] at accounts'
        exact accounts'
    | ok fresh after =>
        rw [done] at same accounts'
        simp only [same.1] at kept'
        exact ⟨kept', accounts'⟩
  stop _ _ _ known := known.2.2.held

/-- A tick with notes is the tick without, and its notes account for all that it has told and held
back; also where it fails, they account for what is held back. -/
theorem tick_accounts {sim : Simulation σ} (kept : (any σ).Kept sim) :
    match (probe (σ := σ)).tick ⟨sim, []⟩ with
    | .ok report noted => Simulation.tick sim = .ok report noted.state ∧
        Accounts sim.effects sim.now sim.replay report.reports noted.state.heap noted.state.replay
          noted.routings
    | .error e noted => Simulation.tick sim = .error e noted.state ∧
        Backed sim.now sim.replay noted.state.replay noted.routings := by
  have begun : Accounts sim.effects sim.now sim.replay [] sim.heap sim.replay [] :=
    accounts_nil ..
  have ticked := (faithful sim sim.now).tick
    (fun reports (noted : Noted (Simulation σ)) => Accounts sim.effects sim.now sim.replay reports
      noted.state.heap noted.state.replay noted.routings)
    ⟨kept.unjournaled, rfl, begun⟩ (fun _ _ known => known.2.2) ⟨sim, []⟩ rfl
  cases done : (probe (σ := σ)).tick ⟨sim, []⟩ with
  | ok report noted =>
      rw [done] at ticked
      exact ⟨ticked.1, ticked.2.2⟩
  | error e noted =>
      rw [done] at ticked
      exact ticked

end Noted

end Cadence
