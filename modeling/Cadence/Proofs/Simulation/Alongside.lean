import Cadence.Proofs.Coupling
import Cadence.Proofs.Flow.Response
import Cadence.Proofs.Simulation.Rounds
/-!
Two simulations side by side, of the same flows and tasks. They may differ in their effects, in what
these have held back, and in nodes that loading methods has given to their heaps. They go through
ticks alike: what differs is where their results are told.
-/

namespace Cadence

open Contract Engine

variable {σ α : Type}

structure Heap.Lasting (alike : Heap → Heap → Prop) : Prop where
  within : ∀ {heap more}, alike heap more → heap.Within more
  load : ∀ {heap more} (address : Address), alike heap more →
    alike (heap.ensureNode address) (more.ensureNode address)

theorem Heap.lasting_eq : Lasting (· = ·) where
  within same := same ▸ .refl _
  load address same := congrArg (ensureNode · address) same

theorem Heap.lasting_within : Lasting Within where
  within within := within
  load address within := within.ensureNode address

theorem Heap.Within.grows {heap more : Heap} (within : heap.Within more) : heap.Grows more where
  objects object present := by rwa [within.get?]
  nodes address present := by
    rcases within.nodes address.location with same | ⟨absent, -⟩
    · simpa only [hasNode, same] using present
    · simp [hasNode, absent] at present

namespace Flow

variable {flow : Flow σ} {heap more : Heap} {alike : Heap → Heap → Prop} {tick : Tick}

theorem load_within (within : heap.Within more) (address : Address) (params : List Json)
    (isDependency : Bool) :
    flow.load more address params isDependency tick =
      (flow.load heap address params isDependency tick).map
        fun (outcome, flow, _) => (outcome, flow, more.ensureNode address) := by
  cases records : flow.stack.records with
  | nil => simp [load, Stack.peek, records, bind, Except.bind, Except.map]
  | cons top below =>
      rw [load_eq records, load_eq records, within.get?]
      split <;> rfl

theorem load_heap {address : Address} {params : List Json} {isDependency : Bool}
    {outcome : Outcome σ} {after : Flow σ} {later : Heap}
    (done : flow.load heap address params isDependency tick = .ok (outcome, after, later)) :
    later = heap.ensureNode address := by
  cases records : flow.stack.records with
  | nil => simp [load, Stack.peek, records, bind, Except.bind] at done
  | cons top below =>
      rw [load_eq records] at done
      split at done
      · cases done
      · exact (Prod.mk.inj (Prod.mk.inj (Except.ok.inj done)).2).2.symm

theorem perform_alongside (lasting : Heap.Lasting alike) (related : alike heap more)
    (command : Command σ) :
    (flow.perform more command tick).1 = (flow.perform heap command tick).1 ∧
      (flow.perform more command tick).2.1 = (flow.perform heap command tick).2.1 ∧
      alike (flow.perform heap command tick).2.2 (flow.perform more command tick).2.2 := by
  unfold perform
  cases command.action with
  | load params isDependency =>
      simp only [load_within (lasting.within related)]
      cases loaded : flow.load heap command.address params isDependency tick with
      | error e => exact ⟨rfl, rfl, related⟩
      | ok result =>
          obtain ⟨outcome, after, later⟩ := result
          obtain rfl := load_heap loaded
          exact ⟨rfl, rfl, lasting.load _ related⟩
  | log entries => exact ⟨rfl, rfl, related⟩
  | halt covered total => exact ⟨rfl, rfl, related⟩
  | await request => exact ⟨rfl, rfl, related⟩
  | unload value => exact ⟨rfl, rfl, related⟩

theorem step_alongside [Coroutine σ] (lasting : Heap.Lasting alike) (related : alike heap more)
    (flow : Flow σ) (tick : Tick) :
    (flow.step more tick).result = (flow.step heap tick).result ∧
      (flow.step more tick).flow = (flow.step heap tick).flow ∧
      (flow.step more tick).exchange = (flow.step heap tick).exchange ∧
      alike (flow.step heap tick).heap (flow.step more tick).heap := by
  unfold step
  cases flow.takeInput with
  | error e => exact ⟨rfl, rfl, rfl, related⟩
  | ok taken =>
      obtain ⟨input, popped, taken⟩ := taken
      simp only
      cases (Coroutine.resume taken.coroutine input).1 with
      | error message => exact ⟨rfl, rfl, rfl, related⟩
      | ok signal =>
          cases signal with
          | complete value => exact ⟨rfl, rfl, rfl, related⟩
          | yielded command =>
              obtain ⟨result, same, heaps⟩ := perform_alongside lasting related command
              exact ⟨result, same, rfl, heaps⟩

theorem step_within [Coroutine σ] (flow : Flow σ) (heap : Heap) (tick : Tick) :
    heap.Within (flow.step heap tick).heap := by
  -- A step on one heap is a step on two that are the same.
  have lasting : Heap.Lasting fun more more' => more = more' ∧ heap.Within more := by
    refine ⟨fun related => related.1 ▸ .refl _, fun address related => ?_⟩
    exact ⟨related.1 ▸ rfl, related.2.trans (Heap.within_ensureNode ..)⟩
  exact (step_alongside lasting ⟨rfl, .refl heap⟩ flow tick).2.2.2.2

end Flow

def Report.unless (result : Report) (internal : Bool) : List Report :=
  if internal then [] else [result]

def ReplayStore.holdIf (store : ReplayStore) (internal : Bool) (tick : Tick) (result : Report) :
    ReplayStore :=
  if internal then store.hold tick result else store

/--
How two simulations differ, the second of which is on the smaller heap: in their effects, their heaps,
and what has surfaced of each so far beside what it has held back.
-/
structure Pairing where
  effects : EffectTable
  effects' : EffectTable
  heaps : Heap → Heap → Prop
  told : List Report → List Report → ReplayStore → ReplayStore → Prop

structure Pairing.Lasts (pairing : Pairing) (tick : Tick) : Prop where
  heaps : Heap.Lasting pairing.heaps
  surface : ∀ {surfaced surfaced' replay replay'} (result : Report),
    pairing.told surfaced surfaced' replay replay' →
      pairing.told (surfaced ++ [result]) (surfaced' ++ [result]) replay replay'
  route : ∀ {surfaced surfaced' replay replay' heap more responses internal internal'}
    (flow : FlowId) (name : String), pairing.told surfaced surfaced' replay replay' →
    pairing.heaps heap more → heap.Covers responses → Issued tick responses →
    pairing.effects.isInternal more responses = .ok internal →
    pairing.effects'.isInternal heap responses = .ok internal' →
      pairing.told (surfaced ++ (Report.yielded flow name responses).unless internal)
        (surfaced' ++ (Report.yielded flow name responses).unless internal')
        (replay.holdIf internal tick (.yielded flow name responses))
        (replay'.holdIf internal' tick (.yielded flow name responses))

variable {pairing : Pairing} {tick : Tick} {surfaced surfaced' : List Report}

namespace Stage

variable {left right : Stage σ}

structure Beside (pairing : Pairing) (surfaced surfaced' : List Report) (left right : Stage σ) :
    Prop where
  same : left = { right with heap := left.heap, replay := left.replay }
  heaps : pairing.heaps right.heap left.heap
  told : pairing.told surfaced surfaced' left.replay right.replay

def Parted (pairing : Pairing) (left right : Stage σ) : Prop :=
  ∃ surfaced surfaced', Beside pairing surfaced surfaced' left right

theorem coupled_takeResumption (pairing : Pairing) (tick : Tick) (surfaced surfaced' : List Report) :
    Coupled (Beside pairing surfaced surfaced') (takeResumption (σ := σ) tick) (takeResumption tick)
      (fun pending pending' left right => (pending = pending' ∧ Issued tick pending) ∧
        Beside pairing surfaced surfaced' left right) (Parted pairing) := by
  rintro left right ⟨same, heaps, told⟩
  rw [same]
  unfold takeResumption
  cases right.flow.resumption with
  | none => exact ⟨⟨rfl, issued_nil⟩, rfl, heaps, told⟩
  | some resumption =>
      simp only
      cases right.flow.stack.peek 0 with
      | error e => exact ⟨rfl, _, _, rfl, heaps, told⟩
      | ok top =>
          simp only
          split
          · exact ⟨rfl, _, _, rfl, heaps, told⟩
          · split
            · exact ⟨⟨rfl, issued_nil⟩, rfl, heaps, told⟩
            · refine ⟨⟨rfl, fun response member => ?_⟩, rfl, heaps, told⟩
              obtain ⟨released, -, edge⟩ := List.mem_filterMap.1 member
              obtain ⟨source, -, rfl⟩ := Option.map_eq_some_iff.1 edge
              exact ⟨rfl, rfl⟩

theorem coupled_advance [Coroutine σ] (lasting : Heap.Lasting pairing.heaps) (tick : Tick)
    (surfaced surfaced' : List Report) :
    Coupled (Beside pairing surfaced surfaced') (advance (σ := σ) tick) (advance tick)
      (fun outcome outcome' left right => (outcome = outcome' ∧ Issued tick outcome.responses) ∧
        Beside pairing surfaced surfaced' left right) (Parted pairing) := by
  rintro left right ⟨same, heaps, told⟩
  obtain ⟨result, flow, exchange, heaps'⟩ := Flow.step_alongside lasting heaps right.flow tick
  rw [same]
  unfold advance
  simp only [result, flow, exchange]
  cases done : (right.flow.step right.heap tick).result with
  | error e => exact ⟨rfl, _, _, rfl, heaps', told⟩
  | ok outcome => exact ⟨⟨rfl, Flow.issued_step done⟩, rfl, heaps', told⟩

theorem coupled_spawnEdge (pairing : Pairing) (tick : Tick) (surfaced surfaced' : List Report)
    (outcome : Outcome σ) (isFirst : Prop) [Decidable isFirst] :
    Coupled (Beside pairing surfaced surfaced')
      (if isFirst then spawnEdge outcome tick else pure [])
      (if isFirst then spawnEdge outcome tick else pure [])
      (fun edge edge' left right => (edge = edge' ∧ Issued tick edge) ∧
        Beside pairing surfaced surfaced' left right) (Parted pairing) := by
  rintro left right ⟨same, heaps, told⟩
  rw [same]
  by_cases first : isFirst
  · simp only [if_pos first, spawnEdge]
    show Agree _ _ (EStateM.bind (spawnEdge.liftExcept right.flow.stack.root) _ _)
      (EStateM.bind (spawnEdge.liftExcept right.flow.stack.root) _ _)
    cases right.flow.stack.root with
    | error e => exact ⟨rfl, _, _, rfl, heaps, told⟩
    | ok root =>
        simp only [spawnEdge.liftExcept, EStateM.bind, pure, EStateM.pure]
        generalize outcome.responses.head?.map Response.traffic = first?
        cases root.address? with
        | none => exact ⟨⟨rfl, issued_nil⟩, rfl, heaps, told⟩
        | some caller =>
            rcases first? with _ | ⟨address, params⟩ | _
            · exact ⟨⟨rfl, issued_nil⟩, rfl, heaps, told⟩
            · exact ⟨⟨rfl, issued_one _⟩, rfl, heaps, told⟩
            all_goals exact ⟨⟨rfl, issued_nil⟩, rfl, heaps, told⟩
  · simp only [if_neg first]
    exact ⟨⟨rfl, issued_nil⟩, rfl, heaps, told⟩

theorem coupled_route (lasts : pairing.Lasts tick) (surfaced surfaced' : List Report)
    {responses : List Response} (issued : Issued tick responses) :
    Coupled (fun left right => Beside pairing surfaced surfaced' left right ∧
        right.heap.Covers responses)
      (route (σ := σ) pairing.effects tick responses) (route pairing.effects' tick responses)
      (fun result? result?' left right =>
        Beside pairing (surfaced ++ result?.toList) (surfaced' ++ result?'.toList) left right)
      (Parted pairing) := by
  rintro left right ⟨⟨same, heaps, told⟩, covers⟩
  rw [same]
  unfold route
  by_cases silent : responses.isEmpty = true
  · rw [if_pos silent, if_pos silent]
    refine ⟨rfl, heaps, ?_⟩
    simpa using told
  · rw [if_neg silent, if_neg silent]
    have grows := (lasts.heaps.within heaps).grows
    obtain ⟨internal, found⟩ := pairing.effects.isInternal_ok (covers.grows grows)
    obtain ⟨internal', found'⟩ := pairing.effects'.isInternal_ok covers
    have routed := lasts.route right.flow.id right.flow.name told heaps covers issued found found'
    simp only [found, found']
    cases internal <;> cases internal' <;> exact ⟨rfl, heaps, routed⟩

variable [Coroutine σ] {id : FlowId} {base : Heap}

theorem coupled_drive (lasts : pairing.Lasts tick) (limit steps : Nat) {pending : List Response}
    (issued : Issued tick pending) (earlier earlier' fresh fresh' : List Report) :
    Coupled (fun left right =>
        Beside pairing (earlier ++ fresh.reverse) (earlier' ++ fresh'.reverse) left right ∧
          (any σ).Drives id base none right ∧ right.heap.Covers pending)
      (drive pairing.effects tick limit steps pending fresh)
      (drive pairing.effects' tick limit steps pending fresh')
      (fun result result' left right => result.2 = result'.2 ∧
        Beside pairing (earlier ++ result.1) (earlier' ++ result'.1) left right) (Parted pairing) := by
  -- Both sides spend one and the same budget, so it is the budget that the induction goes by.
  induction steps generalizing pending fresh fresh' with
  | zero =>
      refine Coupled.get fun left right related => ?_
      have same : left.flow = right.flow := by rw [related.1.same]
      rw [same]
      refine Coupled.throw ?_
      rintro _ _ ⟨rfl, rfl⟩
      exact ⟨_, _, related.1⟩
  | succ steps ih =>
      refine Coupled.get fun left right related => ?_
      have same : left.flow = right.flow := by rw [related.1.same]
      rw [same]
      let surfaced := earlier ++ fresh.reverse
      let surfaced' := earlier' ++ fresh'.reverse
      refine ((coupled_advance lasts.heaps tick surfaced surfaced').bind_same
        (@advance_spec _ _ (any σ) id base tick pending) fun outcome issued' => ?_).weaken ?_
      · simp only [ite_bind]
        refine (coupled_spawnEdge pairing tick surfaced surfaced' outcome
          (right.flow.stepsTaken = 0)).bind_same (@spawnEdge_spec _ _ id base (any σ) outcome pending
            (right.flow.stepsTaken = 0) _ tick fun _ _ => True) fun edge issuedEdge => ?_
        have responded := (issued.append issuedEdge).append issued'
        refine Coupled.bind (((coupled_route lasts surfaced surfaced' responded).and_triple
          (@route_spec _ _ (any σ) id base pairing.effects' tick outcome.boundary _
            fun _ _ => True)).weaken ?_) fun result? result?' => ?_
        · rintro left right ⟨beside, drives, covers⟩
          exact ⟨⟨beside, covers⟩, drives, covers⟩
        · have longer (found : Option Report) (before last : List Report) :
              before ++ last.reverse ++ found.toList =
                before ++ (found.toList ++ last).reverse := by
            cases found <;> simp
          simp only [surfaced, surfaced', longer]
          cases outcome.boundary with
          | some boundary => exact Coupled.pure fun left right reached => ⟨rfl, reached.1⟩
          | none =>
              refine (ih issued_nil _ _).weaken fun left right reached => ?_
              exact ⟨reached.1, reached.2, by simp [Heap.Covers]⟩
      · rintro _ _ ⟨rfl, rfl⟩
        exact related

theorem coupled_run (lasts : pairing.Lasts tick) (limit : Nat) {start : Stage σ}
    (active : (any σ).Active start.heap id start.flow) (earlier earlier' : List Report) :
    Coupled (fun left right => Beside pairing earlier earlier' left right ∧ right = start)
      (run pairing.effects tick limit) (run pairing.effects' tick limit)
      (fun result result' left right => result.2 = result'.2 ∧
        Beside pairing (earlier ++ result.1) (earlier' ++ result'.1) left right)
      (Parted pairing) := by
  refine (coupled_takeResumption pairing tick earlier earlier').bind_same
    (@takeResumption_spec _ _ (any σ) id start tick trivial active fun _ _ => True)
    fun pending issued => ?_
  refine (@coupled_drive _ pairing tick _ id start.heap lasts limit limit pending issued earlier
    earlier' [] []).weaken ?_
  rintro left right ⟨beside, reached⟩
  exact ⟨by simpa using beside, reached⟩

end Stage

namespace Simulation

variable {left right : Simulation σ}

structure Beside (pairing : Pairing) (surfaced surfaced' : List Report) (left right : Simulation σ) :
    Prop where
  same : left =
    { right with heap := left.heap, effects := pairing.effects, replay := left.replay }
  effects : right.effects = pairing.effects'
  heaps : pairing.heaps right.heap left.heap
  told : pairing.told surfaced surfaced' left.replay right.replay

def Parted (pairing : Pairing) (left right : Simulation σ) : Prop :=
  ∃ surfaced surfaced', Beside pairing surfaced surfaced' left right

theorem coupled_onFlows (operation : Engine (FlowTable σ) α) :
    Coupled (Beside pairing surfaced surfaced') (onFlows operation) (onFlows operation)
      (fun a a' left right => a = a' ∧ Beside pairing surfaced surfaced' left right)
      (Parted pairing) := by
  rintro left right ⟨same, plain, heaps, told⟩
  rw [same]
  simp only [onFlows]
  cases operation right.flows with
  | ok a flows => exact ⟨rfl, rfl, plain, heaps, told⟩
  | error e flows => exact ⟨rfl, _, _, rfl, plain, heaps, told⟩

theorem coupled_await (id : FlowId) (request : Request σ) (caller : Address) :
    Coupled (Beside pairing surfaced surfaced') (await id request caller tick)
      (await id request caller tick)
      (fun a a' left right => a = a' ∧ Beside pairing surfaced surfaced' left right)
      (Parted pairing) := by
  intro left right beside
  unfold await
  cases request.strategy.check id request.recipes.length with
  | error e => exact ⟨rfl, _, _, beside⟩
  | ok => exact coupled_onFlows _ left right beside

theorem coupled_conclude (lasts : pairing.Lasts tick) (id : FlowId) (name : String)
    (boundary : Boundary σ) (reports reports' : List Report) :
    Coupled (Beside pairing (surfaced ++ reports) (surfaced' ++ reports'))
      (process.conclude id tick name reports boundary)
      (process.conclude id tick name reports' boundary)
      (fun all all' left right => Beside pairing (surfaced ++ all) (surfaced' ++ all') left right)
      (Parted pairing) := by
  cases boundary with
  | halt => exact Coupled.pure fun _ _ beside => beside
  | await request caller =>
      refine (coupled_await id request caller).discard.bind fun _ _ => Coupled.pure ?_
      rintro left right ⟨-, -, -, beside⟩
      exact beside
  | complete value last =>
      refine (coupled_onFlows _).bind fun cancelled cancelled' => Coupled.pure ?_
      rintro left right ⟨rfl, same, plain, heaps, told⟩
      refine ⟨same, plain, heaps, ?_⟩
      rw [← List.append_assoc, ← List.append_assoc]
      exact lasts.surface _ told

theorem coupled_stepTasks (pairing : Pairing) (surfaced surfaced' : List Report)
    (ids : List TaskId) :
    Coupled (Beside pairing surfaced surfaced') (stepTasks (σ := σ) tick ids) (stepTasks tick ids)
      (fun _ _ => Beside pairing surfaced surfaced') (Parted pairing) := by
  induction ids with
  | nil => exact Coupled.pure fun _ _ beside => beside
  | cons id ids ih =>
      refine Coupled.bind (fun left right beside => ?_) fun _ _ => ih
      obtain ⟨same, plain, heaps, told⟩ := beside
      rw [same]
      simp only [stepTasks.stepTask]
      cases TaskTable.tick id right.tasks with
      | error e tasks => exact ⟨rfl, _, _, rfl, plain, heaps, told⟩
      | ok recipe? tasks =>
          cases recipe? with
          | none => exact ⟨rfl, plain, heaps, told⟩
          | some recipe => exact ⟨rfl, plain, heaps, told⟩

theorem Beside.pending (beside : Beside pairing surfaced surfaced' left right) (covered : Coverage) :
    left.pendingTasks covered = right.pendingTasks covered ∧
      left.pendingFlows covered = right.pendingFlows covered := by
  rw [beside.same]
  exact ⟨rfl, rfl⟩

variable [Coroutine σ]

theorem coupled_process (lasts : pairing.Lasts tick) (id : FlowId) :
    Coupled (fun left right => Beside pairing surfaced surfaced' left right ∧ (any σ).Kept right)
      (process id tick) (process id tick)
      (fun reports reports' left right =>
        Beside pairing (surfaced ++ reports) (surfaced' ++ reports') left right)
      (Parted pairing) := by
  rintro left right ⟨⟨same, plain, heaps, told⟩, lineage, holds⟩
  rw [same]
  simp only [process]
  cases found : right.flows.active? id with
  | none => exact ⟨rfl, _, _, rfl, plain, heaps, told⟩
  | some flow =>
      have active : (any σ).Active right.heap id flow :=
        holds.orders.admits id _ (FlowTable.active?_eq_some.1 found)
      have ran := @Stage.coupled_run _ pairing tick _ id lasts right.limits.steps
        ⟨flow, right.heap, right.replay, right.journal⟩ active surfaced surfaced'
        ⟨flow, left.heap, left.replay, right.journal⟩ _ ⟨⟨rfl, heaps, told⟩, rfl⟩
      simp only [plain]
      cases done : Stage.run pairing.effects tick right.limits.steps
          ⟨flow, left.heap, left.replay, right.journal⟩ with
      | ok result stage =>
          cases done' : Stage.run pairing.effects' tick right.limits.steps
              ⟨flow, right.heap, right.replay, right.journal⟩ with
          | ok result' stage' =>
              rw [done, done'] at ran
              obtain ⟨reports, boundary⟩ := result
              obtain ⟨reports', boundary'⟩ := result'
              obtain ⟨rfl, same', heaps', told'⟩ := ran
              refine coupled_conclude lasts id flow.name boundary reports reports' _ _ ?_
              refine ⟨?_, plain, heaps', told'⟩
              rw [same']
              rfl
          | error e stage' => simp [done, done', Agree] at ran
      | error e stage =>
          cases done' : Stage.run pairing.effects' tick right.limits.steps
              ⟨flow, right.heap, right.replay, right.journal⟩ with
          | ok result' stage' => simp [done, done', Agree] at ran
          | error e' stage' =>
              rw [done, done'] at ran
              obtain ⟨rfl, _, _, same', heaps', told'⟩ := ran
              refine ⟨rfl, _, _, ?_, plain, heaps', told'⟩
              rw [same']
              rfl

theorem coupled_stepFlows (lasts : pairing.Lasts tick) (keys : List (FlowId × Nat)) :
    Coupled (fun left right => Beside pairing surfaced surfaced' left right ∧ (any σ).Kept right)
      (stepFlows tick keys) (stepFlows tick keys)
      (fun reports reports' left right =>
        Beside pairing (surfaced ++ reports) (surfaced' ++ reports') left right ∧ (any σ).Kept right)
      (Parted pairing) := by
  induction keys generalizing surfaced surfaced' with
  | nil =>
      refine Coupled.pure fun left right => ?_
      simp
  | cons key rest ih =>
      obtain ⟨id, activation⟩ := key
      refine Coupled.get fun left right related => ?_
      obtain ⟨beside, kept⟩ := related
      have same : left.flows = right.flows := by rw [beside.same]
      simp only [same, ite_bind]
      have stepped : Coupled (fun sim sim' => sim = left ∧ sim' = right)
          (if (right.flows.active? id).map Flow.activation = some activation then
            process id tick else pure [])
          (if (right.flows.active? id).map Flow.activation = some activation then
            process id tick else pure [])
          (fun reports reports' left right =>
            Beside pairing (surfaced ++ reports) (surfaced' ++ reports') left right ∧
              (any σ).Kept right) (Parted pairing) := by
        split
        next current =>
          obtain ⟨flow, active, -⟩ := Option.map_eq_some_iff.1 current
          refine ((coupled_process lasts id).and_triple (process_kept id tick)).weaken ?_
          rintro _ _ ⟨rfl, rfl⟩
          exact ⟨⟨beside, kept⟩, kept, flow, FlowTable.active?_eq_some.1 active⟩
        next =>
          refine Coupled.pure ?_
          rintro _ _ ⟨rfl, rfl⟩
          simpa using ⟨beside, kept⟩
      refine stepped.bind fun reports reports' => ih.bind fun later later' => Coupled.pure ?_
      rintro left right ⟨beside, kept⟩
      simp only [← List.append_assoc]
      exact ⟨beside, kept⟩

theorem stepTasks_kept {contract : Contract σ} (covered : Coverage) (kept : contract.Kept right)
    (tick : Tick) {fails : EngineError → Simulation σ → Prop} :
    Triple (· = right) (stepTasks tick (right.pendingTasks covered)) (fun _ => contract.Kept)
      fails := by
  rintro sim rfl
  obtain ⟨after, done, kept'⟩ := pendingTasks_ok kept covered tick
  rw [done]
  exact kept'

theorem coupled_runRounds (lasts : pairing.Lasts tick) (limit remaining : Nat) (covered : Coverage)
    (surfaced surfaced' : List Report) :
    Coupled (fun left right => Beside pairing surfaced surfaced' left right ∧ (any σ).Kept right)
      (runRounds tick limit remaining covered surfaced)
      (runRounds tick limit remaining covered surfaced')
      (fun reports reports' left right =>
        Beside pairing reports reports' left right ∧ (any σ).Kept right) (Parted pairing) := by
  induction remaining generalizing covered surfaced surfaced' with
  | zero =>
      refine Coupled.get fun _ _ related => Coupled.get ?_
      rintro left right ⟨rfl, rfl⟩
      obtain ⟨tasks, flows⟩ := related.1.pending covered
      simp only [tasks, flows]
      split
      · exact Coupled.pure (by rintro _ _ ⟨rfl, rfl⟩; exact related)
      · exact Coupled.throw (by rintro _ _ ⟨rfl, rfl⟩; exact ⟨_, _, related.1⟩)
  | succ remaining ih =>
      refine Coupled.get fun _ _ related => Coupled.get ?_
      rintro left right ⟨rfl, rfl⟩
      obtain ⟨tasks, flows⟩ := related.1.pending covered
      simp only [tasks, flows]
      split
      · exact Coupled.pure (by rintro _ _ ⟨rfl, rfl⟩; exact related)
      · refine (((coupled_stepTasks pairing surfaced surfaced' _).and_triple
          (@stepTasks_kept _ right _ _ covered related.2 tick fun _ _ => True)).weaken ?_).bind
            fun _ _ => Coupled.get fun left' right' related' => ?_
        · rintro _ _ ⟨rfl, rfl⟩
          exact ⟨related.1, rfl⟩
        · obtain ⟨-, flows⟩ := related'.1.pending covered
          simp only [flows]
          refine ((coupled_stepFlows lasts _).weaken ?_).bind fun fresh fresh' => ih _ _ _
          rintro _ _ ⟨rfl, rfl⟩
          exact related'

/-- Two simulations that differ in nothing that matters go through a tick alike. -/
theorem coupled_tick (left right : Simulation σ) (lasts : pairing.Lasts right.now)
    (beside : Beside pairing [] [] { left with journal := [] } { right with journal := [] })
    (kept : (any σ).Kept right) :
    Agree (fun report report' left' right' => report.tick = right.now ∧ report'.tick = right.now ∧
        Beside pairing report.reports report'.reports left' right')
      (Parted pairing) (Simulation.tick left) (Simulation.tick right) := by
  have coupled : Coupled (fun sim sim' => sim = left ∧ sim' = right) Simulation.tick
      (Simulation.tick (σ := σ))
      (fun report report' left' right' => report.tick = right.now ∧ report'.tick = right.now ∧
        Beside pairing report.reports report'.reports left' right') (Parted pairing) := by
    refine Coupled.modify (fun sim sim' => (Beside pairing [] [] sim sim' ∧ (any σ).Kept sim') ∧
      sim'.now = right.now) ?_ (Coupled.get fun sim sim' related => ?_)
    · rintro _ _ ⟨rfl, rfl⟩
      obtain ⟨lineage, holds⟩ := kept
      exact ⟨⟨beside, lineage, holds.orders, holds.unsettled, holds.heap, holds.tasks⟩, rfl⟩
    · obtain ⟨related, now⟩ := related
      have now' : sim.now = right.now := by rw [related.1.same, now]
      have limits : sim.limits = sim'.limits := by rw [related.1.same]
      simp only [now, now', limits]
      refine ((coupled_runRounds lasts _ _ {} [] []).weaken ?_).bind fun reports reports' =>
        Coupled.modify (fun left right => Beside pairing reports reports' left right) ?_
          (Coupled.pure fun left right beside => ⟨rfl, rfl, beside⟩)
      · rintro _ _ ⟨rfl, rfl⟩
        exact related
      · rintro left right ⟨⟨same, plain, heaps, told⟩, kept⟩
        refine ⟨?_, plain, heaps, told⟩
        rw [same]
  exact coupled _ _ ⟨rfl, rfl⟩

end Simulation

end Cadence
