import Cadence.Proofs.Simulation.Session
import Cadence.Proofs.Simulation.Turn
import Mathlib.Logic.Function.Basic
/-!
What every turn of a flow keeps up holds after a whole tick. At the end of a tick that succeeds,
each active flow has had its turn in the activation that it is in.
-/

namespace Cadence

namespace Coverage

def latest (flows : Array (Option Nat)) : FlowId → Option Nat
  | 0 => none
  | n + 1 => flows[n]?.join

theorem covers_iff {covered : Coverage} {key : FlowId × Nat} :
    covered.covers key = true ↔ latest covered.flows key.1 = some key.2 := by
  obtain ⟨id, activation⟩ := key
  cases id with
  | zero => simp [covers, latest]
  | succ n => simp [covers, latest]

abbrev note (stepped : FlowId → Option Nat) (key : FlowId × Nat) : FlowId → Option Nat :=
  Function.update stepped key.1 (some key.2)

theorem latest_cover {flows : Array (Option Nat)} {id : Nat} (positive : 0 < id) (activation : Nat) :
    latest (cover flows (id, activation)) = note (latest flows) (id, activation) := by
  obtain ⟨n, rfl⟩ : ∃ n, id = n + 1 := ⟨id - 1, by omega⟩
  have padded (k m : Nat) : (flows ++ Array.replicate k none)[m]?.join = flows[m]?.join := by
    rw [Array.getElem?_append, Array.getElem?_replicate]
    split
    · rfl
    next outside =>
      rw [Array.getElem?_eq_none (Nat.le_of_not_lt outside)]
      split <;> rfl
  funext other
  cases other with
  | zero => rfl
  | succ m =>
      by_cases same : m = n
      · subst same
        have inside : m < (flows ++ Array.replicate (m + 1 - flows.size) none).size := by
          simp
          omega
        simp [cover, latest, Array.getElem?_setIfInBounds_self_of_lt inside]
      · have apart : n ≠ m := fun h => same h.symm
        rw [note, Function.update_of_ne (by simpa using same)]
        simp only [cover, latest, Array.getElem?_setIfInBounds_ne apart, padded]

theorem latest_add {covered : Coverage} {tasks : List TaskId} {keys : List (FlowId × Nat)}
    (positive : ∀ key ∈ keys, 0 < key.1) :
    latest (covered.add tasks keys).flows = keys.foldl note (latest covered.flows) := by
  simp only [add]
  generalize covered.flows = flows
  induction keys generalizing flows with
  | nil => rfl
  | cons key keys ih =>
      have first : 0 < key.1 := positive key (List.mem_cons_self ..)
      rw [List.foldl_cons, ih fun other member => positive other (List.mem_cons_of_mem _ member),
        latest_cover first key.2, List.foldl_cons]

end Coverage

namespace FlowTable

variable {σ : Type} {table after : FlowTable σ} {stepped : FlowId → Option Nat}
  {rest : List (FlowId × Nat)}

structure Current (stepped : FlowId → Option Nat) (table : FlowTable σ) : Prop where
  inside : ∀ (id : Nat) activation, stepped id = some activation → id ≤ table.phases.size
  behind : ∀ id flow activation, table.live? id = some flow → stepped id = some activation →
    activation ≤ flow.activation

/-- The activations of a round that are still to be stepped, none of them for the second time. -/
structure Due (stepped : FlowId → Option Nat) (table : FlowTable σ) (rest : List (FlowId × Nat)) :
    Prop where
  sorted : (rest.map Prod.fst).Pairwise (· < ·)
  inside : ∀ key ∈ rest, 0 < key.1 ∧ key.1 ≤ table.phases.size
  behind : ∀ key ∈ rest, ∀ flow, table.live? key.1 = some flow → key.2 ≤ flow.activation
  fresh : ∀ key ∈ rest, ∀ activation, stepped key.1 = some activation → activation < key.2

theorem Current.ahead {id : FlowId} {flow : Flow σ} (current : table.Current stepped)
    (found : table.find? id = some (.active flow)) (unstepped : stepped id ≠ some flow.activation)
    (past : Nat) (known : stepped id = some past) : past < flow.activation := by
  have less := current.behind id flow past (live?_eq_some.2 (.inl found)) known
  exact Nat.lt_of_le_of_ne less fun same => unstepped (same ▸ known)

theorem Current.ages (current : table.Current stepped) (ages : table.Ages after) :
    after.Current stepped where
  inside id activation known := Nat.le_trans (current.inside id activation known) ages.size
  behind id flow activation live known := by
    obtain ⟨old, live', less⟩ := ages.live id flow (current.inside id activation known) live
    exact Nat.le_trans (current.behind id old activation live' known) less

theorem Due.ages (due : table.Due stepped rest) (ages : table.Ages after) : after.Due stepped rest where
  sorted := due.sorted
  inside key member :=
    ⟨(due.inside key member).1, Nat.le_trans (due.inside key member).2 ages.size⟩
  behind key member flow live := by
    obtain ⟨old, live', less⟩ := ages.live key.1 flow (due.inside key member).2 live
    exact Nat.le_trans (due.behind key member old live') less
  fresh := due.fresh

theorem Due.step {key : FlowId × Nat} (due : table.Due stepped (key :: rest))
    (current : table.Current stepped) :
    table.Current (Function.update stepped key.1 (some key.2)) ∧
      table.Due (Function.update stepped key.1 (some key.2)) rest := by
  have first : key ∈ key :: rest := List.mem_cons_self ..
  have later : ∀ other ∈ rest, other ∈ key :: rest := fun other => List.mem_cons_of_mem _
  have sorted : (∀ other ∈ rest.map Prod.fst, key.1 < other) ∧
      (rest.map Prod.fst).Pairwise (· < ·) := by
    simpa only [List.map_cons, List.pairwise_cons] using due.sorted
  constructor
  · constructor
    case inside =>
      intro id activation known
      by_cases same : id = key.1
      · exact same ▸ (due.inside key first).2
      · rw [Function.update_of_ne same] at known
        exact current.inside id activation known
    case behind =>
      intro id flow activation live known
      by_cases same : id = key.1
      · subst same
        obtain rfl : key.2 = activation := by simpa using known
        exact due.behind key first flow live
      · rw [Function.update_of_ne same] at known
        exact current.behind id flow activation live known
  · refine ⟨sorted.2, fun other member => due.inside other (later other member),
      fun other member => due.behind other (later other member), fun other member activation known => ?_⟩
    have apart : key.1 < other.1 := sorted.1 other.1 (List.mem_map_of_mem member)
    rw [Function.update_of_ne (Nat.ne_of_gt apart)] at known
    exact due.fresh other (later other member) activation known

theorem due_pendingFlows {sim : Simulation σ} {covered : Coverage}
    (current : sim.flows.Current (Coverage.latest covered.flows)) :
    sim.flows.Due (Coverage.latest covered.flows) (sim.pendingFlows covered) := by
  have found (key : FlowId × Nat) (member : key ∈ sim.pendingFlows covered) :
      ∃ flow, sim.flows.find? key.1 = some (.active flow) ∧ flow.activation = key.2 :=
    mem_activations.1 (List.mem_filter.1 member).1
  constructor
  case sorted =>
    exact (sorted_activations sim.flows).sublist (List.filter_sublist.map Prod.fst)
  case inside =>
    intro key member
    obtain ⟨flow, active, -⟩ := found key member
    exact le_size_of_find? active
  case behind =>
    intro key member flow live
    obtain ⟨flow', active, same⟩ := found key member
    rw [live?_eq_some.2 (.inl active)] at live
    obtain rfl := Option.some.inj live
    exact Nat.le_of_eq same.symm
  case fresh =>
    intro key member activation known
    obtain ⟨flow, active, same⟩ := found key member
    have uncovered : ¬ covered.covers key = true := by
      simpa using (List.mem_filter.1 member).2
    rw [Coverage.covers_iff, known] at uncovered
    have := current.behind key.1 flow activation (live?_eq_some.2 (.inl active)) known
    have : activation ≠ key.2 := fun same => uncovered (by rw [same])
    omega

end FlowTable

namespace Contract

open FlowTable Engine

variable {σ : Type} {tick : Tick} {id : Nat} {start : Flow σ} {journal : List (Exchange σ)}
  {before after : FlowTable σ} {keeps : Option (Boundary σ) → Flow σ → List (Exchange σ) → Prop}

theorem Turn.ages (turn : Turn keeps tick id start journal before after)
    (found : before.find? id = some (.active start)) : before.Ages after := by
  cases turn with
  | halted kin kept =>
      refine ages_put found fun flow same => ?_
      obtain rfl : _ = flow := by simpa using same
      exact kin.activation
  | waiting kin kept shapely resolved =>
      exact (ages_awaiting found kin.activation _ _ tick).trans (resolve_ok resolved).1.ages
  | completed kin kept resolved => exact (ages_completing found _).trans (resolve_ok resolved).1.ages

variable [Coroutine σ] {contract : Contract σ}

def Kept (contract : Contract σ) (sim : Simulation σ) : Prop :=
  ∃ lineage, contract.Holds ⟨sim, lineage⟩

/-- An invariant of the turns that flows take in a tick; `stepped` says which had theirs. -/
structure Upkeep (contract : Contract σ) (tick : Tick)
    (keeps : (FlowId → Option Nat) → FlowTable σ → List (Exchange σ) → Prop)
    (fails : FlowTable σ → List (Exchange σ) → Prop) : Prop where
  spawn : ∀ {stepped : FlowId → Option Nat} {sim : Simulation σ} {recipe : Recipe σ},
    contract.Kept sim → keeps stepped sim.flows sim.journal → contract.starts recipe.start →
      keeps stepped (sim.flows.create recipe none false tick).2 sim.journal
  turn : ∀ {stepped : FlowId → Option Nat} {sim : Simulation σ} {id : FlowId} {flow : Flow σ},
    contract.Kept sim → keeps stepped sim.flows sim.journal →
    sim.flows.find? id = some (.active flow) → stepped id ≠ some flow.activation →
      match Simulation.process id tick sim with
      | .ok _ after =>
        keeps (Function.update stepped id (some flow.activation)) after.flows after.journal
      | .error _ after => fails after.flows after.journal
  pass : ∀ {stepped : FlowId → Option Nat} {sim : Simulation σ} {id : FlowId} {activation : Nat},
    keeps stepped sim.flows sim.journal → id ≤ sim.flows.phases.size →
    (∀ flow, sim.flows.live? id = some flow → activation ≤ flow.activation) →
    (∀ flow, sim.flows.find? id = some (.active flow) →
      stepped id ≠ some flow.activation ∧ activation ≠ flow.activation) →
      keeps (Function.update stepped id (some activation)) sim.flows sim.journal
  stop : ∀ {stepped : FlowId → Option Nat} {sim : Simulation σ},
    keeps stepped sim.flows sim.journal → fails sim.flows sim.journal

structure Ongoing (contract : Contract σ)
    (keeps : (FlowId → Option Nat) → FlowTable σ → List (Exchange σ) → Prop) (tick : Tick)
    (stepped : FlowId → Option Nat) (sim : Simulation σ) : Prop where
  kept : contract.Kept sim
  keeps : keeps stepped sim.flows sim.journal
  current : sim.flows.Current stepped
  now : sim.now = tick

structure BrokenOff (fails : FlowTable σ → List (Exchange σ) → Prop) (tick : Tick)
    (sim : Simulation σ) : Prop where
  fails : fails sim.flows sim.journal
  now : sim.now = tick

end Contract

namespace Simulation

open Contract FlowTable Engine

variable {σ : Type} [Coroutine σ] {contract : Contract σ} {tick : Tick}
  {keeps : (FlowId → Option Nat) → FlowTable σ → List (Exchange σ) → Prop}
  {fails : FlowTable σ → List (Exchange σ) → Prop} {stepped : FlowId → Option Nat}
  {sim : Simulation σ} {id : FlowId} {flow : Flow σ}

theorem process_kept (id : Nat) (tick : Tick) :
    Triple (fun sim => contract.Kept sim ∧ ∃ flow, sim.flows.find? id = some (.active flow))
      (process id tick) (fun _ => contract.Kept) (fun _ => contract.Kept) := by
  rintro sim ⟨⟨lineage, holds⟩, active⟩
  have processed := process_spec id tick ⟨sim, lineage⟩ ⟨holds, active⟩
  simp only [Tracked.track] at processed
  cases done : process id tick sim with
  | ok reports after =>
      rw [done] at processed
      exact ⟨_, processed⟩
  | error e after =>
      rw [done] at processed
      exact ⟨_, processed.2⟩

theorem pendingTasks_ok (kept : contract.Kept sim) (covered : Coverage) (tick : Tick) :
    ∃ after, stepTasks tick (sim.pendingTasks covered) sim = .ok () after ∧ contract.Kept after := by
  obtain ⟨lineage, holds⟩ := kept
  obtain ⟨n, after, done, holds'⟩ := stepTasks_holds holds (holds.tasks.nodup_ids.filter _)
    (fun id member => holds.tasks.scheduled (List.mem_filter.1 member).1) tick
  exact ⟨after, done, _, holds'⟩

theorem process_ages (kept : contract.Kept sim) (found : sim.flows.find? id = some (.active flow))
    {reports : List Report} {after : Simulation σ} (done : process id tick sim = .ok reports after) :
    sim.flows.Ages after.flows := by
  obtain ⟨lineage, holds⟩ := kept
  have turn := process_turn holds found (contract.steady_any tick) trivial
  rw [done] at turn
  exact turn.1.ages found

theorem process_now (kept : contract.Kept sim) (found : sim.flows.find? id = some (.active flow))
    (tick : Tick) :
    match process id tick sim with | .ok _ after | .error _ after => after.now = sim.now := by
  obtain ⟨lineage, holds⟩ := kept
  have turn := process_turn holds found (contract.steady_any tick) trivial
  cases done : process id tick sim with
  | ok reports after =>
      rw [done] at turn
      exact turn.2.now
  | error e after =>
      rw [done] at turn
      exact turn.2.now

theorem process_upkeep (upkeep : contract.Upkeep tick keeps fails)
    (ongoing : contract.Ongoing keeps tick stepped sim)
    (found : sim.flows.find? id = some (.active flow)) {rest : List (FlowId × Nat)}
    (due : sim.flows.Due stepped ((id, flow.activation) :: rest)) :
    Triple (· = sim) (process id tick)
      (fun _ after =>
        contract.Ongoing keeps tick (Function.update stepped id (some flow.activation)) after ∧
          after.flows.Due (Function.update stepped id (some flow.activation)) rest)
      (fun _ => BrokenOff fails tick) := by
  rintro sim rfl
  have unstepped : stepped id ≠ some flow.activation := fun known =>
    absurd (due.fresh _ (List.mem_cons_self ..) _ known) (Nat.lt_irrefl _)
  have kept := process_kept id tick sim ⟨ongoing.kept, flow, found⟩
  have turn := upkeep.turn ongoing.kept ongoing.keeps found unstepped
  have now := process_now ongoing.kept found tick
  cases done : process id tick sim with
  | ok reports after =>
      rw [done] at kept turn now
      have ages := process_ages ongoing.kept found done
      obtain ⟨current, due⟩ := due.step ongoing.current
      exact ⟨⟨kept, turn, current.ages ages, now.trans ongoing.now⟩, due.ages ages⟩
  | error e after =>
      rw [done] at turn now
      exact ⟨turn, now.trans ongoing.now⟩

theorem stepFlows_upkeep (upkeep : contract.Upkeep tick keeps fails) (keys : List (FlowId × Nat))
    (stepped : FlowId → Option Nat) :
    Triple (fun sim => contract.Ongoing keeps tick stepped sim ∧ sim.flows.Due stepped keys)
      (stepFlows tick keys)
      (fun _ => contract.Ongoing keeps tick
        (keys.foldl Coverage.note stepped))
      (fun _ => BrokenOff fails tick) := by
  induction keys generalizing stepped with
  | nil => exact Triple.pure fun _ holds => holds.1
  | cons key rest ih =>
      obtain ⟨id, activation⟩ := key
      refine Triple.get fun sim ⟨ongoing, due⟩ => ?_
      refine Triple.bind_ite (fun _ sim => contract.Ongoing keeps tick
        (Function.update stepped id (some activation)) sim ∧
          sim.flows.Due (Function.update stepped id (some activation)) rest) ?_ fun reports => ?_
      · split
        next current =>
          obtain ⟨flow, active, rfl⟩ := Option.map_eq_some_iff.1 current
          exact process_upkeep upkeep ongoing (active?_eq_some.1 active) due
        next stale =>
          refine Triple.pure ?_
          rintro _ rfl
          obtain ⟨current, due'⟩ := due.step ongoing.current
          have inside := (due.inside _ (List.mem_cons_self ..)).2
          have before := due.behind _ (List.mem_cons_self ..)
          refine ⟨⟨ongoing.kept, upkeep.pass ongoing.keeps inside before fun flow found => ?_,
            current, ongoing.now⟩, due'⟩
          -- The flow has been resumed in this round, so that it is in a later activation.
          have behind := before flow (live?_eq_some.2 (.inl found))
          have apart : activation ≠ flow.activation := by
            rintro rfl
            exact stale (by rw [active?_eq_some.2 found]; rfl)
          refine ⟨fun known => ?_, apart⟩
          have fresh := due.fresh _ (List.mem_cons_self ..) _ known
          simp only at behind fresh
          omega
      · exact (ih _).bind fun later => Triple.pure fun _ holds => holds

theorem stepTask_upkeep (upkeep : contract.Upkeep tick keeps fails) {id : TaskId}
    (scheduled : sim.tasks.Scheduled id) (ongoing : contract.Ongoing keeps tick stepped sim) :
    ∃ after, stepTasks.stepTask tick id sim = .ok () after ∧
      contract.Ongoing keeps tick stepped after ∧
      ∀ other, other ≠ id → sim.tasks.Scheduled other → after.tasks.Scheduled other := by
  obtain ⟨lineage, holds⟩ := ongoing.kept
  obtain ⟨n, after, done, holds', others⟩ := stepTask_holds holds scheduled tick
  obtain ⟨recipe?, tasks, ticked, -, starts, -⟩ := holds.tasks.tick scheduled
  refine ⟨after, done, ?_, others⟩
  cases recipe? with
  | none =>
      simp only [stepTasks.stepTask, ticked] at done
      injection done with _ same
      subst same
      exact ⟨⟨_, holds'⟩, ongoing.keeps, ongoing.current, ongoing.now⟩
  | some recipe =>
      simp only [stepTasks.stepTask, ticked] at done
      injection done with _ same
      subst same
      exact ⟨⟨_, holds'⟩, upkeep.spawn ongoing.kept ongoing.keeps (starts recipe rfl),
        ongoing.current.ages (ages_create ..), ongoing.now⟩

theorem stepTasks_upkeep (upkeep : contract.Upkeep tick keeps fails) {ids : List TaskId}
    (nodup : ids.Nodup) (scheduled : ∀ id ∈ ids, sim.tasks.Scheduled id)
    (ongoing : contract.Ongoing keeps tick stepped sim) :
    ∃ after, stepTasks tick ids sim = .ok () after ∧ contract.Ongoing keeps tick stepped after := by
  induction ids generalizing sim with
  | nil => exact ⟨sim, rfl, ongoing⟩
  | cons id ids ih =>
      obtain ⟨fresh, nodup⟩ := List.nodup_cons.1 nodup
      obtain ⟨middle, done, ongoing', others⟩ :=
        stepTask_upkeep upkeep (scheduled id (List.mem_cons_self ..)) ongoing
      have scheduled' : ∀ other ∈ ids, middle.tasks.Scheduled other := fun other member =>
        others other (fun same => fresh (same ▸ member))
          (scheduled other (List.mem_cons_of_mem _ member))
      obtain ⟨after, rest, ongoing''⟩ := ih nodup scheduled' ongoing'
      refine ⟨after, ?_, ongoing''⟩
      show EStateM.bind (stepTasks.stepTask tick id) (fun _ => stepTasks tick ids) sim = _
      unfold EStateM.bind
      rw [done]
      exact rest

theorem pendingTasks_upkeep (upkeep : contract.Upkeep tick keeps fails) (covered : Coverage)
    (ongoing : contract.Ongoing keeps tick stepped sim) :
    Triple (· = sim) (stepTasks tick (sim.pendingTasks covered))
      (fun _ => contract.Ongoing keeps tick stepped) (fun _ => BrokenOff fails tick) := by
  rintro sim rfl
  obtain ⟨lineage, holds⟩ := ongoing.kept
  obtain ⟨after, done, ongoing'⟩ := stepTasks_upkeep upkeep (holds.tasks.nodup_ids.filter _)
    (fun id member => holds.tasks.scheduled (List.mem_filter.1 member).1) ongoing
  rw [pendingTasks, done]
  exact ongoing'

def Covered (stepped : FlowId → Option Nat) (table : FlowTable σ) : Prop :=
  ∀ id flow, table.find? id = some (.active flow) → stepped id = some flow.activation

omit [Coroutine σ] in
theorem covered_of_pendingFlows {covered : Coverage}
    (nothing : (sim.pendingFlows covered).isEmpty = true) :
    Covered (Coverage.latest covered.flows) sim.flows := by
  intro id flow found
  have listed : (id, flow.activation) ∈ sim.flows.activations := mem_activations.2 ⟨flow, found, rfl⟩
  have all : ∀ key ∈ sim.flows.activations, covered.covers key = true := by
    simpa [pendingFlows, List.filter_eq_nil_iff] using nothing
  exact Coverage.covers_iff.1 (all _ listed)

theorem runRounds_upkeep (upkeep : contract.Upkeep tick keeps fails) (limit remaining : Nat)
    (covered : Coverage) (reports : List Report) :
    Triple (contract.Ongoing keeps tick (Coverage.latest covered.flows))
      (runRounds tick limit remaining covered reports)
      (fun _ sim => ∃ stepped, contract.Ongoing keeps tick stepped sim ∧ Covered stepped sim.flows)
      (fun _ => BrokenOff fails tick) := by
  induction remaining generalizing covered reports with
  | zero =>
      refine Triple.get fun sim ongoing => Triple.get ?_
      rintro sim rfl
      split
      next nothing =>
        exact Triple.pure (by rintro _ rfl; exact ⟨_, ongoing, covered_of_pendingFlows nothing.2⟩)
      next => exact Triple.throw (by rintro _ rfl; exact ⟨upkeep.stop ongoing.keeps, ongoing.now⟩)
  | succ remaining ih =>
      refine Triple.get fun sim ongoing => Triple.get ?_
      rintro sim rfl
      split
      next nothing =>
        exact Triple.pure (by rintro _ rfl; exact ⟨_, ongoing, covered_of_pendingFlows nothing.2⟩)
      next =>
        refine (pendingTasks_upkeep upkeep covered ongoing).bind fun _ =>
          Triple.get fun sim' ongoing' => ?_
        have due := due_pendingFlows ongoing'.current
        refine ((stepFlows_upkeep upkeep _ _).weaken (by rintro _ rfl; exact ⟨ongoing', due⟩)).bind
          fun fresh => ?_
        refine (ih _ _).weaken fun _ ongoing'' => ?_
        rwa [Coverage.latest_add fun key member => (due.inside key member).1]

/-- An invariant that holds before a tick holds after it, when each active flow had its turn. -/
theorem tick_upkeep (upkeep : contract.Upkeep sim.now keeps fails) (kept : contract.Kept sim)
    (begun : keeps (fun _ => none) sim.flows []) :
    Triple (· = sim) (Simulation.tick (σ := σ))
      (fun _ after => (contract.Kept after ∧ after.now = sim.now + 1) ∧
        ∃ stepped, keeps stepped after.flows after.journal ∧ Covered stepped after.flows)
      (fun _ => BrokenOff fails sim.now) := by
  obtain ⟨lineage, holds⟩ := kept
  have unstepped : sim.flows.Current fun _ => none := ⟨by simp, by simp⟩
  refine Triple.modify (contract.Ongoing keeps sim.now fun _ => none) ?_
    (Triple.get fun cleared ongoing => ?_)
  · rintro sim rfl
    exact ⟨⟨lineage, holds.orders, holds.unsettled, holds.heap, holds.tasks⟩, begun, unstepped, rfl⟩
  · have empty : Coverage.latest (Coverage.flows {}) = fun _ => none := by
      funext id
      cases id <;> rfl
    rw [ongoing.now]
    refine ((runRounds_upkeep upkeep _ _ {} []).weaken ?_).bind fun reports =>
      Triple.modify (fun after => (contract.Kept after ∧ after.now = sim.now + 1) ∧
        ∃ stepped, keeps stepped after.flows after.journal ∧ Covered stepped after.flows) ?_
        (Triple.pure fun _ holds => holds)
    · rintro _ rfl
      rwa [empty]
    · rintro after ⟨stepped, ⟨⟨lineage, holds⟩, keeps, current, now⟩, covered⟩
      refine ⟨⟨⟨lineage, holds.orders, holds.unsettled, holds.heap, holds.tasks⟩, ?_⟩, stepped, keeps,
        covered⟩
      simp only [now]

end Simulation

end Cadence
