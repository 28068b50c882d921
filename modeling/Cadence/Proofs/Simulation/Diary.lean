import Cadence.Proofs.Simulation.FixedPoint
import Cadence.Proofs.Simulation.Passage
/-!
What becomes of each flow in the course of a tick, exchange by exchange. A flow that falls asleep has
had its last exchange of the tick, and it is left where the next tick will wake it.
-/

namespace Cadence

variable {σ : Type}

def Simulation.exchanges (sim : Simulation σ) (id : FlowId) : List (Exchange σ) :=
  (sim.journal.filter (·.flow = id)).reverse

theorem Simulation.exchanges_of_journal {before after : Simulation σ} {turn : List (Exchange σ)}
    {id : FlowId} (journal : after.journal = turn.reverse ++ before.journal)
    (own : ∀ exchange ∈ turn, exchange.flow = id) (other : FlowId) :
    after.exchanges other = before.exchanges other ++ if other = id then turn else [] := by
  have mine : turn.filter (·.flow = other) = if other = id then turn else [] := by
    by_cases same : other = id
    · rw [if_pos same, List.filter_eq_self]
      exact fun exchange member => by simp [own exchange member, same]
    · rw [if_neg same, List.filter_eq_nil_iff]
      exact fun exchange member => by simp [own exchange member, Ne.symm same]
  rw [exchanges, exchanges, journal, List.filter_append, List.reverse_append, List.filter_reverse,
    List.reverse_reverse, mine]

namespace Diary

variable [Coroutine σ]

structure Entry (contract : Contract σ) (tick : Tick) (before? : Option (Phase σ))
    (turn : List (Exchange σ)) (responses : List Response) : Prop where
  gives : ∀ exchange ∈ turn, contract.Gives tick exchange
  orderly : Orderly before? turn
  voiced : Voiced tick turn responses

def Begun (before? : Option (Phase σ)) (turn : List (Exchange σ)) : Prop :=
  turn = [] → ∀ flow, before? ≠ some (.active flow)

structure Dozes (tick : Tick) (turn : List (Exchange σ)) (flow : Flow σ) : Prop where
  last : ∃ past last halt, turn = past ++ [last] ∧ last.halt? tick = some halt ∧
    flow.coroutine = last.next
  wakes : ∃ popped taken, flow.takeInput = .ok (.proceed, popped, taken)

def Stands (before? : Option (Phase σ)) (tick : Tick) (stepped? : Option Nat)
    (turn : List (Exchange σ)) (responses : List Response) : Option (Phase σ) → Prop
  | none => Awake tick turn responses ∧ turn = [] ∧ before? = none
  | some (.active flow) =>
    if stepped? = some flow.activation then Dozes tick turn flow
    else Awake tick turn responses ∧ ∀ input popped taken,
      flow.takeInput = .ok (input, popped, taken) → Expected before? turn flow.coroutine input
  | some (.suspended flow _) => Awake tick turn responses ∧ Begun before? turn ∧
    ∀ value, Expected before? turn flow.coroutine (.given value)
  | some (.completed _) => Awake tick turn responses ∧ Begun before? turn
  | some (.cancelled _) => True

variable {before? : Option (Phase σ)} {tick : Tick} {stepped? : Option Nat}
  {turn : List (Exchange σ)} {responses : List Response} {table after : FlowTable σ} {id : Nat}
  {flow : Flow σ}

open FlowTable

theorem stands_active (unstepped : stepped? ≠ some flow.activation) :
    Stands before? tick stepped? turn responses (some (.active flow)) ↔
      Awake tick turn responses ∧ ∀ input popped taken,
        flow.takeInput = .ok (input, popped, taken) → Expected before? turn flow.coroutine input := by
  simp only [Stands, if_neg unstepped]

theorem stands_stepped (stepped : stepped? = some flow.activation) :
    Stands before? tick stepped? turn responses (some (.active flow)) ↔ Dozes tick turn flow := by
  simp only [Stands, if_pos stepped]

theorem Stands.settled (settled : Settled table tick after)
    (primed : ∀ flow, after.find? id = some (.active flow) → flow.resumption ≠ none →
      ∀ input popped taken, flow.takeInput = .ok (input, popped, taken) → ∃ value, input = .given value)
    (behind : ∀ flow wait past, table.find? id = some (.suspended flow wait) →
      stepped? = some past → past ≤ flow.activation)
    (stands : Stands before? tick stepped? turn responses (table.find? id)) :
    Stands before? tick stepped? turn responses (after.find? id) := by
  have change := settled.phases id
  generalize earlier : table.find? id = old at change stands
  generalize later : after.find? id = new at change primed
  cases change with
  | spared spares =>
      cases spares with
      | same => exact stands
      | active => trivial
      | suspended => trivial
  | @resumed flow wait value released stack outcome pushed =>
      obtain ⟨awake, -, expected⟩ := stands
      have ahead : stepped? ≠ some (flow.activation + 1) := fun known =>
        Nat.not_succ_le_self _ (behind flow wait _ earlier known)
      refine (stands_active ahead).2 ⟨awake, fun input popped taken took => ?_⟩
      obtain ⟨value, rfl⟩ := primed _ rfl (by simp [Flow.resumed]) input popped taken took
      exact expected value

theorem Stands.created {recipe : Recipe σ} {caller : Option Address} {isDependency : Bool}
    (unstepped : stepped? = none) (stands : Stands before? tick stepped? turn responses none) :
    Stands before? tick stepped? turn responses
      (some (.active (Flow.ofRecipe id recipe caller isDependency tick))) := by
  obtain ⟨awake, rfl, fresh⟩ := stands
  refine (stands_active (by simp [unstepped])).2 ⟨awake, fun input popped taken took => ?_⟩
  refine .begins (.inl fresh) ?_
  rintro rfl
  simp [Flow.ofRecipe, Flow.takeInput, Record.entry] at took

variable {contract : Contract σ} {past : List (Exchange σ)} {last : Exchange σ}
  {fresh : List Response} {later : Flow σ} {boundary : Boundary σ}

omit [Coroutine σ] in
theorem takeInput_unresumed {input : Input} {popped : Option Address} {taken : Flow σ}
    (took : Flow.takeInput { flow with resumption := none } = .ok (input, popped, taken)) :
    ∃ taken, flow.takeInput = .ok (input, popped, taken) := by
  unfold Flow.takeInput at took ⊢
  cases records : flow.stack.records with
  | nil =>
      simp only [records] at took
      cases took
  | cons top below =>
      simp only [records] at took ⊢
      rcases pending : top.operations with _ | ⟨_ | value | _, rest⟩
      all_goals
        simp only [pending] at took ⊢
        obtain ⟨rfl, same⟩ := Prod.mk.inj (Except.ok.inj took)
        obtain ⟨rfl, -⟩ := Prod.mk.inj same
        exact ⟨_, rfl⟩

theorem Entry.goesOn (entry : Entry contract tick before? past responses)
    (gives : ∀ exchange ∈ turn, contract.Gives tick exchange)
    (orderly : Orderly before? (past ++ turn)) (awake : Awake tick past responses)
    (voiced : Voiced tick turn fresh) :
    Entry contract tick before? (past ++ turn) (responses ++ fresh) where
  gives := List.forall_mem_append.2 ⟨entry.gives, gives⟩
  orderly := orderly
  voiced := awake.voiced voiced

theorem dozes_of_closes (closes : Closes tick past last fresh .halt later) {memory : Heap}
    (sound : later.Sound memory) : Dozes tick (turn ++ (past ++ [last])) later := by
  obtain ⟨front, halt, -, -, halts⟩ := closes.asleep rfl
  obtain ⟨command, input, answer, plain, provides⟩ := closes.answered
  obtain ⟨popped, records, took, -⟩ := Flow.takeInput_of_provides provides sound.shape
  suffices same : input = .proceed by
    subst same
    exact ⟨⟨turn ++ past, last, halt, (List.append_assoc ..).symm, halts, closes.next⟩, popped, _, took⟩
  obtain ⟨address, action⟩ := command
  cases action with
  | halt covered total => exact (Option.some.inj plain).symm
  | await request => cases plain
  | load params isDependency => simp [Exchange.halt?, answer] at halts
  | log entries => simp [Exchange.halt?, answer] at halts
  | unload value => simp [Exchange.halt?, answer] at halts

theorem expected_of_closes {request : Request σ} {caller : Address}
    (closes : Closes tick past last fresh (.await request caller) later) (value : Json) :
    Expected before? (turn ++ (past ++ [last])) later.coroutine (.given value) := by
  obtain ⟨answer, -⟩ := closes.answered
  rw [← List.append_assoc, closes.next]
  exact .replies ⟨_, answer, value, rfl⟩

end Diary

open Contract Engine Simulation FlowTable

variable [Coroutine σ]

/-- What holds in the course of a tick; `stepped` says in which activation flows had their turns. -/
structure Diary (contract : Contract σ) (before : Simulation σ) (stepped : FlowId → Option Nat)
    (watched : Watched σ) : Prop where
  kept : contract.Kept watched.sim
  entry : ∀ id, Diary.Entry contract before.now (before.flows.find? id) (watched.sim.exchanges id)
    (watched.responses id)
  stands : ∀ id, Diary.Stands (before.flows.find? id) before.now (stepped id) (watched.sim.exchanges id)
    (watched.responses id) (watched.sim.flows.find? id)

namespace Diary

variable {contract : Contract σ} {before : Simulation σ} {stepped : FlowId → Option Nat}
  {watched after : Watched σ} {id : Nat} {flow later : Flow σ} {turn : List (Exchange σ)}
  {boundary : Boundary σ} {memory : Heap} {lineage : Lineage} {tick : Tick}

theorem given_of_resumed {heap : Heap} (active : contract.Active heap id flow)
    (resumed : flow.resumption ≠ none) {input : Input} {popped : Option Address} {taken : Flow σ}
    (took : flow.takeInput = .ok (input, popped, taken)) : ∃ value, input = .given value := by
  obtain ⟨resumption, same⟩ := Option.ne_none_iff_exists'.1 resumed
  obtain ⟨-, top, below, value, records, pending⟩ := active.primed resumption same
  unfold Flow.takeInput at took
  simp only [records, pending] at took
  exact ⟨value, (Prod.mk.inj (Except.ok.inj took)).1.symm⟩

theorem stands_elsewhere (diary : Diary contract before stepped watched)
    (current : watched.sim.flows.Current stepped) {middle : FlowTable σ} {other : Nat}
    (changes : middle.find? other = watched.sim.flows.find? other ∨
      watched.sim.flows.phases.size < other ∧ ∀ phase, middle.find? other = some phase →
        ∃ recipe caller isDependency,
          phase = .active (Flow.ofRecipe other recipe caller isDependency before.now)) :
    Stands (before.flows.find? other) before.now (stepped other) (watched.sim.exchanges other)
      (watched.responses other) (middle.find? other) := by
  have stands := diary.stands other
  rcases changes with same | ⟨beyond, fresh⟩
  · rwa [same]
  · have nothing : watched.sim.flows.find? other = none := by
      rw [Option.eq_none_iff_forall_ne_some]
      intro phase known
      have := (le_size_of_find? known).2
      omega
    have unstepped : stepped other = none := by
      rw [Option.eq_none_iff_forall_ne_some]
      intro activation known
      have := current.inside other activation known
      omega
    rw [nothing] at stands
    cases known : middle.find? other with
    | none => exact stands
    | some phase =>
        obtain ⟨recipe, caller, isDependency, rfl⟩ := fresh phase known
        exact stands.created unstepped

theorem stands_middle (diary : Diary contract before stepped watched)
    (current : watched.sim.flows.Current stepped)
    (found : watched.sim.flows.find? id = some (.active flow)) {middle : FlowTable σ} {mine : Phase σ}
    {fresh : List Response} (here : middle.find? id = some mine)
    (stands : Stands (before.flows.find? id) before.now (some flow.activation)
      (watched.sim.exchanges id ++ turn) (watched.responses id ++ fresh) (some mine))
    (others : ∀ other : Nat, other ≠ id → middle.find? other = watched.sim.flows.find? other ∨
      watched.sim.flows.phases.size < other ∧ ∀ phase, middle.find? other = some phase →
        ∃ recipe caller isDependency,
          phase = .active (Flow.ofRecipe other recipe caller isDependency before.now))
    (other : Nat) :
    Stands (before.flows.find? other) before.now (Coverage.note stepped (id, flow.activation) other)
      (watched.sim.exchanges other ++ if other = id then turn else [])
      (watched.responses other ++ if id = other then fresh else []) (middle.find? other) := by
  by_cases same : other = id
  · subst same
    rw [if_pos rfl, if_pos rfl, here, show Coverage.note stepped (other, flow.activation) other =
      some flow.activation from Function.update_self ..]
    exact stands
  · rw [if_neg same, if_neg (Ne.symm same), List.append_nil, List.append_nil,
      show Coverage.note stepped (id, flow.activation) other = stepped other from
        Function.update_of_ne same ..]
    exact diary.stands_elsewhere current (others other same)

omit [Coroutine σ] in
theorem current_note (current : watched.sim.flows.Current stepped)
    (found : watched.sim.flows.find? id = some (.active flow)) :
    watched.sim.flows.Current (Coverage.note stepped (id, flow.activation)) where
  inside other activation known := by
    by_cases same : other = id
    · exact same ▸ (le_size_of_find? found).2
    · exact current.inside other activation ((Function.update_of_ne same ..).symm.trans known)
  behind other flow' activation live known := by
    by_cases same : other = id
    · subst same
      obtain rfl := Option.some.inj (live.symm.trans (live?_eq_some.2 (.inl found)))
      obtain rfl : flow'.activation = activation := by simpa using known
      exact Nat.le_refl _
    · exact current.behind other flow' activation live
        ((Function.update_of_ne same ..).symm.trans known)

theorem stands_settled {table after : FlowTable σ} {heap : Heap} {noted : FlowId → Option Nat}
    {recorded : FlowId → List (Exchange σ)} {said : FlowId → List Response}
    (stands : ∀ id, Stands (before.flows.find? id) before.now (noted id) (recorded id) (said id)
      (table.find? id))
    (current : table.Current noted) (settled : Settled table before.now after)
    (orders : contract.Orders heap lineage after) (id : FlowId) :
    Stands (before.flows.find? id) before.now (noted id) (recorded id) (said id) (after.find? id) := by
  refine (stands id).settled settled (fun flow found resumed input popped taken took => ?_)
    fun flow wait past found known => ?_
  · exact given_of_resumed (orders.admits id _ found) resumed took
  · exact current.behind id flow past (live?_eq_some.2 (.inr ⟨wait, found⟩)) known

theorem stands_ends (diary : Diary contract before stepped watched)
    (current : watched.sim.flows.Current stepped)
    (found : watched.sim.flows.find? id = some (.active flow)) (kin : flow.Kin later)
    (sound : later.Sound memory) {past : List (Exchange σ)} {last : Exchange σ} {fresh : List Response}
    (closes : Closes before.now past last fresh boundary later)
    (awake : Awake before.now (watched.sim.exchanges id) (watched.responses id))
    {table : FlowTable σ} (ends : Ends before.now id flow later watched.sim.flows boundary table)
    {heap : Heap} (orders : contract.Orders heap lineage table) (other : FlowId) :
    Stands (before.flows.find? other) before.now (Coverage.note stepped (id, flow.activation) other)
      (watched.sim.exchanges other ++ if other = id then past ++ [last] else [])
      (watched.responses other ++ if id = other then fresh else []) (table.find? other) := by
  have ages := current_note current found
  cases ends with
  | halt =>
      refine diary.stands_middle current found (find?_put_self found) ?_ ?_ other
      · exact (stands_stepped (by rw [kin.activation])).2 (dozes_of_closes closes sound)
      · intro other apart
        exact .inl ((find?_put found other).trans (if_neg apart))
  | @await request caller cancelled flows shapely resolved =>
      obtain ⟨size, others, fresh, ids, here, -⟩ :=
        awaiting_spec found later request caller before.now
      refine stands_settled (diary.stands_middle current found here ?_ ?_)
        (ages.ages (ages_awaiting found kin.activation ..)) (resolve_ok resolved).1 orders other
      · exact ⟨awake.append (closes.awake (by simp)), fun nothing => by simp at nothing,
          expected_of_closes closes⟩
      · intro other apart
        by_cases inside : other ≤ watched.sim.flows.phases.size
        · exact .inl (others other apart inside)
        · refine .inr ⟨Nat.lt_of_not_le inside, fun phase known => ?_⟩
          obtain ⟨recipe, -, same⟩ := fresh other phase (Nat.lt_of_not_le inside) known
          exact ⟨recipe, _, _, same⟩
  | @complete value address cancelled flows resolved =>
      refine stands_settled (diary.stands_middle current found
          ((find?_completing found _ id).trans (if_pos rfl)) ?_ ?_)
        (ages.ages (ages_completing found _)) (resolve_ok resolved).1 orders other
      · exact ⟨awake.append (closes.awake (by simp)), fun nothing => by simp at nothing⟩
      · intro other apart
        exact .inl ((find?_completing found _ other).trans (if_neg apart))

theorem taken (diary : Diary contract before stepped watched)
    (current : watched.sim.flows.Current stepped)
    (found : watched.sim.flows.find? id = some (.active flow))
    (unstepped : stepped id ≠ some flow.activation) {reports : List Report}
    (done : Simulation.process id before.now watched.sim = .ok reports after.sim)
    (stints : after.stints = watched.stints ++ [watched.sim.stint id before.now]) :
    Diary contract before (Coverage.note stepped (id, flow.activation)) after := by
  obtain ⟨lineage, holds⟩ := diary.kept
  have active : contract.Active watched.sim.heap id flow := holds.orders.admits id _ found
  have sound := active.sound.unresumed
  have kept := process_kept id before.now watched.sim ⟨diary.kept, flow, found⟩
  rw [done] at kept
  obtain ⟨lineage', holds'⟩ := kept
  obtain ⟨turn, boundary, later, memory, passes⟩ := process_passes holds found done
  obtain ⟨sound', kin⟩ := passes.passage.lasts sound
  have kin : flow.Kin later := ⟨kin.id, kin.name, kin.spawnedAt, kin.activation⟩
  -- Everything in the turn belongs to this flow, so no other entry changes.
  have own : ∀ exchange ∈ turn, exchange.flow = id := fun exchange member =>
    (passes.passage.own sound exchange member).trans active.named
  have gives := passes.passage.gives sound holds.heap active.running
  obtain ⟨awake, expected⟩ : Awake before.now (watched.sim.exchanges id) (watched.responses id) ∧
      ∀ input popped taken, flow.takeInput = .ok (input, popped, taken) →
        Expected (before.flows.find? id) (watched.sim.exchanges id) flow.coroutine input := by
    have stands := diary.stands id
    rw [found] at stands
    exact (stands_active unstepped).1 stands
  have orderly := passes.passage.orderly sound (diary.entry id).orderly
    fun input popped taken took =>
      have ⟨taken', took'⟩ := takeInput_unresumed took
      expected input popped taken' took'
  obtain ⟨past, last, rfl, closes⟩ := passes.passage.closes (Stage.quiet_pending flow before.now)
  have exchanges := exchanges_of_journal passes.journal own
  have responses (other : FlowId) : after.responses other = watched.responses other ++
      if id = other then (watched.sim.stint id before.now).results.flatten else [] :=
    Watched.responses_concat stints other
  constructor
  case kept => exact ⟨lineage', holds'⟩
  case entry =>
    intro other
    rw [exchanges, responses]
    by_cases same : other = id
    · subst same
      rw [if_pos rfl, if_pos rfl]
      exact (diary.entry other).goesOn gives orderly awake closes.voiced
    · rw [if_neg same, if_neg (Ne.symm same), List.append_nil, List.append_nil]
      exact diary.entry other
  case stands =>
    intro other
    rw [exchanges, responses]
    exact diary.stands_ends current found kin sound' closes awake passes.ends holds'.orders other

omit [Coroutine σ] in
theorem stepTasks_creates {ids : List TaskId} {sim sim' : Simulation σ}
    (done : Simulation.stepTasks tick ids sim = .ok () sim') : sim'.journal = sim.journal ∧
      ∀ (id : Nat) phase, sim'.flows.find? id = some phase → sim.flows.find? id = some phase ∨
        ∃ recipe, phase = .active (Flow.ofRecipe id recipe none false tick) := by
  induction ids generalizing sim with
  | nil =>
      obtain rfl := (pure_ok.1 done).2
      exact ⟨rfl, fun id phase found => .inl found⟩
  | cons id ids ih =>
      obtain ⟨_, middle, first, rest⟩ := bind_ok.1 done
      obtain ⟨journal, phases⟩ := ih rest
      unfold stepTasks.stepTask at first
      split at first
      · cases first
      · injection first with _ same
        subst same
        exact ⟨journal, phases⟩
      · injection first with _ same
        subst same
        refine ⟨journal, fun other phase found => ?_⟩
        rcases phases other phase found with known | created
        · simp only [find?_create] at known
          split at known
          · exact .inr ⟨_, (Option.some.inj known).symm⟩
          · exact .inl known
        · exact .inr created

theorem launched (diary : Diary contract before stepped watched)
    (current : watched.sim.flows.Current stepped) {ids : List TaskId}
    (kept : contract.Kept after.sim)
    (done : Simulation.stepTasks before.now ids watched.sim = .ok () after.sim)
    (stints : after.stints = watched.stints) : Diary contract before stepped after := by
  have launches := stepTasks_launches done
  obtain ⟨journal, created⟩ := stepTasks_creates done
  have exchanges (id : FlowId) : after.sim.exchanges id = watched.sim.exchanges id := by
    rw [exchanges, exchanges, journal]
  have responses (id : FlowId) : after.responses id = watched.responses id := by
    rw [Watched.responses, Watched.responses, stints]
  refine ⟨kept, fun id => ?_, fun id => ?_⟩
  · rw [exchanges, responses]
    exact diary.entry id
  · rw [exchanges, responses]
    refine diary.stands_elsewhere current ?_
    by_cases inside : (id : Nat) ≤ watched.sim.flows.phases.size
    · exact .inl (launches.old id inside)
    · refine .inr ⟨Nat.lt_of_not_le inside, fun phase known => ?_⟩
      rcases created id phase known with old | ⟨recipe, same⟩
      · exact absurd (le_size_of_find? old).2 inside
      · exact ⟨recipe, _, _, same⟩

omit [Coroutine σ] in
theorem responses_start (sim : Simulation σ) (id : FlowId) :
    Watched.responses ⟨sim, [], []⟩ id = [] :=
  rfl

theorem start (kept : contract.Kept before) :
    Diary contract before (fun _ => none) ⟨{ before with journal := [] }, [], []⟩ := by
  have awake (id : FlowId) : Awake before.now (exchanges { before with journal := [] } id)
      (Watched.responses ⟨{ before with journal := [] }, [], []⟩ id) :=
    ⟨by simp [exchanges], by simp [responses_start]⟩
  refine ⟨kept.unjournaled, fun id => ⟨by simp [exchanges], .nil, .awake (awake id)⟩, fun id => ?_⟩
  · have awake := awake id
    have nothing : exchanges { before with journal := [] } id = [] := rfl
    show Stands _ _ none _ _ (before.flows.find? id)
    cases found : before.flows.find? id with
    | none => exact ⟨awake, nothing, rfl⟩
    | some phase =>
        cases phase with
        | active flow =>
            exact (stands_active (by simp)).2 ⟨awake, fun _ _ _ took => .goesOn rfl took⟩
        | suspended flow wait =>
            exact ⟨awake, fun _ flow => by simp, fun value => .begins (.inr ⟨flow, wait, rfl⟩) (by simp)⟩
        | completed done => exact ⟨awake, fun _ flow => by simp⟩
        | cancelled gone => trivial

theorem passed (diary : Diary contract before stepped watched) {activation : Nat}
    (moved : ∀ flow, watched.sim.flows.find? id = some (.active flow) →
      stepped id ≠ some flow.activation ∧ activation ≠ flow.activation) :
    Diary contract before (Coverage.note stepped (id, activation)) watched where
  kept := diary.kept
  entry := diary.entry
  stands other := by
    have stands := diary.stands other
    by_cases same : other = id
    · subst same
      rw [show Coverage.note stepped (other, activation) other = some activation from
        Function.update_self ..]
      cases found : watched.sim.flows.find? other with
      | none =>
          rw [found] at stands
          exact stands
      | some phase =>
          rw [found] at stands
          cases phase with
          | active flow =>
              obtain ⟨unstepped, apart⟩ := moved flow found
              exact (stands_active (by simpa using apart)).2 ((stands_active unstepped).1 stands)
          | suspended flow wait => exact stands
          | completed done => exact stands
          | cancelled gone => trivial
    · rw [show Coverage.note stepped (id, activation) other = stepped other from
        Function.update_of_ne same ..]
      exact stands

theorem covering (contract : Contract σ) (before : Simulation σ) :
    (Watched.probe (σ := σ)).Covering before.now (fun _ stepped _ => Diary contract before stepped)
      fun _ _ => True where
  change _ _ := rfl
  tasks {covered stepped reports state} diary current := by
    refine (Watched.pendingTasks_mimics diary.kept covered before.now).imp fun _ after known => ?_
    obtain ⟨done, kept, stints, -⟩ := known
    exact ⟨diary.launched current kept done stints, (stepTasks_launches done).ages⟩
  process {tasks stepped reports state id flow} diary current found unstepped := by
    refine (Watched.process_mimics id before.now state).imp fun fresh after known => ?_
    obtain ⟨done, stints, -⟩ := known
    exact ⟨diary.taken current found unstepped done stints, process_ages diary.kept found done⟩
  pass diary moved _ := diary.passed moved
  stop _ _ := trivial

structure Complete (contract : Contract σ) (before after : Simulation σ)
    (responses : FlowId → List Response) : Prop where
  entry : ∀ id, Entry contract before.now (before.flows.find? id) (after.exchanges id) (responses id)
  dozes : ∀ id flow, after.flows.find? id = some (.active flow) →
    Dozes before.now (after.exchanges id) flow
  sleeps : ∀ id past last halt, after.exchanges id = past ++ [last] →
    last.halt? before.now = some halt → (∃ flow, after.flows.find? id = some (.active flow)) ∨
      ∃ gone, after.flows.find? id = some (.cancelled gone)
  wakes : ∀ id flow, before.flows.find? id = some (.active flow) → after.exchanges id = [] →
    ∃ gone, after.flows.find? id = some (.cancelled gone)
  lasts : ∀ id, after.flows.find? id = none → before.flows.find? id = none

theorem complete (diary : Diary contract before stepped watched)
    (covered : Covered stepped watched.sim.flows) :
    Complete contract before { watched.sim with now := watched.sim.now + 1 } watched.responses where
  entry := diary.entry
  dozes id flow found := by
    have stands := diary.stands id
    rw [found] at stands
    exact (stands_stepped (covered id flow found)).1 stands
  sleeps id past last halt recorded halts := by
    have stands := diary.stands id
    -- In the cases where the flow would have to be awake, its last exchange speaks against it.
    have asleep {responses : List Response} : ¬ Awake before.now (watched.sim.exchanges id) responses :=
      fun awake => by
        have unasked := awake.asked last (recorded ▸ List.mem_concat_self)
        simp [halts] at unasked
    cases found : watched.sim.flows.find? id with
    | none =>
        rw [found] at stands
        exact absurd stands.1 asleep
    | some phase =>
        rw [found] at stands
        cases phase with
        | active flow => exact .inl ⟨flow, rfl⟩
        | suspended flow wait => exact absurd stands.1 asleep
        | completed done => exact absurd stands.1 asleep
        | cancelled gone => exact .inr ⟨gone, rfl⟩
  wakes id flow was nothing := by
    have stands := diary.stands id
    have idle : ¬ Begun (before.flows.find? id) (watched.sim.exchanges id) := fun begun =>
      begun nothing flow was
    cases found : watched.sim.flows.find? id with
    | none =>
        rw [found] at stands
        simp [stands.2.2] at was
    | some phase =>
        rw [found] at stands
        cases phase with
        | active flow' =>
            obtain ⟨past, last, halt, same, -⟩ := ((stands_stepped (covered id flow' found)).1 stands).last
            have := same.symm.trans nothing
            simp at this
        | suspended flow' wait => exact absurd stands.2.1 idle
        | completed done => exact absurd stands.2 idle
        | cancelled gone => exact ⟨gone, rfl⟩
  lasts id absent := by
    have stands := diary.stands id
    have absent : watched.sim.flows.find? id = none := absent
    rw [absent] at stands
    exact stands.2.2

end Diary

namespace Simulation

theorem tick_covered {keeps : List TaskId → (FlowId → Option Nat) → List Report → Watched σ → Prop}
    {sim after : Simulation σ} {report : TickReport} (ends : List Report → Watched σ → Prop)
    (covering : (Watched.probe (σ := σ)).Covering sim.now keeps fun _ _ => True)
    (begun : keeps [] (fun _ => none) [] ⟨{ sim with journal := [] }, [], []⟩)
    (ended : ∀ tasks stepped reports last, keeps tasks stepped reports last →
      Covered stepped last.sim.flows → (∀ id ∈ last.sim.tasks.ids, id ∈ tasks) →
        ends reports { last with sim := { last.sim with now := last.sim.now + 1 } })
    (done : Simulation.tick sim = .ok report after) :
    ∃ watched, Watched.probe.tick ⟨sim, [], []⟩ = .ok report watched ∧ watched.sim = after ∧
      report.tick = sim.now ∧ ends report.reports watched := by
  have ticked := covering.tick ends begun ended (⟨sim, [], []⟩ : Watched σ) rfl
  cases watch : Watched.probe.tick ⟨sim, [], []⟩ with
  | error e watched =>
      rw [watch] at ticked
      cases done.symm.trans ticked.1
  | ok report' watched =>
      rw [watch] at ticked
      obtain ⟨plain, now, ends⟩ := ticked
      injection done.symm.trans plain with same same'
      subst same same'
      exact ⟨watched, rfl, rfl, now, ends⟩

theorem tick_fixedPoint {sim after : Simulation σ} {report : TickReport}
    (kept : (any σ).Kept sim) (done : Simulation.tick sim = .ok report after) :
    ∃ watched, Watched.probe.tick ⟨sim, [], []⟩ = .ok report watched ∧ watched.sim = after ∧
      FixedPoint sim report watched := by
  obtain ⟨watched, watch, same, now, fixed⟩ := tick_covered
    (fun reports watched => FixedPoint sim { tick := sim.now, reports } watched)
    (Watched.covering sim) (Watched.underway_start kept)
    (fun _ _ _ _ underway covered all => underway.fixedPoint kept covered all) done
  obtain ⟨tick, reports⟩ := report
  subst now
  exact ⟨watched, watch, same, fixed⟩

theorem tick_complete {contract : Contract σ} {sim after : Simulation σ} {report : TickReport}
    (kept : contract.Kept sim) (done : Simulation.tick sim = .ok report after) :
    ∃ watched, Watched.probe.tick ⟨sim, [], []⟩ = .ok report watched ∧ watched.sim = after ∧
      Diary.Complete contract sim after watched.responses := by
  obtain ⟨watched, watch, same, -, complete⟩ := tick_covered
    (fun _ watched => Diary.Complete contract sim watched.sim watched.responses)
    (Diary.covering contract sim) (.start kept)
    (fun _ _ _ _ diary covered _ => diary.complete covered) done
  exact ⟨watched, watch, same, same ▸ complete⟩

theorem tick_clock {contract : Contract σ} {sim : Simulation σ} (kept : contract.Kept sim) :
    match Simulation.tick sim with
    | .ok _ after => after.now = sim.now + 1
    | .error _ after => after.now = sim.now := by
  have nothing : contract.Upkeep sim.now (fun _ _ _ => True) fun _ _ => True :=
    ⟨fun _ _ _ => trivial, fun _ _ _ _ => by split <;> trivial, fun _ _ _ _ => trivial,
      fun _ => trivial⟩
  have ticked := tick_upkeep nothing kept trivial sim rfl
  cases done : Simulation.tick sim with
  | ok report after =>
      rw [done] at ticked
      exact ticked.1.2
  | error e after =>
      rw [done] at ticked
      exact ticked.now

theorem tick_now {contract : Contract σ} {sim after : Simulation σ} {report : TickReport}
    (kept : contract.Kept sim) (done : Simulation.tick sim = .ok report after) :
    after.now = sim.now + 1 := by
  have clock := tick_clock kept
  rwa [done] at clock

end Simulation

end Cadence
