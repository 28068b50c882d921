import Cadence.Proofs.FlowTable.Prompt
import Cadence.Proofs.Scenario.Contract
import Cadence.Proofs.Simulation.Rounds
/-!
Following the flows of a scenario from what they began with. An account says something of each flow
by its birth and by the births of those that it waits for, and a tick keeps the account up.
-/

namespace Cadence.Scenario

open FlowTable

/-! ## Births -/

structure Birth where
  target : Target
  args : List Json
  spawnedAt : Tick

def Birth.of (recipe : Recipe Invocation) (tick : Tick) : Birth where
  target := recipe.start.entry
  args := recipe.args
  spawnedAt := tick

structure Begins (id : FlowId) (target : Target) (args : List Json)
    (exchange : Exchange Invocation) : Prop where
  flow : exchange.flow = id
  input : exchange.input = .params args
  entry : exchange.state.entry = target

abbrev Beginnings := FlowId → Target → List Json → Prop

def Beginnings.since (past : Beginnings) (journal : List (Exchange Invocation)) : Beginnings :=
  fun id target args => past id target args ∨ ∃ exchange ∈ journal, Begins id target args exchange

structure Descends (begun : Target → List Json → Prop) (birth : Birth) (flow : Flow Invocation) :
    Prop where
  spawnedAt : flow.spawnedAt = birth.spawnedAt
  entry : flow.coroutine.entry = birth.target
  enters : (Config.ofFlow flow).isEntered = false →
    Config.ofFlow flow = .enter birth.target birth.args
  begun : (Config.ofFlow flow).isEntered = true → begun birth.target birth.args

def Stems (tick : Tick) (stepped : Option Nat) (begun : Target → List Json → Prop) (birth : Birth) :
    Phase Invocation → Prop
  | .active flow => Descends begun birth flow ∧
    ((Config.ofFlow flow).isEntered = false →
      flow.spawnedAt = tick ∧ stepped ≠ some flow.activation)
  | .suspended flow _ => Descends begun birth flow ∧ ∃ frames, Config.ofFlow flow = .go frames
  | .completed done => done.spawnedAt = birth.spawnedAt ∧ begun birth.target birth.args
  | .cancelled gone => gone.spawnedAt = birth.spawnedAt ∧
    (begun birth.target birth.args ∨ gone.cancelledAt ≤ gone.spawnedAt)

/-- What is said of a flow in some phase, by its birth and the births of those that it waits for. -/
abbrev Statement := (FlowId → Birth) → FlowId → Phase Invocation → Prop

structure Fits (said : Statement) (tick : Tick) (stepped : FlowId → Option Nat)
    (begun : Beginnings) (birth : FlowId → Birth) (table : FlowTable Invocation) : Prop where
  known : ∀ (id : Nat) target args, begun id target args →
    id ≤ table.phases.size ∧ target = (birth id).target ∧ args = (birth id).args
  unstepped : ∀ id : Nat, table.phases.size < id → stepped id = none
  inside : ∀ id phase, table.find? id = some phase →
    ∀ child : Nat, child ∈ phase.dependencies → child ≤ table.phases.size
  stems : ∀ id phase, table.find? id = some phase →
    Stems tick (stepped id) (begun id) (birth id) phase
  said : ∀ id phase, table.find? id = some phase → said birth id phase

/-! ## Accounts -/

/-- What an account owes: what it says of a flow follows the flow through its turns. -/
structure Account (program : Program) (tick : Tick) where
  holds : Option Nat → Statement
  drives : Birth → Option (Boundary Invocation) → Flow Invocation → Prop
  breaks : Statement
  congr : ∀ {birth birth' stepped id phase}, birth' id = birth id →
    (∀ child ∈ Phase.dependencies phase, birth' child = birth child) →
      holds stepped birth id phase → holds stepped birth' id phase
  spawn : ∀ {birth id recipe} (caller : Option Address) (isDependency : Bool),
    birth id = .of recipe tick →
      holds none birth id (.active (.ofRecipe id recipe caller isDependency tick))
  pass : ∀ {birth stepped id phase} {activation : Nat},
    (∀ flow, phase = .active flow → stepped ≠ some flow.activation ∧ activation ≠ flow.activation) →
    (∀ flow wait, phase = .suspended flow wait → activation ≤ flow.activation) →
      holds stepped birth id phase → holds (some activation) birth id phase
  turn : ∀ {birth stepped id flow}, stepped ≠ some flow.activation →
    holds stepped birth id (.active flow) → drives (birth id) none { flow with resumption := none }
  step : ∀ {born flow later} {boundary : Option (Boundary Invocation)}, drives born none flow →
    (Config.ofFlow flow).Moves program boundary (Config.ofFlow later) → drives born boundary later
  halt : ∀ {birth id flow}, drives (birth id) (some .halt) flow →
    holds (some flow.activation) birth id (.active flow)
  await : ∀ {birth id flow request caller dependencies},
    drives (birth id) (some (.await request caller)) flow →
    dependencies.map birth = request.recipes.map (Birth.of · tick) →
      holds (some flow.activation) birth id (.suspended flow
        ⟨request.strategy, caller, request.isDependency, dependencies, tick⟩)
  complete : ∀ {birth id flow value last name order} {spawnedAt : Tick} {activation : Nat},
    drives (birth id) (some (.complete value last)) flow →
      holds (some activation) birth id (.completed ⟨id, name, value, last, spawnedAt, tick, order⟩)
  settle : ∀ {birth} {stepped : FlowId → Option Nat} {table after : FlowTable Invocation},
    table.Prompt tick → Settled table tick after →
    (∀ id phase, table.find? id = some phase → Stems tick (stepped id) (fun _ _ => True) (birth id)
      phase ∧ holds (stepped id) birth id phase) →
      ∀ id phase, after.find? id = some phase → holds (stepped id) birth id phase
  stop : ∀ {birth id flow}, drives (birth id) none flow → breaks birth id (.active flow)
  leave : ∀ {birth stepped id phase}, holds stepped birth id phase → breaks birth id phase

variable {program : Program} {tick : Tick} {birth birth' : FlowId → Birth} {born : Birth}
  {begun begun' past : Beginnings} {stepped stepped' : FlowId → Option Nat} {said said' : Statement}
  {table after : FlowTable Invocation} {id : Nat} {flow later : Flow Invocation}
  {journal base : List (Exchange Invocation)} {boundary : Option (Boundary Invocation)}

/-! ## Changing the table -/

def birthsSince (table after : FlowTable Invocation) (birth : FlowId → Birth) (id : Nat) : Birth :=
  if id ≤ table.phases.size then birth id
  else
    match after.find? id with
    | some (.active flow) => ⟨flow.coroutine.entry, (flow.stack.records.flatMap Record.params),
        flow.spawnedAt⟩
    | _ => birth id

theorem birthsSince_old (inside : id ≤ table.phases.size) :
    birthsSince table after birth id = birth id :=
  if_pos inside

theorem birthsSince_new (beyond : table.phases.size < id) {recipe : Recipe Invocation}
    {caller : Option Address} {isDependency : Bool}
    (found : after.find? id = some (.active (.ofRecipe id recipe caller isDependency tick))) :
    birthsSince table after birth id = .of recipe tick := by
  rw [birthsSince, if_neg (Nat.not_le_of_lt beyond), found]
  simp [Flow.ofRecipe, Record.entry, Birth.of]

theorem descends_ofRecipe {recipe : Recipe Invocation} {begun : Target → List Json → Prop}
    (caller : Option Address) (isDependency : Bool) (born : birth id = .of recipe tick) :
    Descends begun (birth id) (.ofRecipe id recipe caller isDependency tick) := by
  rw [born]
  refine ⟨rfl, rfl, fun _ => rfl, fun entered => ?_⟩
  simp [Config.ofFlow, Config.of, Flow.ofRecipe, Record.entry, Config.isEntered] at entered

/-- One flow is changed and others are added; all that is said of the rest is carried over. -/
theorem Fits.change (fits : Fits said tick stepped begun birth table)
    (grows : table.phases.size ≤ after.phases.size)
    (old : ∀ other : Nat, other ≠ id → other ≤ table.phases.size →
      after.find? other = table.find? other)
    (fresh : ∀ (other : Nat) phase, table.phases.size < other → after.find? other = some phase →
      ∃ recipe caller isDependency,
        phase = .active (.ofRecipe other recipe caller isDependency tick))
    (inside : id ≤ table.phases.size)
    (steppedSame : ∀ other, other ≠ id → stepped' other = stepped other)
    (begunSame : ∀ other, other ≠ id → begun' other = begun other)
    (known : ∀ target args, begun' id target args →
      target = (birth id).target ∧ args = (birth id).args)
    (carry : ∀ birth' other phase, other ≠ id → birth' other = birth other →
      (∀ child ∈ phase.dependencies, birth' child = birth child) →
        said birth other phase → said' birth' other phase)
    (spawned : ∀ birth' other recipe caller isDependency, other ≠ id → stepped other = none →
      birth' other = .of recipe tick →
        said' birth' other (.active (.ofRecipe other recipe caller isDependency tick)))
    (here : ∀ phase, after.find? id = some phase →
      (∀ child : Nat, child ∈ phase.dependencies → child ≤ after.phases.size) ∧
      Stems tick (stepped' id) (begun' id) (birth id) phase ∧
      said' (birthsSince table after birth) id phase) :
    Fits said' tick stepped' begun' (birthsSince table after birth) after := by
  -- Any other flow is as it was, or has only just been created.
  have cases' (other : Nat) (phase : Phase Invocation) (distinct : other ≠ id)
      (found : after.find? other = some phase) :
      other ≤ table.phases.size ∧ table.find? other = some phase ∨
        table.phases.size < other ∧ ∃ recipe caller isDependency,
          phase = .active (.ofRecipe other recipe caller isDependency tick) := by
    by_cases within : other ≤ table.phases.size
    · exact .inl ⟨within, (old other distinct within).symm.trans found⟩
    · exact .inr ⟨by omega, fresh other phase (by omega) found⟩
  have same (other : Nat) (within : other ≤ table.phases.size) :
      birthsSince table after birth other = birth other := birthsSince_old within
  constructor
  case known =>
    intro other target args began
    by_cases distinct : other = id
    · subst distinct
      rw [same other inside]
      exact ⟨Nat.le_trans inside grows, known target args began⟩
    · rw [begunSame other distinct] at began
      obtain ⟨within, kept⟩ := fits.known other target args began
      rw [same other within]
      exact ⟨Nat.le_trans within grows, kept⟩
  case unstepped =>
    intro other beyond
    rw [steppedSame other (by omega)]
    exact fits.unstepped other (by omega)
  case inside =>
    intro other phase found child member
    by_cases distinct : other = id
    · exact (here phase (distinct ▸ found)).1 child member
    · rcases cases' other phase distinct found with ⟨-, found⟩ | ⟨-, recipe, caller, flag, rfl⟩
      · exact Nat.le_trans (fits.inside other phase found child member) grows
      · simp [Phase.dependencies] at member
  case stems =>
    intro other phase found
    by_cases distinct : other = id
    · subst distinct
      rw [same other inside]
      exact (here phase found).2.1
    · rw [steppedSame other distinct, begunSame other distinct]
      rcases cases' other phase distinct found with ⟨within, found⟩ | ⟨beyond, recipe, caller, flag, rfl⟩
      · rw [same other within]
        exact fits.stems other phase found
      · refine ⟨descends_ofRecipe caller flag (birthsSince_new beyond found), fun _ => ⟨rfl, ?_⟩⟩
        simp [fits.unstepped other beyond]
  case said =>
    intro other phase found
    by_cases distinct : other = id
    · subst distinct
      exact (here phase found).2.2
    · rcases cases' other phase distinct found with ⟨within, found⟩ | ⟨beyond, recipe, caller, flag, rfl⟩
      · exact carry _ other phase distinct (same other within)
          (fun child member => same child (fits.inside other phase found child member))
          (fits.said other phase found)
      · exact spawned _ other recipe caller flag distinct (fits.unstepped other beyond)
          (birthsSince_new beyond found)

/-! ## Settling waits -/

theorem ofFlow_resumed {frames : List Frame} {stack : Stack} {resumption : Resumption} {value : Json}
    (waits : Config.ofFlow flow = .go frames)
    (pushed : flow.stack.modify 0 (·.push (.provideGiven value)) = .ok stack) :
    Config.ofFlow (flow.resumed stack resumption) = .hand value frames := by
  obtain ⟨top, below, records, rfl⟩ := Stack.modify_top_ok pushed
  unfold Config.ofFlow Config.of at waits ⊢
  rw [records] at waits
  simp only [Flow.resumed] at waits ⊢
  cases pending : top.operations with
  | nil =>
      simp only [pending] at waits
      simp [Record.push, pending, Config.go.inj waits]
  | cons operation rest => cases operation <;> simp [pending] at waits

theorem Descends.resumed {begun : Target → List Json → Prop} {frames : List Frame} {stack : Stack}
    {resumption : Resumption} {value : Json} (descends : Descends begun born flow)
    (waits : Config.ofFlow flow = .go frames)
    (pushed : flow.stack.modify 0 (·.push (.provideGiven value)) = .ok stack) :
    Descends begun born (flow.resumed stack resumption) where
  spawnedAt := descends.spawnedAt
  entry := descends.entry
  enters unentered := by simp [ofFlow_resumed waits pushed, Config.isEntered] at unentered
  begun _ := descends.begun (by simp [waits, Config.isEntered])

theorem Stems.settled {begun : Target → List Json → Prop} {activation : Option Nat}
    {phase : Phase Invocation} (settles : Settles table tick (table.find? id) (some phase))
    (stems : ∀ phase, table.find? id = some phase → Stems tick activation begun born phase) :
    Stems tick activation begun born phase := by
  generalize table.find? id = before at settles stems
  cases settles with
  | spared spares =>
      cases spares with
      | same => exact stems _ rfl
      | active flow parent caller =>
          obtain ⟨descends, unentered⟩ := stems _ rfl
          refine ⟨descends.spawnedAt, ?_⟩
          cases entered : (Config.ofFlow flow).isEntered with
          | true => exact .inl (descends.begun entered)
          | false => exact .inr (Nat.le_of_eq (unentered entered).1.symm)
      | suspended flow wait parent caller =>
          obtain ⟨descends, frames, waits⟩ := stems _ rfl
          exact ⟨descends.spawnedAt, .inl (descends.begun (by simp [waits, Config.isEntered]))⟩
  | resumed outcome pushed =>
      obtain ⟨descends, frames, waits⟩ := stems _ rfl
      refine ⟨descends.resumed waits pushed, fun unentered => ?_⟩
      simp [ofFlow_resumed waits pushed, Config.isEntered] at unentered

theorem Stems.weaken {begun begun' : Target → List Json → Prop} {activation : Option Nat}
    {phase : Phase Invocation} (stems : Stems tick activation begun born phase)
    (more : ∀ target args, begun target args → begun' target args) :
    Stems tick activation begun' born phase := by
  have descends (flow : Flow Invocation) (descends : Descends begun born flow) :
      Descends begun' born flow :=
    ⟨descends.spawnedAt, descends.entry, descends.enters, fun entered => more _ _ (descends.begun entered)⟩
  cases phase with
  | active flow => exact ⟨descends flow stems.1, stems.2⟩
  | suspended flow wait => exact ⟨descends flow stems.1, stems.2⟩
  | completed done => exact ⟨stems.1, more _ _ stems.2⟩
  | cancelled gone => exact ⟨stems.1, stems.2.imp_left (more _ _)⟩

theorem Stems.unstepped {begun : Target → List Json → Prop} {activation activation' : Option Nat}
    {phase : Phase Invocation} (stems : Stems tick activation begun born phase)
    (fresh : ∀ flow, phase = .active flow → activation' ≠ some flow.activation) :
    Stems tick activation' begun born phase := by
  cases phase with
  | active flow => exact ⟨stems.1, fun unentered => ⟨(stems.2 unentered).1, fresh flow rfl⟩⟩
  | suspended flow wait => exact stems
  | completed done => exact stems
  | cancelled gone => exact stems

namespace Account

variable (account : Account program tick)

abbrev statement (stepped : FlowId → Option Nat) : Statement :=
  fun birth id phase => account.holds (stepped id) birth id phase

variable {account}

theorem fits_settled (fits : Fits (account.statement stepped) tick stepped begun birth table)
    (prompt : table.Prompt tick) (settled : Settled table tick after) :
    Fits (account.statement stepped) tick stepped begun birth after := by
  have size := settled.size
  constructor
  case known => simpa only [size] using fits.known
  case unstepped => simpa only [size] using fits.unstepped
  case inside =>
    intro id phase found child member
    rw [size]
    have inside := settled.forall_phases fits.inside
      (fun _ _ _ _ _ _ member => by simp [Phase.dependencies] at member)
      fun _ _ _ _ _ _ _ _ _ _ _ member => by simp [Phase.dependencies] at member
    exact inside id phase found child member
  case stems =>
    intro id phase found
    exact Stems.settled (found ▸ settled.phases id) (fits.stems id)
  case said =>
    refine account.settle prompt settled fun id phase found => ⟨?_, fits.said id phase found⟩
    exact (fits.stems id phase found).weaken fun _ _ _ => trivial

/-! ## Driving a flow -/

structure Driven (account : Account program tick) (past : Beginnings) (base : List (Exchange Invocation))
    (id : FlowId) (born : Birth) (boundary : Option (Boundary Invocation)) (flow : Flow Invocation)
    (journal : List (Exchange Invocation)) : Prop where
  named : flow.id = id
  descends : Descends (past.since journal id) born flow
  entered : boundary ≠ none → (Config.ofFlow flow).isEntered = true
  young : (Config.ofFlow flow).isEntered = false → flow.spawnedAt = tick
  awaits : ∀ request caller, boundary = some (.await request caller) →
    (∃ frames, Config.ofFlow flow = .go frames) ∧
      request.strategy.check id request.recipes.length = .ok ()
  grown : ∀ other target args, past.since base other target args → past.since journal other target args
  told : ∀ other target args, past.since journal other target args →
    past.since base other target args ∨ other = id ∧ target = born.target ∧ args = born.args
  drives : account.drives born boundary flow

theorem steady_driven (sound : program.Sound) (account : Account program tick) (past : Beginnings)
    (base : List (Exchange Invocation)) (id : FlowId) (born : Birth) :
    sound.contract.Steady tick (account.Driven past base id born) := by
  intro memory flow journal installed fit running kept
  obtain ⟨outcome, done, -, moved⟩ := stepsOn sound installed fit.shape running tick
  obtain ⟨⟨input, ⟨popped, taken, took⟩, ⟨records, same⟩, exchange⟩, -⟩ :=
    Flow.step_advances fit tick
  generalize after : (flow.step memory tick).flow = later at moved same
  rw [done, exchange]
  have descends := kept.descends
  -- The step is the beginning of a method exactly where that method is yet to be entered.
  have asked (target : Target) (args : List Json) : Begins id target args ⟨flow.id, flow.coroutine,
      input, (Coroutine.resume flow.coroutine input).1⟩ ↔
        Config.ofFlow flow = .enter target args := by
    constructor
    · rintro ⟨-, params, rfl⟩
      exact (Config.takeInput_params took).1 params
    · intro enters
      obtain rfl := Config.entry_of_enter enters
      exact ⟨kept.named, (Config.takeInput_params took).2 enters, rfl⟩
  have grown (other : FlowId) (target : Target) (args : List Json)
      (before : past.since journal other target args) :
      past.since ([⟨flow.id, flow.coroutine, input, (Coroutine.resume flow.coroutine input).1⟩] ++
        journal) other target args :=
    before.imp_right fun ⟨known, member, begins⟩ => ⟨known, List.mem_cons_of_mem _ member, begins⟩
  have begun : past.since ([⟨flow.id, flow.coroutine, input,
      (Coroutine.resume flow.coroutine input).1⟩] ++ journal) id born.target born.args := by
    cases entered : (Config.ofFlow flow).isEntered with
    | true => exact grown id _ _ (descends.begun entered)
    | false =>
        exact .inr ⟨_, List.mem_cons_self .., (asked _ _).2 (descends.enters entered)⟩
  have entered := moved.isEntered
  constructor
  case named =>
    rw [same]
    exact kept.named
  case descends =>
    refine ⟨?_, ?_, fun unentered => ?_, fun _ => begun⟩
    · rw [same]
      exact descends.spawnedAt
    · rw [same]
      exact (flow.coroutine.entry_resume input).trans descends.entry
    · rw [entered] at unentered
      cases unentered
  case entered => exact fun _ => entered
  case young =>
    intro unentered
    rw [entered] at unentered
    cases unentered
  case awaits =>
    intro request caller reached
    rw [reached] at moved
    exact moved.await_spec.imp_right fun shapely => shapely id
  case grown =>
    exact fun other target args before => grown other target args (kept.grown other target args before)
  case drives => exact account.step kept.drives moved
  -- What is new begins in this step, and then it is the method that the flow was created for.
  case told =>
    intro other target args seen
    rcases seen with before | ⟨known, member, begins⟩
    · exact kept.told other target args (.inl before)
    · rcases List.mem_cons.1 member with rfl | member
      · obtain rfl : other = id := begins.flow.symm.trans kept.named
        have enters := (asked target args).1 begins
        have unentered : (Config.ofFlow flow).isEntered = false := by rw [enters]; rfl
        obtain ⟨rfl, rfl⟩ := Config.enter.inj (enters.symm.trans (descends.enters unentered))
        exact .inr ⟨rfl, rfl, rfl⟩
      · exact kept.told other target args (.inr ⟨known, member, begins⟩)

/-! ## A turn -/

section Turns

variable {start : Flow Invocation}

theorem Driven.begun_same (driven : account.Driven past base id born boundary flow journal)
    (other : Nat) (distinct : other ≠ id) : past.since journal other = past.since base other := by
  funext target args
  refine propext ⟨fun seen => ?_, driven.grown other target args⟩
  exact (driven.told other target args seen).resolve_right fun here => distinct here.1

theorem fits_driven (fits : Fits (account.statement stepped) tick stepped (past.since base) birth table)
    (found : table.find? id = some (.active start))
    (driven : account.Driven past base id (birth id) boundary flow journal)
    (grows : table.phases.size ≤ after.phases.size)
    (old : ∀ other : Nat, other ≠ id → other ≤ table.phases.size →
      after.find? other = table.find? other)
    (fresh : ∀ (other : Nat) phase, table.phases.size < other → after.find? other = some phase →
      ∃ recipe caller isDependency,
        phase = .active (.ofRecipe other recipe caller isDependency tick))
    (here : ∀ phase, after.find? id = some phase →
      (∀ child : Nat, child ∈ phase.dependencies → child ≤ after.phases.size) ∧
      Stems tick (some start.activation) (past.since journal id) (birth id) phase ∧
      account.holds (some start.activation) (birthsSince table after birth) id phase) :
    Fits (account.statement (Function.update stepped id (some start.activation))) tick
      (Function.update stepped id (some start.activation)) (past.since journal)
      (birthsSince table after birth) after := by
  have others (other : Nat) (distinct : other ≠ id) :
      Function.update stepped id (some start.activation) other = stepped other :=
    Function.update_of_ne distinct ..
  refine fits.change grows old fresh (le_size_of_find? found).2 others driven.begun_same
    (fun target args seen => ?_) (fun birth' other phase distinct same children holds => ?_)
    (fun birth' other recipe caller isDependency distinct unstepped born => ?_) fun phase found => ?_
  · rcases driven.told id target args seen with before | ⟨-, same⟩
    · exact (fits.known id target args before).2
    · exact same
  · simp only [statement, others other distinct]
    exact account.congr same children holds
  · simp only [statement, others other distinct, unstepped]
    exact account.spawn caller isDependency born
  · simp only [statement, Function.update_self]
    exact here phase found

theorem fits_halted (fits : Fits (account.statement stepped) tick stepped (past.since base) birth table)
    (found : table.find? id = some (.active start)) (kin : start.Kin flow)
    (driven : account.Driven past base id (birth id) (some .halt) flow journal) :
    Fits (account.statement (Function.update stepped id (some start.activation))) tick
      (Function.update stepped id (some start.activation)) (past.since journal)
      (birthsSince table (table.put id (some (.active flow))) birth)
      (table.put id (some (.active flow))) := by
  have bounds := le_size_of_find? found
  refine fits_driven fits found driven (Nat.le_of_eq (size_put ..).symm)
    (fun other distinct _ => find?_put_of_ne table _ distinct)
    (fun other phase beyond known => ?_) fun phase known => ?_
  · rw [find?_put_of_ne table _ (by omega), find?_eq_none_of_size_lt beyond] at known
    cases known
  · rw [find?_put_self found] at known
    obtain rfl := Option.some.inj known
    refine ⟨by simp [Phase.dependencies], ⟨driven.descends, fun unentered => ?_⟩, ?_⟩
    · simp [driven.entered (by simp)] at unentered
    · rw [← kin.activation]
      refine account.halt ?_
      rw [birthsSince_old bounds.2]
      exact driven.drives

theorem fits_awaiting (fits : Fits (account.statement stepped) tick stepped (past.since base) birth table)
    (found : table.find? id = some (.active start)) {request : Request Invocation} {caller : Address}
    (kin : start.Kin flow)
    (driven : account.Driven past base id (birth id) (some (.await request caller)) flow journal) :
    Fits (account.statement (Function.update stepped id (some start.activation))) tick
      (Function.update stepped id (some start.activation)) (past.since journal)
      (birthsSince table (table.awaiting id flow request caller tick) birth)
      (table.awaiting id flow request caller tick) := by
  obtain ⟨size, others, fresh, ids, waits, made⟩ := awaiting_spec found flow request caller tick
  have bounds := le_size_of_find? found
  generalize table.awaiting id flow request caller tick = after at *
  have births : ids.map (birthsSince table after birth) = request.recipes.map (Birth.of · tick) := by
    refine List.forall₂_eq_eq_eq ▸ List.forall₂_map_left_iff.2 (List.forall₂_map_right_iff.2 ?_)
    exact made.imp fun other recipe new => birthsSince_new new.1 new.2
  have within : ∀ child ∈ ids, child ≤ after.phases.size := by
    have each := made.imp fun other recipe new => And.intro (le_size_of_find? new.2).2 new
    exact ((List.forall₂_and_left ids request.recipes).1 each).1
  refine fits_driven fits found driven (by omega) others (fun other phase beyond known => ?_)
    fun phase known => ?_
  · obtain ⟨recipe, -, rfl⟩ := fresh other phase beyond known
    exact ⟨recipe, _, _, rfl⟩
  · rw [waits] at known
    obtain rfl := Option.some.inj known
    refine ⟨within, ⟨driven.descends, (driven.awaits request caller rfl).1⟩, ?_⟩
    rw [← kin.activation]
    refine account.await ?_ births
    rw [birthsSince_old bounds.2]
    exact driven.drives

theorem fits_completing (fits : Fits (account.statement stepped) tick stepped (past.since base) birth table)
    (found : table.find? id = some (.active start)) {name : String} {value : Json}
    {last : Option Address} {order : Nat} (kin : start.Kin flow)
    (driven : account.Driven past base id (birth id) (some (.complete value last)) flow journal) :
    let done : Completion := ⟨id, name, value, last, start.spawnedAt, tick, order⟩
    Fits (account.statement (Function.update stepped id (some start.activation))) tick
      (Function.update stepped id (some start.activation)) (past.since journal)
      (birthsSince table (table.completing id done) birth) (table.completing id done) := by
  intro done
  have bounds := le_size_of_find? found
  have known := find?_completing found done
  have size : (table.completing id done).phases.size = table.phases.size := by simp [completing]
  refine fits_driven fits found driven (Nat.le_of_eq size.symm)
    (fun other distinct _ => (known other).trans (if_neg distinct))
    (fun other phase beyond found' => ?_) fun phase found' => ?_
  · rw [known, if_neg (by omega), find?_eq_none_of_size_lt beyond] at found'
    cases found'
  · rw [known, if_pos rfl] at found'
    obtain rfl := Option.some.inj found'
    refine ⟨by simp [Phase.dependencies], ⟨?_, driven.descends.begun (driven.entered (by simp))⟩, ?_⟩
    · exact kin.spawnedAt.symm.trans driven.descends.spawnedAt
    · have same : birthsSince table (table.completing id done) birth id = birth id :=
        birthsSince_old bounds.2
      have drives := driven.drives
      rw [← same] at drives
      exact account.complete drives

end Turns

/-! ## A tick -/

variable (account) in
def Keeps (past : Beginnings) (stepped : FlowId → Option Nat) (table : FlowTable Invocation)
    (journal : List (Exchange Invocation)) : Prop :=
  ∃ birth, Fits (account.statement stepped) tick stepped (past.since journal) birth table

variable (account) in
def Breaks (past : Beginnings) (table : FlowTable Invocation)
    (journal : List (Exchange Invocation)) : Prop :=
  ∃ birth, Fits account.breaks tick (fun _ => none) (past.since journal) birth table

theorem fits_grown (fits : Fits (account.statement stepped) tick stepped begun birth table)
    (grows : table.phases.size ≤ after.phases.size)
    (old : ∀ other : Nat, other ≤ table.phases.size → after.find? other = table.find? other)
    (fresh : ∀ (other : Nat) phase, table.phases.size < other → after.find? other = some phase →
      ∃ recipe caller isDependency,
        phase = .active (.ofRecipe other recipe caller isDependency tick)) :
    Fits (account.statement stepped) tick stepped begun (birthsSince table after birth) after := by
  refine fits.change grows (fun other _ inside => old other inside) fresh (Nat.zero_le _)
    (fun _ _ => rfl) (fun _ _ => rfl) (fun target args seen => (fits.known 0 target args seen).2)
    (fun birth' other phase _ same children holds => account.congr same children holds)
    (fun birth' other recipe caller isDependency _ unstepped born => ?_)
    fun phase found => by cases found
  simp only [statement, unstepped]
  exact account.spawn caller isDependency born

theorem fits_spawned (fits : Fits (account.statement stepped) tick stepped begun birth table)
    (recipe : Recipe Invocation) (caller : Option Address) (isDependency : Bool) :
    Fits (account.statement stepped) tick stepped begun
      (birthsSince table (table.create recipe caller isDependency tick).2 birth)
      (table.create recipe caller isDependency tick).2 := by
  refine fits_grown fits (by simp [create]) (fun other inside => ?_) fun other phase beyond found => ?_
  · rw [find?_create, if_neg (by omega)]
  · rw [find?_create] at found
    split at found
    · exact ⟨recipe, caller, isDependency, (Option.some.inj found).symm⟩
    · rw [find?_eq_none_of_size_lt beyond] at found
      cases found

theorem fits_passed (fits : Fits (account.statement stepped) tick stepped begun birth table)
    (inside : id ≤ table.phases.size) {activation : Nat}
    (behind : ∀ flow, table.live? id = some flow → activation ≤ flow.activation)
    (passed : ∀ flow, table.find? id = some (.active flow) →
      stepped id ≠ some flow.activation ∧ activation ≠ flow.activation) :
    Fits (account.statement (Function.update stepped id (some activation))) tick
      (Function.update stepped id (some activation)) begun birth table := by
  have distinct (other : Nat) (apart : other ≠ id) :
      Function.update stepped id (some activation) other = stepped other :=
    Function.update_of_ne apart ..
  refine ⟨fits.known, fun other beyond => ?_, fits.inside, fun other phase found => ?_,
    fun other phase found => ?_⟩
  · rw [distinct other (by omega)]
    exact fits.unstepped other beyond
  · by_cases here : other = id
    · subst here
      rw [Function.update_self]
      refine (fits.stems other phase found).unstepped fun flow same again => ?_
      exact (passed flow (same ▸ found)).2 (Option.some.inj again)
    · rw [distinct other here]
      exact fits.stems other phase found
  · by_cases here : other = id
    · subst here
      simp only [statement, Function.update_self]
      exact account.pass (fun flow same => passed flow (same ▸ found))
        (fun flow wait same => behind flow (live?_eq_some.2 (.inr ⟨wait, same ▸ found⟩)))
        (fits.said other phase found)
    · simp only [statement, distinct other here]
      exact fits.said other phase found

theorem fits_left (fits : Fits said tick stepped begun birth table)
    (left : ∀ id phase, table.find? id = some phase → said birth id phase →
      account.breaks birth id phase) :
    Fits account.breaks tick (fun _ => none) begun birth table where
  known := fits.known
  unstepped _ _ := rfl
  inside := fits.inside
  stems id phase found := (fits.stems id phase found).unstepped (by simp)
  said id phase found := left id phase found (fits.said id phase found)

theorem fits_stopped {start : Flow Invocation}
    (fits : Fits (account.statement stepped) tick stepped (past.since base) birth table)
    (found : table.find? id = some (.active start)) (unstepped : stepped id ≠ some start.activation)
    (kin : start.Kin flow) (driven : account.Driven past base id (birth id) none flow journal) :
    Fits account.breaks tick (fun _ => none) (past.since journal)
      (birthsSince table (table.put id (some (.active flow))) birth)
      (table.put id (some (.active flow))) := by
  have bounds := le_size_of_find? found
  have changed : Fits account.breaks tick stepped (past.since journal)
      (birthsSince table (table.put id (some (.active flow))) birth)
      (table.put id (some (.active flow))) := by
    refine fits.change (Nat.le_of_eq (size_put ..).symm)
      (fun other distinct _ => find?_put_of_ne table _ distinct) (fun other phase beyond known => ?_)
      bounds.2 (fun _ _ => rfl) driven.begun_same (fun target args seen => ?_)
      (fun birth' other phase distinct same children holds =>
        account.leave (account.congr same children holds))
      (fun birth' other recipe caller isDependency _ _ born =>
        account.leave (account.spawn caller isDependency born)) fun phase known => ?_
    · rw [find?_put_of_ne table _ (by omega), find?_eq_none_of_size_lt beyond] at known
      cases known
    · rcases driven.told id target args seen with before | ⟨-, same⟩
      · exact (fits.known id target args before).2
      · exact same
    · rw [find?_put_self found] at known
      obtain rfl := Option.some.inj known
      refine ⟨by simp [Phase.dependencies], ⟨driven.descends, fun unentered => ?_⟩, ?_⟩
      · exact ⟨driven.young unentered, kin.activation ▸ unstepped⟩
      · refine account.stop ?_
        rw [birthsSince_old bounds.2]
        exact driven.drives
  exact fits_left changed fun _ _ _ left => left

theorem driven_start {start : Flow Invocation}
    (fits : Fits (account.statement stepped) tick stepped (past.since base) birth table)
    (found : table.find? id = some (.active start)) (named : start.id = id)
    (unstepped : stepped id ≠ some start.activation) :
    account.Driven past base id (birth id) none { start with resumption := none } base := by
  obtain ⟨descends, young⟩ := fits.stems id _ found
  constructor
  case named => exact named
  case descends => exact ⟨descends.spawnedAt, descends.entry, descends.enters, descends.begun⟩
  case entered => exact fun reached => absurd rfl reached
  case young => exact fun unentered => (young unentered).1
  case awaits => exact fun _ _ reached => nomatch reached
  case grown => exact fun _ _ _ seen => seen
  case told => exact fun _ _ _ => .inl
  case drives => exact account.turn unstepped (fits.said id _ found)

variable {sim : Simulation Invocation}

theorem keeps_processed (sound : program.Sound) (kept : sound.contract.Kept sim)
    (keeps : account.Keeps past stepped sim.flows sim.journal)
    (found : sim.flows.find? id = some (.active flow)) (unstepped : stepped id ≠ some flow.activation)
    {reports : List Report} {after : Simulation Invocation}
    (done : Simulation.process id tick sim = .ok reports after) :
    account.Keeps past (Function.update stepped id (some flow.activation)) after.flows
      after.journal := by
  obtain ⟨lineage, holds⟩ := kept
  obtain ⟨birth, fits⟩ := keeps
  have named := (holds.orders.admits id _ found).named
  have turn := Simulation.process_turn holds found
    (steady_driven sound account past sim.journal id (birth id)) (driven_start fits found named unstepped)
  have prompt := holds.orders.forest.prompt holds.orders.resumable holds.unsettled tick
  rw [done] at turn
  obtain ⟨turn, -⟩ := turn
  generalize after.flows = flows, after.journal = journal at turn ⊢
  cases turn with
  | halted kin driven => exact ⟨_, fits_halted fits found kin driven⟩
  | waiting kin driven shapely resolved =>
      exact ⟨_, fits_settled (fits_awaiting fits found kin driven) (prompt.awaiting found _ _ _)
        (resolve_ok resolved).1⟩
  | completed kin driven resolved =>
      exact ⟨_, fits_settled (fits_completing fits found kin driven) (prompt.completing found rfl)
        (resolve_ok resolved).1⟩

theorem breaks_processed (sound : program.Sound) (kept : sound.contract.Kept sim)
    (keeps : account.Keeps past stepped sim.flows sim.journal)
    (found : sim.flows.find? id = some (.active flow)) (unstepped : stepped id ≠ some flow.activation)
    {e : EngineError} {after : Simulation Invocation}
    (done : Simulation.process id tick sim = .error e after) :
    account.Breaks past after.flows after.journal := by
  obtain ⟨lineage, holds⟩ := kept
  obtain ⟨birth, fits⟩ := keeps
  have named := (holds.orders.admits id _ found).named
  have turn := Simulation.process_turn holds found
    (steady_driven sound account past sim.journal id (birth id)) (driven_start fits found named unstepped)
  rw [done] at turn
  obtain ⟨turn, -⟩ := turn
  generalize after.flows = flows, after.journal = journal at turn ⊢
  cases turn with
  | stopped kin driven => exact ⟨_, fits_stopped fits found unstepped kin driven⟩
  | refused kin driven shapeless =>
      rw [(driven.awaits _ _ rfl).2] at shapeless
      cases shapeless

theorem upkeep (sound : program.Sound) (account : Account program tick) (past : Beginnings) :
    sound.contract.Upkeep tick (account.Keeps past) (account.Breaks past) where
  spawn := fun {_ _ recipe} _ ⟨_, fits⟩ _ => ⟨_, fits_spawned fits recipe none false⟩
  turn kept keeps found unstepped := by
    split
    next done => exact keeps_processed sound kept keeps found unstepped done
    next done => exact breaks_processed sound kept keeps found unstepped done
  pass := fun ⟨_, fits⟩ inside behind passed => ⟨_, fits_passed fits inside behind passed⟩
  stop := fun ⟨_, fits⟩ => ⟨_, fits_left fits fun _ _ _ => account.leave⟩

end Account

end Cadence.Scenario
