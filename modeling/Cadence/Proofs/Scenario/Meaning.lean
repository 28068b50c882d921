import Cadence.Proofs.Scenario.Run
/-!
What the methods of a scenario mean, as a relation between their arguments and the values that they
can come to. Flows that complete come to such values.
-/

namespace Cadence.Scenario

/-- The fields of the service, and over them the parameters; a missing argument is null. -/
def Target.initial (target : Target) (args : List Json) : Fields Json :=
  target.method.params.zipIdx.foldl
    (fun locals (param, place) => locals.insert param (args.getD place .null)) target.image.fields

def store (bind : Option String) (value : Json) (locals : Fields Json) : Fields Json :=
  match bind with
  | none => locals
  | some name => locals.insert name value

mutual

/-- The values that instructions can return when they run over local variables. -/
inductive Computes (program : Program) : Fields Json → List Instruction → Json → Prop
  | done {locals : Fields Json} : Computes program locals [] .null
  | log {locals : Fields Json} {value shown result : Json} {rest : List Instruction}
      (evaluated : value.substitute locals = .ok shown) (goesOn : Computes program locals rest result) :
      Computes program locals (.log value :: rest) result
  | sleep {locals : Fields Json} {ticks : Nat} {result : Json} {rest : List Instruction}
      (goesOn : Computes program locals rest result) :
      Computes program locals (.sleep ticks :: rest) result
  | call {locals : Fields Json} {call : Call} {value result : Json} {rest : List Instruction}
      (answers : Answers program locals call value)
      (goesOn : Computes program (store call.bind value locals) rest result) :
      Computes program locals (.call call :: rest) result
  | single {locals : Fields Json} {call : Call} {bind : Option String} {value result : Json}
      {rest : List Instruction} (answers : Answers program locals call value)
      (goesOn : Computes program (store bind value locals) rest result) :
      Computes program locals (.await ⟨.single, [call], bind⟩ :: rest) result
  | all {locals : Fields Json} {calls : List Call} {bind : Option String} {values : List Json}
      {result : Json} {rest : List Instruction} (answer : AllAnswer program locals calls values)
      (goesOn : Computes program (store bind (.arr values) locals) rest result) :
      Computes program locals (.await ⟨.all, calls, bind⟩ :: rest) result
  | race {locals : Fields Json} {calls : List Call} {call : Call} {bind : Option String}
      {value result : Json} {rest : List Instruction} (member : call ∈ calls)
      (answers : Answers program locals call value)
      (goesOn : Computes program (store bind value locals) rest result) :
      Computes program locals (.await ⟨.race, calls, bind⟩ :: rest) result
  | ret {locals : Fields Json} {value result : Json} {rest : List Instruction}
      (evaluated : value.substitute locals = .ok result) :
      Computes program locals (.ret value :: rest) result

inductive Answers (program : Program) : Fields Json → Call → Json → Prop
  | intro {locals : Fields Json} {call : Call} {target : Target} {args : List Json} {value : Json}
      (evaluated : Json.substituteItems locals call.args = .ok args)
      (reached : program.resolve call.service call.method = some target)
      (computes : Computes program (target.initial args) target.method.body value) :
      Answers program locals call value

inductive AllAnswer (program : Program) : Fields Json → List Call → List Json → Prop
  | nil {locals : Fields Json} : AllAnswer program locals [] []
  | cons {locals : Fields Json} {call : Call} {calls : List Call} {value : Json} {values : List Json}
      (first : Answers program locals call value) (rest : AllAnswer program locals calls values) :
      AllAnswer program locals (call :: calls) (value :: values)

end

def Program.Yields (program : Program) (target : Target) (args : List Json) (value : Json) : Prop :=
  Computes program (target.initial args) target.method.body value

theorem locals_eq_initial (target : Target) (args : List Json) :
    target.locals args = target.initial args := by
  have shift (params : List String) (args : List Json) (k : Nat) (locals : Fields Json) :
      Target.bindParams params (args.drop k) locals =
        (params.zipIdx k).foldl
          (fun locals (param, place) => locals.insert param (args.getD place .null)) locals := by
    induction params generalizing k locals with
    | nil => rfl
    | cons param params ih =>
        rw [Target.bindParams, List.tail_drop, ih]
        simp [List.zipIdx_cons, List.head?_drop, List.getD_eq_getElem?_getD]
  exact shift target.method.params args 0 target.image.fields

variable {program : Program} {tick : Tick} {frame after : Frame} {frames : List Frame}
  {locals : Fields Json} {body : List Instruction} {value result : Json} {config next : Config}

theorem yields_of_frame {target : Target} {args : List Json}
    (computes : Computes program (target.frame args).locals (target.frame args).rest value) :
    program.Yields target args value := by
  rw [Program.Yields, ← locals_eq_initial]
  exact computes

theorem computes_of_dropWhile (computes : Computes program locals (body.dropWhile Instruction.isPause) value) :
    Computes program locals body value := by
  induction body with
  | nil => exact computes
  | cons instruction rest ih =>
      rw [List.dropWhile_cons] at computes
      split at computes
      next pause =>
        unfold Instruction.isPause at pause
        split at pause
        · exact .sleep (ih computes)
        · cases pause
      next => exact computes

/-- The values that what is left of a flow can come to. -/
inductive Config.Leads (program : Program) : Config → Json → Prop
  | enter {target : Target} {args : List Json} {value : Json}
      (yields : program.Yields target args value) : Leads program (enter target args) value
  | out {value : Json} : Leads program (hand value []) value
  | deliver {frame : Frame} {frames : List Frame} {value result : Json}
      (goesOn : Leads program (go (frame.deliver value :: frames)) result) :
      Leads program (hand value (frame :: frames)) result
  | go {frame : Frame} {frames : List Frame} {value result : Json}
      (computes : Computes program frame.locals frame.rest value)
      (goesOn : Leads program (hand value frames) result) :
      Leads program (go (frame :: frames)) result

inductive Resolves (program : Program) : Strategy → List Birth → Json → Prop
  | single {birth : Birth} {births : List Birth} {value : Json} (first : births.head? = some birth)
      (yields : program.Yields birth.target birth.args value) : Resolves program .single births value
  | all {births : List Birth} {values : List Json}
      (yield : List.Forall₂ (fun birth value => program.Yields birth.target birth.args value)
        births values) : Resolves program .all births (.arr values)
  | race {birth : Birth} {births : List Birth} {value : Json} (member : birth ∈ births)
      (yields : program.Yields birth.target birth.args value) : Resolves program .race births value

theorem Config.Leads.of_hand (leads : Config.Leads program (.hand value (frame :: frames)) result) :
    ∃ last, Computes program (store frame.pendingBind value frame.locals) frame.rest last ∧
      Config.Leads program (.hand last frames) result := by
  cases leads with
  | deliver goesOn =>
      cases goesOn with
      | @go _ _ last _ computes goesOn =>
          refine ⟨last, ?_, goesOn⟩
          unfold Frame.deliver at computes
          unfold store
          cases pending : frame.pendingBind with
          | none => simpa only [pending] using computes
          | some name => simpa only [pending] using computes

theorem answers_of_evaluate {call : Call} {target : Target} {args : List Json}
    (evaluated : program.evaluate locals call = .ok (target, args))
    (yields : program.Yields target args value) : Answers program locals call value :=
  have ⟨substituted, reached⟩ := evaluate_eq_ok.1 evaluated
  .intro substituted reached yields

theorem computes_await {awaited : Await} {found : List (Target × List Json)}
    (shapely : awaited.isShapely = true)
    (evaluated : List.Forall₂ (fun call one => program.evaluate locals call = .ok one)
      awaited.calls found)
    (resolves : Resolves program awaited.strategy
      (found.map fun (target, args) => ⟨target, args, tick⟩) value)
    (goesOn : Computes program (store awaited.bind value locals) body result) :
    Computes program locals (.await awaited :: body) result := by
  obtain ⟨strategy, calls, bind⟩ := awaited
  simp only at evaluated resolves goesOn
  cases resolves with
  | single first yields =>
      obtain ⟨call, rfl⟩ : ∃ call, calls = [call] := by
        simpa [Await.isShapely, List.length_eq_one_iff] using shapely
      obtain ⟨one, found', here, nothing, rfl⟩ := List.forall₂_cons_left_iff.1 evaluated
      obtain rfl := Option.some.inj first
      exact .single (answers_of_evaluate here yields) goesOn
  | @all _ values yield =>
      refine .all ?_ goesOn
      clear goesOn shapely
      induction evaluated generalizing values with
      | nil =>
          cases yield
          exact .nil
      | cons here rest ih =>
          cases yield with
          | cons first yield => exact .cons (answers_of_evaluate here first) (ih yield)
  | @race birth _ _ member yields =>
      obtain ⟨one, known, rfl⟩ := List.mem_map.1 member
      obtain ⟨call, listed, here⟩ := exists_of_forall₂ evaluated known
      exact .race listed (answers_of_evaluate here yields) goesOn

theorem Config.Moves.leads {boundary : Option (Boundary Invocation)}
    (moves : config.Moves program boundary next) (tick : Tick) :
    match boundary with
    | none | some .halt => ∀ result, next.Leads program result → config.Leads program result
    | some (.await request _) => ∃ frames, next = .go frames ∧ ∀ value,
      Resolves program request.strategy (request.recipes.map (Birth.of · tick)) value →
        ∀ result, Config.Leads program (.hand value frames) result → config.Leads program result
    | some (.complete value _) => config.Leads program value := by
  induction moves with
  | enter =>
      intro result leads
      cases leads with
      | go computes goesOn =>
          cases goesOn
          exact .enter (yields_of_frame computes)
  | log takes =>
      intro result leads
      cases takes with
      | log left rested evaluated =>
          cases leads with
          | go computes goesOn =>
              exact .go (computes_of_dropWhile (left ▸ .log evaluated computes)) goesOn
  | call takes =>
      intro result leads
      cases takes with
      | call left rested evaluated =>
          cases leads with
          | go entered goesOn =>
              obtain ⟨last, computes, goesOn⟩ := goesOn.of_hand
              refine .go (computes_of_dropWhile (left ▸ .call ?_ computes)) goesOn
              exact answers_of_evaluate evaluated (yields_of_frame entered)
  | halt takes =>
      intro result leads
      cases takes with
      | wake left =>
          cases leads with
          | go computes goesOn =>
              exact .go (computes_of_dropWhile (left ▸ .sleep computes)) goesOn
      | sleep left unfinished =>
          cases leads with
          | go computes goesOn => exact .go (computes_of_dropWhile (left ▸ computes)) goesOn
  | await takes =>
      cases takes with
      | @await awaited rest found left rested shapely evaluated =>
          refine ⟨_, rfl, fun value resolves result leads => ?_⟩
          have resolves : Resolves program awaited.strategy
              (found.map fun (target, args) => ⟨target, args, tick⟩) value := by
            simpa [Birth.of, Program.recipe, Function.comp_def] using resolves
          obtain ⟨last, computes, goesOn⟩ := leads.of_hand
          have computes := computes_await shapely evaluated resolves computes
          exact .go (computes_of_dropWhile (left ▸ computes)) goesOn
  | unload takes =>
      intro result leads
      cases takes with
      | fall left => exact .go (computes_of_dropWhile (left ▸ .done)) leads
      | ret left rested evaluated => exact .go (computes_of_dropWhile (left ▸ .ret evaluated)) leads
  -- What the stack below comes to is handed to the frame that has called it.
  | @deliver frame frames value boundary next moves ih =>
      cases boundary with
      | none => exact fun result leads => .deliver (ih result leads)
      | some boundary =>
          cases boundary with
          | halt => exact fun result leads => .deliver (ih result leads)
          | await request caller =>
              obtain ⟨frames, same, all⟩ := ih
              exact ⟨frames, same, fun value resolves result leads =>
                .deliver (all value resolves result leads)⟩
          | complete value last => exact .deliver ih
  | complete => exact .out

open FlowTable

def Faithful (program : Program) : Statement := fun birth id phase =>
  match phase with
  | .active flow => ∀ result, (Config.ofFlow flow).Leads program result →
    program.Yields (birth id).target (birth id).args result
  | .suspended flow wait => ∃ frames, Config.ofFlow flow = .go frames ∧ ∀ value,
    Resolves program wait.strategy (wait.dependencies.map birth) value →
      ∀ result, Config.Leads program (.hand value frames) result →
        program.Yields (birth id).target (birth id).args result
  | .completed done => program.Yields (birth id).target (birth id).args done.value
  | .cancelled _ => True

def FaithfulAt (program : Program) (tick : Tick) (born : Birth)
    (boundary : Option (Boundary Invocation)) (flow : Flow Invocation) : Prop :=
  match boundary with
  | none | some .halt => ∀ result, (Config.ofFlow flow).Leads program result →
    program.Yields born.target born.args result
  | some (.await request _) => ∃ frames, Config.ofFlow flow = .go frames ∧ ∀ value,
    Resolves program request.strategy (request.recipes.map (Birth.of · tick)) value →
      ∀ result, Config.Leads program (.hand value frames) result →
        program.Yields born.target born.args result
  | some (.complete value _) => program.Yields born.target born.args value

theorem FaithfulAt.step {born : Birth} {flow later : Flow Invocation}
    {boundary : Option (Boundary Invocation)} (faithful : FaithfulAt program tick born none flow)
    (moves : (Config.ofFlow flow).Moves program boundary (Config.ofFlow later)) :
    FaithfulAt program tick born boundary later := by
  have leads := moves.leads tick
  cases boundary with
  | none => exact fun result after => faithful result (leads result after)
  | some boundary =>
      cases boundary with
      | halt => exact fun result after => faithful result (leads result after)
      | await request caller =>
          obtain ⟨frames, same, all⟩ := leads
          exact ⟨frames, same, fun value resolves result after =>
            faithful result (all value resolves result after)⟩
      | complete value last => exact faithful value leads

theorem resolves_of_outcome {table : FlowTable Invocation} {birth : FlowId → Birth} {wait : Wait}
    {released : List Released} (outcome : table.outcome? wait = some (value, released))
    (completed : ∀ id done, table.completed? id = some done →
      program.Yields (birth id).target (birth id).args done.value) :
    Resolves program wait.strategy (wait.dependencies.map birth) value := by
  cases resolves_of_outcome? outcome with
  | single kind only finished =>
      rw [kind]
      exact .single (by simp [only]) (completed _ _ finished)
  | all kind collected =>
      rw [kind]
      refine .all (List.forall₂_map_left_iff.2 (List.forall₂_map_right_iff.2 ?_))
      refine collected.imp fun id one found => ?_
      obtain ⟨done, finished, rfl⟩ := released?_eq_some found
      exact completed id done finished
  | race kind first =>
      obtain ⟨⟨place, listed, finished⟩, -⟩ := firstCompleted?_eq_some first
      rw [kind]
      exact .race (List.mem_map_of_mem listed) (completed place _ finished)

theorem Faithful.settle {birth : FlowId → Birth} {table after : FlowTable Invocation}
    (settled : Settled table tick after)
    (faithful : ∀ id phase, table.find? id = some phase → Faithful program birth id phase)
    (id : FlowId) (phase : Phase Invocation) (found : after.find? id = some phase) :
    Faithful program birth id phase := by
  refine settled.forall_phases faithful (fun _ _ _ _ _ => trivial)
    (fun id flow wait value released stack earlier outcome pushed _ => ?_) id phase found
  obtain ⟨frames, waits, all⟩ := faithful id _ earlier
  intro result leads
  rw [ofFlow_resumed waits pushed] at leads
  refine all _ (resolves_of_outcome outcome fun other done finished => ?_) result leads
  exact faithful other _ (completed?_eq_some.1 finished)

def meaning (program : Program) (tick : Tick) : Account program tick where
  holds _ := Faithful program
  drives := FaithfulAt program tick
  breaks := Faithful program
  congr {birth birth' _ id phase} same children faithful := by
    cases phase with
    | active flow => simpa only [Faithful, same] using faithful
    | suspended flow wait =>
        have births : wait.dependencies.map birth' = wait.dependencies.map birth :=
          List.map_congr_left children
        simpa only [Faithful, same, births] using faithful
    | completed done => simpa only [Faithful, same] using faithful
    | cancelled gone => trivial
  spawn {birth id recipe} caller isDependency born := by
    intro result leads
    rw [born]
    cases leads with
    | enter yields => exact yields
  pass _ _ faithful := faithful
  turn _ faithful := faithful
  step := FaithfulAt.step
  halt faithful := faithful
  await faithful births := by
    obtain ⟨frames, waits, all⟩ := faithful
    exact ⟨frames, waits, births ▸ all⟩
  complete faithful := faithful
  settle _ settled all := Faithful.settle settled fun id phase found => (all id phase found).2
  stop faithful := faithful
  leave faithful := faithful

def chronicle (program : Program) : Chronicle program where
  account := meaning program
  renews _ faithful := faithful

/-- A flow that has completed in a run of the installed scenario has begun with some method and
arguments, and its value is one that the method can return for them. -/
structure KeepsMeaning (scenario : Scenario) (limits : Limits) : Prop where
  begun : ∀ n flow done,
    let installed := scenario.install id (Simulation.withLimits limits)
    (ran installed.simulation n).flows.find? flow = some (.completed done) →
      ∃ target args, Began installed.simulation n flow target args
  yields : ∀ n flow done target args,
    let installed := scenario.install id (Simulation.withLimits limits)
    (ran installed.simulation n).flows.find? flow = some (.completed done) →
      Began installed.simulation n flow target args →
        installed.bundle.program.Yields target args done.value

/-- The methods of a valid scenario compute what they mean, however their flows are interleaved. -/
theorem valid_scenarios_keep_their_meaning {scenario : Scenario} (valid : scenario.isValid = true)
    (limits : Limits) : scenario.KeepsMeaning limits := by
  obtain ⟨-, sound, lineage, holds⟩ := (sound_of_isValid valid).install_spec limits
  have start : Told (chronicle (scenario.install id (Simulation.withLimits limits)).bundle.program).statement
      (scenario.install id (Simulation.withLimits limits)).simulation 0 :=
    (unstepped_install scenario limits).told
  have told (n : Nat) := Chronicle.told (n := n) sound holds start fun k _ => .inr fun _ _ _ faithful => faithful
  constructor
  case begun =>
    intro n flow done installed completed
    obtain ⟨birth, fits⟩ := told n
    exact ⟨_, _, (fits.stems flow _ completed).2⟩
  case yields =>
    intro n flow done target args installed completed began
    obtain ⟨birth, fits⟩ := told n
    obtain ⟨-, rfl, rfl⟩ := fits.known flow target args began
    exact fits.said flow _ completed

theorem race_on_the_clock_keeps_its_meaning :
    let installed := raceOnTheClock.install id (Simulation.withLimits { rounds := 5, steps := 30 })
    raceOnTheClock.isValid = true ∧ raceOnTheClock.KeepsMeaning { rounds := 5, steps := 30 } ∧
      ((ran installed.simulation 5).flows.completed? 1).isSome = true :=
  ⟨by decide, valid_scenarios_keep_their_meaning (by decide) _, by decide +kernel⟩

end Cadence.Scenario
