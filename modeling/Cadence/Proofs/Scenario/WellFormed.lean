import Cadence.Proofs.Json.Nested
import Cadence.Proofs.Scenario.Reference
import Cadence.Proofs.Scenario.Scope
import Mathlib.Data.List.Nodup
/-!
# Well-formed scenarios

What a document has to look like, said without the order in which it is checked: a condition on
every call, await and reference in it. Validation finds no error in exactly these documents.
-/

namespace Cadence

/-- The value holds the text of a dollar sign and the name, at any depth. -/
inductive Json.Mentions (name : String) : Json → Prop where
  | text : Mentions name (.str ("$" ++ name))
  | item {items : List Json} {item : Json} (member : item ∈ items)
      (inside : Mentions name item) : Mentions name (.arr items)
  | entry {entries : List (String × Json)} {key : String} {value : Json}
      (member : (key, value) ∈ entries) (inside : Mentions name value) :
      Mentions name (.obj entries)

namespace Json

theorem mem_references {name : String} {value : Json} :
    name ∈ value.references ↔ value.Mentions name := by
  constructor
  · intro member
    induction value using induct with
    | null => simp [references] at member
    | bool value => simp [references] at member
    | int value => simp [references] at member
    | decimal value => simp [references] at member
    | str text =>
        have refers : reference? text = some name := by simpa [references] using member
        rw [reference?_eq_some.1 refers]
        exact .text
    | arr items each =>
        rw [references_arr] at member
        obtain ⟨item, inside, refers⟩ := List.mem_flatMap.1 member
        exact .item inside (each item inside refers)
    | obj entries each =>
        rw [references_obj, List.flatMap_map] at member
        obtain ⟨⟨key, item⟩, inside, refers⟩ := List.mem_flatMap.1 member
        exact .entry inside (each (key, item) inside refers)
  · intro mentions
    induction mentions with
    | text => simp [references, reference?_eq_some.2]
    | item member _ ih =>
        rw [references_arr]
        exact List.mem_flatMap.2 ⟨_, member, ih⟩
    | entry member _ ih =>
        rw [references_obj, List.flatMap_map]
        exact List.mem_flatMap.2 ⟨_, member, ih⟩

end Json

namespace Scenario

def Instruction.values : Instruction → List Json
  | log value | ret value => [value]
  | sleep _ => []
  | call made => made.args
  | await awaited => awaited.calls.flatMap Call.args

/-- After the instruction the variable has a value. Of an await only its own name counts, not those
of the calls inside it. -/
inductive Instruction.Binds (name : String) : Instruction → Prop where
  | call {made : Call} (named : made.bind = some name) : Binds name (.call made)
  | await {awaited : Await} (named : awaited.bind = some name) : Binds name (.await awaited)

/-- Every variable that a body mentions is one of the names in `given`, or bound by an earlier
instruction. -/
def BindsBefore (given : List String) (body : List Instruction) : Prop :=
  ∀ before instruction after, body = before ++ instruction :: after →
    ∀ value ∈ instruction.values, ∀ name, value.Mentions name →
      name ∈ given ∨ ∃ earlier ∈ before, earlier.Binds name

structure Await.WellFormed (awaited : Await) : Prop where
  single : awaited.strategy = .single → awaited.calls.length = 1
  race : awaited.strategy = .race → 1 ≤ awaited.calls.length

def instructions (scenario : Scenario) : List Instruction :=
  scenario.services.flatMap fun service => service.methods.flatMap Method.body

def launched (scenario : Scenario) : List Call :=
  scenario.entry ++ scenario.timers.map Timer.call ++ scenario.intervals.map Interval.call

def Declares (scenario : Scenario) (call : Call) : Prop :=
  ∃ service ∈ scenario.services, service.name = call.service ∧
    ∃ method ∈ service.methods, method.name = call.method

structure WellFormed (scenario : Scenario) : Prop where
  populated : scenario.services ≠ []
  named : ∀ service ∈ scenario.services, ∃ c ∈ service.name.toList, isBlank c = false
  services : (scenario.services.map Service.name).Nodup
  methods : ∀ service ∈ scenario.services, (service.methods.map Method.name).Nodup
  calls : ∀ call ∈ scenario.instructions.flatMap Instruction.calls ++ scenario.launched,
    scenario.Declares call
  awaits : ∀ awaited, .await awaited ∈ scenario.instructions → awaited.WellFormed
  references : ∀ service ∈ scenario.services, ∀ method ∈ service.methods,
    BindsBefore (service.fields.keys ++ method.params) method.body
  constants : ∀ call ∈ scenario.launched, ∀ arg ∈ call.args, ∀ name, ¬ arg.Mentions name
  effects : ∀ effect ∈ scenario.effects, ∀ node ∈ effect.nodes,
    ∃ service ∈ scenario.services, ∃ method ∈ service.methods,
      node = service.name ++ "." ++ method.name

variable {reaches : Call → Prop} {bound : List String}

theorem Instruction.mem_bind? {instruction : Instruction} {name : String} :
    name ∈ instruction.bind?.toList ↔ instruction.Binds name := by
  rw [Option.mem_toList]
  constructor
  · intro binds
    cases instruction with
    | call made => exact .call binds
    | await awaited => exact .await binds
    | log value => cases binds
    | sleep ticks => cases binds
    | ret value => cases binds
  · intro binds
    cases binds with
    | call named => exact named
    | await named => exact named

theorem Await.wellFormed_iff {awaited : Await} : awaited.WellFormed ↔ awaited.isShapely = true := by
  constructor
  · intro good
    unfold isShapely
    cases strategy : awaited.strategy with
    | single => simpa using good.single strategy
    | race =>
        have some := good.race strategy
        exact decide_eq_true (Nat.ne_of_gt some)
    | all => rfl
  · intro shapely
    unfold isShapely at shapely
    constructor
    · intro single
      simpa [single] using shapely
    · intro race
      exact Nat.pos_of_ne_zero (by simpa [race] using shapely)

theorem Instruction.scoped_iff {instruction : Instruction} :
    instruction.Scoped reaches bound ↔ (∀ call ∈ instruction.calls, reaches call) ∧
      (∀ awaited, instruction = .await awaited → awaited.WellFormed) ∧
      ∀ value ∈ instruction.values, ∀ name, value.Mentions name → name ∈ bound := by
  simp only [← Json.mem_references]
  cases instruction with
  | log value => simp [Scoped, calls, values]
  | ret value => simp [Scoped, calls, values]
  | sleep ticks => simp [Scoped, calls, values]
  | call made =>
      simp only [calls, values, List.mem_singleton, forall_eq, reduceCtorEq, IsEmpty.forall_iff,
        implies_true, true_and]
      exact ⟨fun scope => ⟨scope.reached, scope.args⟩, fun scope => ⟨scope.1, scope.2⟩⟩
  | await awaited =>
      simp only [Scoped, calls, values, await.injEq, forall_eq', Await.wellFormed_iff]
      constructor
      · intro scope
        obtain ⟨shapely, scope⟩ := scope
        refine ⟨fun made member => (scope made member).reached, shapely, ?_⟩
        intro value member
        obtain ⟨made, inside, arg⟩ := List.mem_flatMap.1 member
        exact (scope made inside).args value arg
      · intro scope
        obtain ⟨reached, shapely, args⟩ := scope
        refine ⟨shapely, fun made member => ⟨reached made member, ?_⟩⟩
        intro arg inside
        exact args arg (List.mem_flatMap.2 ⟨made, member, inside⟩)

theorem bindsBefore_nil : BindsBefore bound [] := by
  intro before instruction after split
  simp at split

theorem bindsBefore_cons {instruction : Instruction} {rest : List Instruction} :
    BindsBefore bound (instruction :: rest) ↔
      (∀ value ∈ instruction.values, ∀ name, value.Mentions name → name ∈ bound) ∧
      BindsBefore (instruction.bind?.toList ++ bound) rest := by
  constructor
  · intro binds
    constructor
    · intro value member name mentions
      have found := binds [] instruction rest rfl value member name mentions
      simpa using found
    · rintro before other after rfl value member name mentions
      have found := binds (instruction :: before) other after rfl value member name mentions
      simp only [List.mem_append, Instruction.mem_bind?, List.exists_mem_cons_iff] at found ⊢
      tauto
  · rintro ⟨first, later⟩ before other after split value member name mentions
    cases before with
    | nil =>
        obtain ⟨rfl, rfl⟩ := List.cons.inj split
        exact .inl (first value member name mentions)
    | cons head before =>
        obtain ⟨rfl, rfl⟩ := List.cons.inj split
        have found := later before other after rfl value member name mentions
        simp only [List.mem_append, Instruction.mem_bind?, List.exists_mem_cons_iff] at found ⊢
        tauto

theorem scopedBody_iff {body : List Instruction} :
    ScopedBody reaches bound body ↔ (∀ call ∈ body.flatMap Instruction.calls, reaches call) ∧
      (∀ awaited, .await awaited ∈ body → awaited.WellFormed) ∧ BindsBefore bound body := by
  induction body generalizing bound with
  | nil => simp [ScopedBody, bindsBefore_nil]
  | cons instruction rest ih =>
      rw [ScopedBody, ih, Instruction.scoped_iff, bindsBefore_cons]
      simp only [List.flatMap_cons, List.mem_append, List.mem_cons, or_imp, forall_and,
        eq_comm (b := instruction)]
      tauto

variable {scenario : Scenario}

theorem launches_call : scenario.launches.map Launch.call = scenario.launched := by
  have entries : (scenario.entry.zipIdx 1).map Prod.fst = scenario.entry := List.zipIdx_map_fst ..
  simp only [launches, launched, List.map_append, List.map_map, Function.comp_def, Launch.call]
  exact congrArg (· ++ _ ++ _) entries

theorem clean_checkLaunches : Clean (scenario.launches.flatMap scenario.checkLaunch) ↔
    ∀ call ∈ scenario.launched, call.Scoped scenario.Reaches [] := by
  rw [clean_flatMap, ← launches_call, List.forall_mem_map]
  exact forall₂_congr fun launch _ => clean_checkCall

theorem clean_checkEffect {effect : Collapse} : Clean (scenario.checkEffect effect) ↔
    ∀ node ∈ effect.nodes, ∃ service ∈ scenario.services, ∃ method ∈ service.methods,
      node = service.name ++ "." ++ method.name := by
  rw [checkEffect, clean_missing]
  refine forall₂_congr fun node _ => ?_
  simp only [nodes, List.mem_flatMap, List.mem_map, Service.nodeId, eq_comm (a := node)]

theorem find?_of_nodup {α : Type} {key : α → String} {items : List α} {item : α}
    (distinct : (items.map key).Nodup) (member : item ∈ items) :
    items.find? (key · = key item) = some item := by
  obtain ⟨other, found⟩ : ∃ other, items.find? (key · = key item) = some other :=
    Option.isSome_iff_exists.1 (List.find?_isSome.2 ⟨item, member, by simp⟩)
  have same : key other = key item := by simpa using List.find?_some found
  have inside : other ∈ items := List.mem_of_find?_eq_some found
  rw [found, List.inj_on_of_nodup_map distinct inside member same]

theorem reaches_iff {call : Call} (services : (scenario.services.map Service.name).Nodup)
    (methods : ∀ service ∈ scenario.services, (service.methods.map Method.name).Nodup) :
    scenario.Reaches call ↔ scenario.Declares call := by
  constructor
  · rintro ⟨service, method, inService, inMethods⟩
    have named : service.name = call.service := by simpa using List.find?_some inService
    have called : method.name = call.method := by simpa using List.find?_some inMethods
    exact ⟨service, List.mem_of_find?_eq_some inService, named, method,
      List.mem_of_find?_eq_some inMethods, called⟩
  · rintro ⟨service, inService, named, method, inMethods, called⟩
    refine ⟨service, method, ?_, ?_⟩
    · rw [← named]
      exact find?_of_nodup services inService
    · rw [← called]
      exact find?_of_nodup (methods service inService) inMethods

theorem scopedBodies_iff :
    (∀ service ∈ scenario.services, ∀ method ∈ service.methods,
      ScopedBody reaches (service.fields.keys ++ method.params) method.body) ↔
    (∀ call ∈ scenario.instructions.flatMap Instruction.calls, reaches call) ∧
    (∀ awaited, .await awaited ∈ scenario.instructions → awaited.WellFormed) ∧
    ∀ service ∈ scenario.services, ∀ method ∈ service.methods,
      BindsBefore (service.fields.keys ++ method.params) method.body := by
  have inside : ∀ instruction, instruction ∈ scenario.instructions ↔
      ∃ service ∈ scenario.services, ∃ method ∈ service.methods, instruction ∈ method.body := by
    simp [instructions]
  simp only [scopedBody_iff, List.mem_flatMap, inside]
  constructor
  · intro bodies
    refine ⟨?_, ?_, fun service inService method inMethods =>
      (bodies service inService method inMethods).2.2⟩
    · rintro call ⟨instruction, ⟨service, inService, method, inMethods, inBody⟩, made⟩
      exact (bodies service inService method inMethods).1 call ⟨instruction, inBody, made⟩
    · rintro awaited ⟨service, inService, method, inMethods, inBody⟩
      exact (bodies service inService method inMethods).2.1 awaited inBody
  · rintro ⟨calls, awaits, references⟩ service inService method inMethods
    refine ⟨?_, ?_, references service inService method inMethods⟩
    · rintro call ⟨instruction, inBody, made⟩
      exact calls call ⟨instruction, ⟨service, inService, method, inMethods, inBody⟩, made⟩
    · intro awaited inBody
      exact awaits awaited ⟨service, inService, method, inMethods, inBody⟩

theorem scoped_nil_iff {call : Call} : call.Scoped reaches [] ↔
    reaches call ∧ ∀ arg ∈ call.args, ∀ name, ¬ arg.Mentions name := by
  simp only [← Json.mem_references]
  constructor
  · intro scope
    refine ⟨scope.reached, fun arg inside name refers => ?_⟩
    simpa using scope.args arg inside name refers
  · rintro ⟨reached, constant⟩
    exact ⟨reached, fun arg inside name refers => (constant arg inside name refers).elim⟩

/-- Validation accepts exactly the well-formed documents. -/
theorem isValid_iff_wellFormed : scenario.isValid = true ↔ scenario.WellFormed := by
  rw [isValid_iff_clean, clean_findings, clean_checkServices, fresh_nil, clean_checkLaunches, clean_flatMap]
  simp only [clean_checkEffect, scoped_nil_iff]
  constructor
  · rintro ⟨populated, ⟨⟨services, checked⟩, launched⟩, effects⟩
    have methods : ∀ service ∈ scenario.services, (service.methods.map Method.name).Nodup :=
      fun service member => (checked service member).methods
    have declared : ∀ call, scenario.Reaches call → scenario.Declares call :=
      fun call => (reaches_iff services methods).1
    obtain ⟨calls, awaits, references⟩ := scopedBodies_iff.1 fun service member =>
      (checked service member).bodies
    refine ⟨populated, fun service member => (checked service member).named, services, methods, ?_,
      awaits, references, fun call member => (launched call member).2, effects⟩
    intro call member
    cases List.mem_append.1 member with
    | inl made => exact declared call (calls call made)
    | inr started => exact declared call (launched call started).1
  · intro good
    have reached : ∀ call, scenario.Declares call → scenario.Reaches call :=
      fun call => (reaches_iff good.services good.methods).2
    have bodies := scopedBodies_iff.2 ⟨fun call made =>
      reached call (good.calls call (List.mem_append_left _ made)), good.awaits, good.references⟩
    refine ⟨good.populated, ⟨⟨good.services, fun service member =>
      ⟨good.named service member, good.methods service member, bodies service member⟩⟩, ?_⟩,
      good.effects⟩
    intro call started
    exact ⟨reached call (good.calls call (List.mem_append_right _ started)),
      good.constants call started⟩

end Scenario

end Cadence
