import Cadence.Scenario.Validation
import Mathlib.Data.List.Basic
/-!
What validation without an error says about a scenario: every call reaches a method, every await
has the shape of its strategy, and every variable is bound where it is used.
-/

namespace Cadence.Scenario

def Instruction.calls : Instruction → List Call
  | call made => [made]
  | await awaited => awaited.calls
  | _ => []

structure Call.Scoped (reaches : Call → Prop) (bound : List String) (call : Call) : Prop where
  reached : reaches call
  args : ∀ arg ∈ call.args, ∀ name ∈ arg.references, name ∈ bound

def Instruction.Scoped (reaches : Call → Prop) (bound : List String) : Instruction → Prop
  | log value | ret value => ∀ name ∈ value.references, name ∈ bound
  | sleep _ => True
  | call made => made.Scoped reaches bound
  | await awaited =>
    awaited.isShapely = true ∧ ∀ made ∈ awaited.calls, made.Scoped reaches bound

def ScopedBody (reaches : Call → Prop) : List String → List Instruction → Prop
  | _, [] => True
  | bound, instruction :: rest =>
    instruction.Scoped reaches bound ∧ ScopedBody reaches (instruction.bind?.toList ++ bound) rest

variable {reaches reaches' : Call → Prop} {bound bound' : List String}

theorem Call.Scoped.mono {call : Call} (scope : call.Scoped reaches bound)
    (reach : ∀ call, reaches call → reaches' call) (more : bound ⊆ bound') :
    call.Scoped reaches' bound' :=
  ⟨reach call scope.reached, fun arg member name refers => more (scope.args arg member name refers)⟩

theorem Instruction.Scoped.mono {instruction : Instruction}
    (scope : instruction.Scoped reaches bound) (reach : ∀ call, reaches call → reaches' call)
    (more : bound ⊆ bound') : instruction.Scoped reaches' bound' := by
  cases instruction with
  | log value => exact fun name refers => more (scope name refers)
  | ret value => exact fun name refers => more (scope name refers)
  | sleep ticks => trivial
  | call made => exact Call.Scoped.mono scope reach more
  | await awaited => exact ⟨scope.1, fun made member => (scope.2 made member).mono reach more⟩

theorem ScopedBody.mono {body : List Instruction} (scope : ScopedBody reaches bound body)
    (reach : ∀ call, reaches call → reaches' call) (more : bound ⊆ bound') :
    ScopedBody reaches' bound' body := by
  induction body generalizing bound bound' with
  | nil => trivial
  | cons instruction rest ih =>
      have more' : instruction.bind?.toList ++ bound ⊆ instruction.bind?.toList ++ bound' :=
        List.append_subset.2 ⟨List.subset_append_left .., List.subset_append_of_subset_right _ more⟩
      exact ⟨scope.1.mono reach more, ih scope.2 more'⟩

def Clean (found : List Finding) : Prop :=
  found.filterMap Finding.error? = []

theorem clean_append {found more : List Finding} : Clean (found ++ more) ↔ Clean found ∧ Clean more := by
  simp [Clean, List.filterMap_append]

theorem clean_flatMap {α : Type} {items : List α} {check : α → List Finding} :
    Clean (items.flatMap check) ↔ ∀ a ∈ items, Clean (check a) := by
  induction items with
  | nil => simp [Clean]
  | cons a items ih => simp [List.flatMap_cons, clean_append, ih]

theorem clean_warnings (warnings : List Warning) : Clean (warnings.map .warning) := by
  simp [Clean, Finding.error?]

theorem clean_errors {errors : List ValidationError} : Clean (errors.map .error) ↔ errors = [] := by
  cases errors <;> simp [Clean, Finding.error?]

variable {scenario : Scenario} {context : String}

def Reaches (scenario : Scenario) (call : Call) : Prop :=
  ∃ service method, scenario.services.find? (·.name = call.service) = some service ∧
    service.methods.find? (·.name = call.method) = some method

theorem resolve_of_reaches {call : Call} (reaches : scenario.Reaches call) (context : String) :
    ∃ service method, scenario.resolve context call = .ok (service, method) := by
  obtain ⟨service, method, inService, inMethods⟩ := reaches
  exact ⟨service, method, by simp only [resolve, inService, inMethods]⟩

theorem clean_checkTarget {call : Call} :
    Clean (scenario.checkTarget context call) ↔ scenario.Reaches call := by
  unfold checkTarget resolve
  cases inService : scenario.services.find? (·.name = call.service) with
  | none => simp [Clean, Finding.error?, Reaches, inService]
  | some service =>
      cases inMethods : service.methods.find? (·.name = call.method) with
      | none => simp [Clean, Finding.error?, Reaches, inService, inMethods]
      | some method =>
          simp only [inMethods, Reaches, inService]
          exact iff_of_true (clean_warnings _) ⟨service, method, rfl, inMethods⟩

theorem clean_missing {names known : List String} {error : String → ValidationError} :
    Clean ((names.filter (· ∉ known)).map fun name => .error (error name)) ↔
      ∀ name ∈ names, name ∈ known := by
  have errors : ((names.filter (· ∉ known)).map fun name => Finding.error (error name)) =
      ((names.filter (· ∉ known)).map error).map .error := by
    simp [Function.comp_def]
  rw [errors, clean_errors]
  simp

theorem clean_checkBound {value : Json} :
    Clean (checkBound context bound value) ↔ ∀ name ∈ value.references, name ∈ bound :=
  clean_missing

theorem clean_checkCall {call : Call} :
    Clean (scenario.checkCall context bound call) ↔ call.Scoped scenario.Reaches bound := by
  rw [checkCall, clean_append, clean_checkTarget, clean_flatMap]
  simp only [clean_checkBound]
  exact ⟨fun h => ⟨h.1, h.2⟩, fun h => ⟨h.1, h.2⟩⟩

theorem clean_checkInstruction {instruction : Instruction} :
    Clean (scenario.checkInstruction context bound instruction) ↔
      instruction.Scoped scenario.Reaches bound := by
  cases instruction with
  | log value => exact clean_checkBound
  | ret value => exact clean_checkBound
  | sleep ticks => exact iff_of_true rfl trivial
  | call made => exact clean_checkCall
  | await awaited =>
      have calls (made : Call) : Clean (scenario.checkAwaitedCall context bound made) ↔
          made.Scoped scenario.Reaches bound := by
        rw [checkAwaitedCall, clean_append, clean_checkCall]
        cases made.bind <;> simp [Clean, Finding.error?]
      rw [checkInstruction, clean_append, clean_flatMap]
      simp only [calls, Instruction.Scoped]
      refine and_congr_left' ?_
      cases awaited.isShapely <;> simp [Clean, Finding.error?]

theorem clean_checkBody {body : List Instruction} :
    Clean (scenario.checkBody context bound body) ↔ ScopedBody scenario.Reaches bound body := by
  induction body generalizing bound with
  | nil => exact iff_of_true rfl trivial
  | cons instruction rest ih =>
      rw [checkBody, clean_append, clean_checkInstruction, ih]
      rfl

def Fresh (seen names : List String) : Prop :=
  names.Nodup ∧ ∀ name ∈ names, name ∉ seen

theorem fresh_cons {seen names : List String} {name : String} :
    Fresh seen (name :: names) ↔ name ∉ seen ∧ Fresh (name :: seen) names := by
  have apart : name ∉ names ↔ ∀ other ∈ names, other ≠ name :=
    ⟨fun absent other member same => absent (same ▸ member), fun apart member => apart _ member rfl⟩
  rw [Fresh, Fresh, List.nodup_cons, List.forall_mem_cons, apart]
  simp only [List.mem_cons, not_or, forall_and]
  tauto

theorem fresh_nil {names : List String} : Fresh [] names ↔ names.Nodup := by
  simp [Fresh]

variable {seen : List String}

theorem clean_unless {condition : Prop} [Decidable condition] {error : ValidationError} :
    Clean (if condition then [.error error] else []) ↔ ¬ condition := by
  by_cases met : condition
  · simp [met, Clean, Finding.error?]
  · simp [met, Clean]

theorem clean_checkMethods {service : Service} {methods : List Method} :
    Clean (scenario.checkMethods service seen methods) ↔ Fresh seen (methods.map Method.name) ∧
      ∀ method ∈ methods,
        ScopedBody scenario.Reaches (service.fields.keys ++ method.params) method.body := by
  induction methods generalizing seen with
  | nil => simp [checkMethods, Clean, Fresh]
  | cons method methods ih =>
      rw [checkMethods, clean_append, clean_append, clean_unless, checkMethod, clean_checkBody, ih,
        List.map_cons, fresh_cons, List.forall_mem_cons]
      tauto

structure Service.Checked (scenario : Scenario) (service : Service) : Prop where
  named : ∃ c ∈ service.name.toList, isBlank c = false
  methods : (service.methods.map Method.name).Nodup
  bodies : ∀ method ∈ service.methods,
    ScopedBody scenario.Reaches (service.fields.keys ++ method.params) method.body

theorem clean_checkServices {services : List Service} :
    Clean (scenario.checkServices seen services) ↔ Fresh seen (services.map Service.name) ∧
      ∀ service ∈ services, service.Checked scenario := by
  induction services generalizing seen with
  | nil => simp [checkServices, Clean, Fresh]
  | cons service services ih =>
      rw [checkServices, List.forall_mem_cons, List.map_cons, fresh_cons]
      by_cases blank : service.name.toList.all isBlank = true
      · rw [if_pos blank]
        have unnamed : ¬ service.Checked scenario := by
          intro checked
          obtain ⟨c, member, visible⟩ := checked.named
          rw [List.all_eq_true.1 blank c member] at visible
          cases visible
        simp [Clean, Finding.error?, unnamed]
      · rw [if_neg blank, clean_append, clean_append, clean_unless, clean_checkMethods, fresh_nil,
          ih]
        have checked : service.Checked scenario ↔ (service.methods.map Method.name).Nodup ∧
            ∀ method ∈ service.methods,
              ScopedBody scenario.Reaches (service.fields.keys ++ method.params) method.body :=
          ⟨fun checked => ⟨checked.methods, checked.bodies⟩,
            fun rest => ⟨by simpa using blank, rest.1, rest.2⟩⟩
        rw [checked]
        tauto

theorem isValid_iff_clean : scenario.isValid = true ↔ Clean scenario.findings := by
  simp [isValid, errors, Clean]

theorem clean_findings : Clean scenario.findings ↔ scenario.services ≠ [] ∧
    (Clean (scenario.checkServices [] scenario.services) ∧
      Clean (scenario.launches.flatMap scenario.checkLaunch)) ∧
    Clean (scenario.effects.flatMap scenario.checkEffect) := by
  rw [← clean_append, ← clean_append]
  unfold findings
  by_cases empty : scenario.services.isEmpty = true
  · rw [if_pos empty]
    have none : scenario.services = [] := List.isEmpty_iff.1 empty
    simp [Clean, Finding.error?, none]
  · rw [if_neg empty]
    have some : scenario.services ≠ [] := fun none => empty (List.isEmpty_iff.2 none)
    dsimp only
    split
    · have warned : Clean [.warning .nothingRuns] := rfl
      rw [clean_append]
      exact ⟨fun clean => ⟨some, clean.1⟩, fun clean => ⟨clean.2, warned⟩⟩
    · exact ⟨fun clean => ⟨some, clean⟩, fun clean => clean.2⟩

structure Sound (scenario : Scenario) : Prop where
  methods : ∀ service ∈ scenario.services, ∀ method ∈ service.methods,
    ScopedBody scenario.Reaches (service.fields.keys ++ method.params) method.body
  launches : ∀ launch ∈ scenario.launches, launch.call.Scoped scenario.Reaches []

theorem sound_of_isValid (valid : scenario.isValid = true) : scenario.Sound := by
  obtain ⟨-, ⟨services, launches⟩, -⟩ := clean_findings.1 (isValid_iff_clean.1 valid)
  constructor
  · exact fun service member => ((clean_checkServices.1 services).2 service member).bodies
  · exact fun launch member => clean_checkCall.1 (clean_flatMap.1 launches launch member)

end Cadence.Scenario
