import Cadence.Proofs.Fields
import Cadence.Proofs.Json.Nested
import Cadence.Proofs.Scenario.Reference
import Mathlib.Data.List.Forall2
/-!
# Substitution

What substitution makes of a value, said without its recursion, and when it fails. References are
collected and replaced by two walks over a value; both visit the same texts in the same order, so
the first name that substitution misses is the first one collected that is not bound.
-/

namespace Cadence.Json

variable {locals : Fields Json} {value result : Json}

/-- The second value is the first one with the values of variables in place of the references. A
value that was put in place of a reference is taken as it is. -/
inductive FilledIn (locals : Fields Json) : Json → Json → Prop where
  | reference {name : String} {value : Json} (bound : locals.find? name = some value) :
      FilledIn locals (.str ("$" ++ name)) value
  | text {text : String} (plain : ∀ name, text ≠ "$" ++ name) :
      FilledIn locals (.str text) (.str text)
  | null : FilledIn locals .null .null
  | bool (value : Bool) : FilledIn locals (.bool value) (.bool value)
  | int (value : Int) : FilledIn locals (.int value) (.int value)
  | decimal (value : Decimal) : FilledIn locals (.decimal value) (.decimal value)
  | arr {items results : List Json} (each : List.Forall₂ (FilledIn locals) items results) :
      FilledIn locals (.arr items) (.arr results)
  | obj {entries results : List (String × Json)}
      (keys : results.map Prod.fst = entries.map Prod.fst)
      (each : List.Forall₂ (FilledIn locals) (entries.map Prod.snd) (results.map Prod.snd)) :
      FilledIn locals (.obj entries) (.obj results)

def firstUnbound? (locals : Fields Json) (value : Json) : Option String :=
  value.references.find? (· ∉ locals.keys)

theorem substituteEntries_eq (entries : List (String × Json)) :
    substituteEntries locals entries =
      (entries.map Prod.fst).zip <$> substituteItems locals (entries.map Prod.snd) := by
  induction entries with
  | nil => rfl
  | cons entry entries ih =>
      obtain ⟨key, value⟩ := entry
      simp only [substituteEntries, List.map_cons, substituteItems, ih]
      cases value.substitute locals with
      | error name => rfl
      | ok result => cases substituteItems locals (entries.map Prod.snd) <;> rfl

/-- Either every reference is filled in, or the outcome is the first name that has no value. -/
def Substitutes (locals : Fields Json) (value : Json) : Prop :=
  (∃ result, value.substitute locals = .ok result ∧ FilledIn locals value result ∧
    value.firstUnbound? locals = none) ∨
  ∃ name, value.substitute locals = .error name ∧ value.firstUnbound? locals = some name

theorem substitutes_text (text : String) : Substitutes locals (.str text) := by
  unfold Substitutes firstUnbound? substitute references
  cases refers : reference? text with
  | none =>
      refine .inl ⟨_, rfl, .text fun name same => ?_, rfl⟩
      cases refers.symm.trans (reference?_eq_some.2 same)
  | some name =>
      obtain rfl := reference?_eq_some.1 refers
      cases found : locals.find? name with
      | none =>
          have unbound : name ∉ locals.keys := by simp [← Fields.find?_isSome_iff, found]
          exact .inr ⟨name, by simp [found], by simp [unbound]⟩
      | some value =>
          have bound : name ∈ locals.keys := by simp [← Fields.find?_isSome_iff, found]
          exact .inl ⟨value, by simp [found], .reference found, by simp [bound]⟩

theorem substitutes_items {items : List Json} (each : ∀ item ∈ items, Substitutes locals item) :
    (∃ results, substituteItems locals items = .ok results ∧
      List.Forall₂ (FilledIn locals) items results ∧
      (items.flatMap references).find? (· ∉ locals.keys) = none) ∨
    ∃ name, substituteItems locals items = .error name ∧
      (items.flatMap references).find? (· ∉ locals.keys) = some name := by
  induction items with
  | nil => exact .inl ⟨[], rfl, .nil, rfl⟩
  | cons item items ih =>
      rw [substituteItems, List.flatMap_cons, List.find?_append]
      obtain ⟨result, done, filled, bound⟩ | ⟨name, failed, first⟩ :=
        each item List.mem_cons_self
      · rw [firstUnbound?] at bound
        rw [done, bound, Option.none_or]
        obtain ⟨results, rest, others, bound⟩ | ⟨name, rest, first⟩ :=
          ih fun other member => each other (List.mem_cons_of_mem _ member)
        · exact .inl ⟨result :: results, by rw [rest]; rfl, .cons filled others, bound⟩
        · exact .inr ⟨name, by rw [rest]; rfl, first⟩
      · rw [firstUnbound?] at first
        exact .inr ⟨name, by rw [failed]; rfl, by rw [first]; rfl⟩

theorem substitutes (locals : Fields Json) (value : Json) : Substitutes locals value := by
  induction value using induct with
  | null => exact .inl ⟨.null, rfl, .null, rfl⟩
  | bool value => exact .inl ⟨.bool value, rfl, .bool value, rfl⟩
  | int value => exact .inl ⟨.int value, rfl, .int value, rfl⟩
  | decimal value => exact .inl ⟨.decimal value, rfl, .decimal value, rfl⟩
  | str text => exact substitutes_text text
  | arr items each =>
      unfold Substitutes firstUnbound?
      rw [substitute, references_arr]
      obtain ⟨results, done, filled, bound⟩ | ⟨name, failed, first⟩ := substitutes_items each
      · exact .inl ⟨.arr results, by rw [done]; rfl, .arr filled, bound⟩
      · exact .inr ⟨name, by rw [failed]; rfl, first⟩
  | obj entries each =>
      unfold Substitutes firstUnbound?
      rw [substitute, substituteEntries_eq, references_obj]
      have values : ∀ item ∈ entries.map Prod.snd, Substitutes locals item := by
        simpa using fun item key member => each (key, item) member
      obtain ⟨results, done, filled, bound⟩ | ⟨name, failed, first⟩ := substitutes_items values
      · have lengths := filled.length_eq
        rw [List.length_map] at lengths
        refine .inl ⟨_, by rw [done]; rfl, .obj ?_ ?_, bound⟩
        · exact List.map_fst_zip (by simp [lengths])
        · rwa [List.map_snd_zip (by simp [lengths])]
      · exact .inr ⟨name, by rw [failed]; rfl, first⟩

theorem substituteItems_of_filledIn {items results : List Json}
    (each : ∀ item ∈ items, ∀ result, FilledIn locals item result →
      item.substitute locals = .ok result)
    (filled : List.Forall₂ (FilledIn locals) items results) :
    substituteItems locals items = .ok results := by
  induction filled with
  | nil => rfl
  | @cons item result items results first _ ih =>
      have head := each item List.mem_cons_self result first
      have tail := ih fun other member => each other (List.mem_cons_of_mem _ member)
      simp [substituteItems, head, tail]
      rfl

theorem substitute_of_filledIn (filled : FilledIn locals value result) :
    value.substitute locals = .ok result := by
  induction value using induct generalizing result with
  | null => cases filled; rfl
  | bool value => cases filled; rfl
  | int value => cases filled; rfl
  | decimal value => cases filled; rfl
  | str text =>
      unfold substitute
      cases filled with
      | @reference name value bound => simp [reference?_eq_some.2 rfl, bound]
      | text plain =>
          have none : reference? text = none :=
            Option.eq_none_iff_forall_ne_some.2 fun name refers =>
              plain name (reference?_eq_some.1 refers)
          simp [none]
  | arr items each =>
      cases filled with
      | arr filled =>
          have done := substituteItems_of_filledIn (fun item member _ => each item member) filled
          rw [substitute, done]
          rfl
  | obj entries each =>
      cases filled with
      | @obj _ results keys filled =>
          have done := substituteItems_of_filledIn (fun item member _ filled => by
            obtain ⟨entry, inside, rfl⟩ := List.mem_map.1 member
            exact each entry inside filled) filled
          rw [substitute, substituteEntries_eq, done, ← keys]
          have together := List.zip_map' (f := Prod.fst) (g := Prod.snd) (l := results)
          simp [together]

theorem substitute_eq_ok : value.substitute locals = .ok result ↔ FilledIn locals value result := by
  refine ⟨fun done => ?_, substitute_of_filledIn⟩
  obtain ⟨other, done', filled, -⟩ | ⟨name, failed, -⟩ := substitutes locals value
  · cases done.symm.trans done'
    exact filled
  · cases done.symm.trans failed

def referencesOf (locals : Fields Json) (name : String) : List String :=
  ((locals.find? name).map references).getD []

theorem references_items {items results : List Json}
    (each : ∀ item ∈ items, ∀ result, FilledIn locals item result →
      result.references = item.references.flatMap (referencesOf locals))
    (filled : List.Forall₂ (FilledIn locals) items results) :
    results.flatMap references = (items.flatMap references).flatMap (referencesOf locals) := by
  induction filled with
  | nil => rfl
  | @cons item result items results first _ ih =>
      rw [List.flatMap_cons, List.flatMap_cons, List.flatMap_append,
        each item List.mem_cons_self result first,
        ih fun other member => each other (List.mem_cons_of_mem _ member)]

theorem references_filledIn (filled : FilledIn locals value result) :
    result.references = value.references.flatMap (referencesOf locals) := by
  induction value using induct generalizing result with
  | null => cases filled; rfl
  | bool value => cases filled; rfl
  | int value => cases filled; rfl
  | decimal value => cases filled; rfl
  | str text =>
      cases filled with
      | @reference name value bound =>
          simp [references, reference?_eq_some.2 rfl, referencesOf, bound]
      | text plain => rw [references_text plain, List.flatMap_nil]
  | arr items each =>
      cases filled with
      | arr filled =>
          rw [references_arr, references_arr]
          exact references_items (fun item member _ => each item member) filled
  | obj entries each =>
      cases filled with
      | @obj _ results keys filled =>
          rw [references_obj, references_obj]
          apply references_items _ filled
          intro item member result
          obtain ⟨entry, inside, rfl⟩ := List.mem_map.1 member
          exact each entry inside

theorem filledIn_self (plain : value.references = []) : FilledIn locals value value := by
  induction value using induct with
  | null => exact .null
  | bool value => exact .bool value
  | int value => exact .int value
  | decimal value => exact .decimal value
  | str text =>
      refine .text fun name same => ?_
      simp [references, reference?_eq_some.2 same] at plain
  | arr items each =>
      rw [references_arr, List.flatMap_eq_nil_iff] at plain
      exact .arr (List.forall₂_same.2 fun item member => each item member (plain item member))
  | obj entries each =>
      rw [references_obj, List.flatMap_eq_nil_iff] at plain
      refine .obj rfl (List.forall₂_same.2 fun item member => ?_)
      obtain ⟨entry, inside, rfl⟩ := List.mem_map.1 member
      exact each entry inside (plain entry.2 member)

theorem exists_substitute_eq_ok :
    (∃ result, value.substitute locals = .ok result) ↔
      ∀ name ∈ value.references, name ∈ locals.keys := by
  have allBound : value.firstUnbound? locals = none ↔
      ∀ name ∈ value.references, name ∈ locals.keys := by
    simp [firstUnbound?]
  rw [← allBound]
  obtain ⟨result, done, -, bound⟩ | ⟨name, failed, first⟩ := substitutes locals value
  · exact ⟨fun _ => bound, fun _ => ⟨result, done⟩⟩
  · simp [failed, first]

theorem exists_substituteItems_eq_ok {items : List Json}
    (bound : ∀ item ∈ items, ∀ name ∈ item.references, name ∈ locals.keys) :
    ∃ results, substituteItems locals items = .ok results := by
  obtain ⟨results, done, -⟩ | ⟨name, -, first⟩ :=
    substitutes_items fun item (_ : item ∈ items) => substitutes locals item
  · exact ⟨results, done⟩
  · obtain ⟨item, member, refers⟩ := List.mem_flatMap.1 (List.mem_of_find?_eq_some first)
    have missing := List.find?_some first
    simp [bound item member name refers] at missing

theorem substitute_message {text : String} :
    (value.substitute locals).mapError unboundMessage = .error text ↔
      ∃ name, value.firstUnbound? locals = some name ∧ text = unboundMessage name := by
  obtain ⟨result, done, -, bound⟩ | ⟨name, failed, first⟩ := substitutes locals value
  · simp [done, bound, Except.mapError]
  · simp [failed, first, Except.mapError, eq_comm]

/-- Substitution succeeds exactly when all the references that are collected are bound, and names
the first one that is not otherwise. The result is the value with the references filled in and
nothing else changed; it refers to what the values refer to that were put in. -/
theorem substitution_follows_references (locals : Fields Json) (value : Json) :
    ((∃ result, value.substitute locals = .ok result) ↔
        ∀ name ∈ value.references, name ∈ locals.keys) ∧
      (∀ text, (value.substitute locals).mapError unboundMessage = .error text ↔
        ∃ name, value.references.find? (· ∉ locals.keys) = some name ∧
          text = "unbound variable '$" ++ name ++ "'") ∧
      (∀ result, value.substitute locals = .ok result ↔ FilledIn locals value result) ∧
      (∀ result, value.substitute locals = .ok result →
        result.references = value.references.flatMap fun name =>
          ((locals.find? name).map references).getD []) ∧
      (value.references = [] → value.substitute locals = .ok value) :=
  ⟨exists_substitute_eq_ok, fun _ => substitute_message, fun _ => substitute_eq_ok,
    fun _ done => references_filledIn (substitute_eq_ok.1 done),
    fun plain => substitute_of_filledIn (filledIn_self plain)⟩

end Cadence.Json
