import Cadence.Flow.Table
/-!
What is found in a table of flows after its phases have been changed.
-/

namespace Cadence.FlowTable

variable {σ : Type} {table : FlowTable σ} {id other : Nat}

theorem active?_eq_some {flow : Flow σ} :
    table.active? id = some flow ↔ table.find? id = some (.active flow) := by
  unfold active?
  split <;> simp_all

theorem suspended?_eq_some {flow : Flow σ} {wait : Wait} :
    table.suspended? id = some (flow, wait) ↔ table.find? id = some (.suspended flow wait) := by
  unfold suspended?
  split <;> simp_all

theorem completed?_eq_some {completion : Completion} :
    table.completed? id = some completion ↔ table.find? id = some (.completed completion) := by
  unfold completed?
  split <;> simp_all

theorem cancelled?_eq_some {cancellation : Cancellation} :
    table.cancelled? id = some cancellation ↔
      table.find? id = some (.cancelled cancellation) := by
  unfold cancelled?
  split <;> simp_all

theorem live?_eq_some {flow : Flow σ} :
    table.live? id = some flow ↔
      table.find? id = some (.active flow) ∨
        ∃ wait, table.find? id = some (.suspended flow wait) := by
  unfold live?
  split <;> simp_all

theorem isLive_iff :
    table.isLive id = true ↔ ∃ flow, table.live? id = some flow :=
  Option.isSome_iff_exists

theorem isLive_of_active {flow : Flow σ} (found : table.find? id = some (.active flow)) :
    table.isLive id = true :=
  isLive_iff.2 ⟨flow, live?_eq_some.2 (.inl found)⟩

theorem isLive_of_suspended {flow : Flow σ} {wait : Wait}
    (found : table.find? id = some (.suspended flow wait)) : table.isLive id = true :=
  isLive_iff.2 ⟨flow, live?_eq_some.2 (.inr ⟨wait, found⟩)⟩

theorem dependencies_of_suspended {flow : Flow σ} {wait : Wait}
    (found : table.find? id = some (.suspended flow wait)) :
    table.dependencies id = wait.dependencies := by
  simp [dependencies, suspended?, found]

theorem suspended_of_mem_dependencies {dependency : FlowId}
    (listed : dependency ∈ table.dependencies id) :
    ∃ flow wait, table.find? id = some (.suspended flow wait) ∧
      dependency ∈ wait.dependencies := by
  unfold dependencies at listed
  cases found : table.suspended? id with
  | none => simp [found] at listed
  | some pair =>
      obtain ⟨flow, wait⟩ := pair
      rw [found] at listed
      exact ⟨flow, wait, suspended?_eq_some.1 found, listed⟩

theorem le_size_of_find? {phase : Phase σ} (found : table.find? id = some phase) :
    0 < id ∧ id ≤ table.phases.size := by
  cases id with
  | zero => simp [find?] at found
  | succ n =>
      have inside : table.phases[n]? ≠ none := fun missing => by simp [find?, missing] at found
      have : n < table.phases.size := by simpa using inside
      omega

theorem le_size_of_isLive (live : table.isLive id = true) : 0 < id ∧ id ≤ table.phases.size := by
  obtain ⟨flow, found⟩ := isLive_iff.1 live
  rcases live?_eq_some.1 found with found | ⟨wait, found⟩
  · exact le_size_of_find? found
  · exact le_size_of_find? found

@[simp] theorem find?_empty : (empty : FlowTable σ).find? id = none := by
  cases id <;> simp [find?, empty]

theorem find?_put_of_ne (table : FlowTable σ) (phase : Option (Phase σ))
    (distinct : other ≠ id) : (table.put id phase).find? other = table.find? other := by
  cases id with
  | zero => rfl
  | succ n =>
      cases other with
      | zero => rfl
      | succ m =>
          have apart : n ≠ m := fun same => distinct (by rw [same])
          simp only [put, find?, Array.getElem?_setIfInBounds_ne apart]

theorem find?_put_self {phase : Option (Phase σ)} {old : Phase σ}
    (found : table.find? id = some old) : (table.put id phase).find? id = phase := by
  have bounds := le_size_of_find? found
  cases id with
  | zero => omega
  | succ n =>
      have inside : n < table.phases.size := by omega
      simp [put, find?, inside]

theorem find?_put {phase : Option (Phase σ)} {old : Phase σ}
    (found : table.find? id = some old) (other : Nat) :
    (table.put id phase).find? other = if other = id then phase else table.find? other := by
  by_cases same : other = id
  · rw [if_pos same, same, find?_put_self found]
  · rw [if_neg same, find?_put_of_ne table phase same]

theorem completed?_put {flow : Flow σ} {phase : Phase σ}
    (active : table.find? id = some (.active flow))
    (unfinished : ∀ completion, phase ≠ .completed completion) (other : Nat) :
    (table.put id (some phase)).completed? other = table.completed? other := by
  unfold completed?
  rw [find?_put active]
  by_cases same : other = id
  · rw [if_pos same, same, active]
    cases phase with
    | completed completion => exact (unfinished completion rfl).elim
    | active => rfl
    | suspended => rfl
    | cancelled => rfl
  · rw [if_neg same]

@[simp] theorem size_put (table : FlowTable σ) (id : Nat) (phase : Option (Phase σ)) :
    (table.put id phase).phases.size = table.phases.size := by
  cases id <;> simp [put]

@[simp] theorem completions_put (table : FlowTable σ) (id : Nat)
    (phase : Option (Phase σ)) : (table.put id phase).completions = table.completions := by
  cases id <;> rfl

theorem find?_create (table : FlowTable σ) (recipe : Recipe σ) (caller : Option Address)
    (isDependency : Bool) (tick : Tick) (other : Nat) :
    (table.create recipe caller isDependency tick).2.find? other =
      if other = table.phases.size + 1 then
        some (.active (Flow.ofRecipe other recipe caller isDependency tick))
      else table.find? other := by
  cases other with
  | zero => rfl
  | succ n =>
      by_cases last : n = table.phases.size
      · simp [create, find?, last]
      · simp [create, find?, last, Array.getElem?_push]

theorem find?_eq_none_of_size_lt (beyond : table.phases.size < id) : table.find? id = none := by
  cases found : table.find? id with
  | none => rfl
  | some phase =>
      have bounds := le_size_of_find? found
      omega

theorem completed?_create (table : FlowTable σ) (recipe : Recipe σ) (caller : Option Address)
    (isDependency : Bool) (tick : Tick) (other : Nat) :
    (table.create recipe caller isDependency tick).2.completed? other =
      table.completed? other := by
  unfold completed?
  rw [find?_create]
  by_cases new : other = table.phases.size + 1
  · rw [if_pos new, find?_eq_none_of_size_lt (by omega)]
  · rw [if_neg new]

private theorem collect_go {α : Type} (view : FlowId → Phase σ → Option α) (n : Nat) (found : List α) :
    collect.go table view n found =
      (List.range' 1 n).filterMap (fun id : Nat => (table.find? id).bind (view id)) ++ found := by
  induction n generalizing found with
  | zero => rfl
  | succ n ih =>
      have place : table.find? (1 + n) = table.phases[n]?.join := by rw [Nat.add_comm]; rfl
      rw [List.range'_1_concat, List.filterMap_append, List.append_assoc, List.filterMap_cons, place]
      unfold collect.go
      cases present : table.phases[n]? with
      | none => simp [ih]
      | some phase? =>
          cases phase? with
          | none => simp [ih]
          | some phase =>
              cases seen : view (n + 1) phase with
              | none => simp [ih, Nat.add_comm 1 n, seen]
              | some a => simp [ih, Nat.add_comm 1 n, seen]

theorem collect_eq {α : Type} (table : FlowTable σ) (view : FlowId → Phase σ → Option α) :
    table.collect view =
      (List.range' 1 table.phases.size).filterMap fun id => (table.find? id).bind (view id) := by
  rw [collect, collect_go, List.append_nil]

theorem mem_collect {α : Type} {view : FlowId → Phase σ → Option α} {a : α} :
    a ∈ table.collect view ↔
      ∃ (id : Nat) (phase : Phase σ), table.find? id = some phase ∧ view id phase = some a := by
  simp only [collect_eq, List.mem_filterMap, Option.bind_eq_some_iff, List.mem_range'_1]
  constructor
  · rintro ⟨id, -, phase, found, seen⟩
    exact ⟨id, phase, found, seen⟩
  · rintro ⟨id, phase, found, seen⟩
    have bounds := le_size_of_find? found
    exact ⟨id, by omega, phase, found, seen⟩

theorem mem_activations {id activation : Nat} : (id, activation) ∈ table.activations ↔
    ∃ flow, table.find? id = some (.active flow) ∧ flow.activation = activation := by
  unfold activations
  rw [mem_collect]
  constructor
  · rintro ⟨id', phase, found, seen⟩
    cases phase with
    | active flow =>
        obtain ⟨rfl, rfl⟩ : id' = id ∧ flow.activation = activation := by simpa using seen
        exact ⟨flow, found, rfl⟩
    | suspended => simp at seen
    | completed => simp at seen
    | cancelled => simp at seen
  · rintro ⟨flow, found, rfl⟩
    exact ⟨id, _, found, rfl⟩

theorem sorted_collect {α : Type} {view : FlowId → Phase σ → Option α} {key : α → Nat}
    (keyed : ∀ id phase a, view id phase = some a → key a = id) :
    ((table.collect view).map key).Pairwise (· < ·) := by
  rw [collect_eq, List.map_filterMap]
  have ordered : (List.range' 1 table.phases.size).Pairwise (· < ·) := List.pairwise_lt_range'
  refine List.Pairwise.filterMap _ (fun id id' earlier m seen m' seen' => ?_) ordered
  have same (id m : Nat) (kept : ((table.find? id).bind (view id)).map key = some m) : m = id := by
    obtain ⟨a, seen, rfl⟩ := Option.map_eq_some_iff.1 kept
    obtain ⟨phase, -, seen⟩ := Option.bind_eq_some_iff.1 seen
    exact keyed id phase a seen
  rw [same id m seen, same id' m' seen']
  exact earlier

theorem sorted_activations (table : FlowTable σ) :
    (table.activations.map Prod.fst).Pairwise (· < ·) := by
  refine sorted_collect fun id phase key seen => ?_
  cases phase with
  | active flow =>
      obtain rfl : (id, flow.activation) = key := by simpa using seen
      rfl
  | suspended => simp at seen
  | completed => simp at seen
  | cancelled => simp at seen

end Cadence.FlowTable
