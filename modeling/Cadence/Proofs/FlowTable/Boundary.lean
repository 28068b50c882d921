import Cadence.Proofs.FlowTable.Pruning
/-!
The table of flows right after a flow has begun to wait or has completed, before any wait is
settled. Whatever happens to a table, its flows never go back to an earlier activation.
-/

namespace Cadence

namespace FlowTable

variable {σ : Type} {table : FlowTable σ} {id other : Nat} {flow old : Flow σ} {tick : Tick}
  {request : Request σ} {caller : Address}

theorem put_put (table : FlowTable σ) (id : Nat) (phase phase' : Option (Phase σ)) :
    (table.put id phase).put id phase' = table.put id phase' := by
  cases id with
  | zero => rfl
  | succ n => simp [put]

theorem createAll_forall₂ (caller : Option Address) (isDependency : Bool) (tick : Tick)
    (recipes : List (Recipe σ)) (table : FlowTable σ) :
    let made := createAll caller isDependency tick recipes table
    List.Forall₂ (fun id recipe => table.phases.size < id ∧
      made.2.find? id = some (.active (Flow.ofRecipe id recipe caller isDependency tick)))
      made.1 recipes := by
  induction recipes generalizing table with
  | nil => exact .nil
  | cons recipe recipes ih =>
      have grown : (table.create recipe caller isDependency tick).2.phases.size =
          table.phases.size + 1 := by simp [create]
      obtain ⟨-, -, old, -⟩ := createAll_spec caller isDependency tick recipes
        (table.create recipe caller isDependency tick).2
      have later := ih (table.create recipe caller isDependency tick).2
      rw [grown] at old later
      refine .cons ⟨by simp, ?_⟩ (later.imp fun id recipe new => ⟨by omega, new.2⟩)
      exact (old _ (Nat.le_refl _)).trans ((find?_create ..).trans (if_pos rfl))

def awaiting (table : FlowTable σ) (id : Nat) (flow : Flow σ) (request : Request σ)
    (caller : Address) (tick : Tick) : FlowTable σ :=
  let made := createAll (some caller) request.isDependency tick request.recipes
    (table.put id (some (.active flow)))
  made.2.put id (some (.suspended flow
    ⟨request.strategy, caller, request.isDependency, made.1, tick⟩))

def completing (table : FlowTable σ) (id : Nat) (done : Completion) : FlowTable σ :=
  { table.put id (some (.completed done)) with completions := table.completions + 1 }

theorem find?_completing (found : table.find? id = some (.active old)) (done : Completion)
    (other : Nat) : (table.completing id done).find? other =
      if other = id then some (.completed done) else table.find? other :=
  find?_put found other

theorem completing_put (table : FlowTable σ) (id : Nat) (phase : Option (Phase σ))
    (done : Completion) : (table.put id phase).completing id done = table.completing id done := by
  simp [completing, put_put]

theorem complete_of_active (active : table.find? id = some (.active flow)) (value : Json)
    (last : Option Address) (tick : Tick) :
    complete id value last tick table = resolve tick (table.completing id
      ⟨id, flow.name, value, last, flow.spawnedAt, tick, table.completions + 1⟩) := by
  unfold complete
  rw [active?_eq_some.2 active]
  simp only [completing, completions_put]

theorem awaiting_spec (found : table.find? id = some (.active old)) (flow : Flow σ)
    (request : Request σ) (caller : Address) (tick : Tick) :
    (table.awaiting id flow request caller tick).phases.size =
        table.phases.size + request.recipes.length ∧
      (∀ other : Nat, other ≠ id → other ≤ table.phases.size →
        (table.awaiting id flow request caller tick).find? other = table.find? other) ∧
      (∀ (other : Nat) phase, table.phases.size < other →
        (table.awaiting id flow request caller tick).find? other = some phase →
          ∃ recipe ∈ request.recipes, phase =
            .active (Flow.ofRecipe other recipe (some caller) request.isDependency tick)) ∧
      ∃ ids, (table.awaiting id flow request caller tick).find? id = some (.suspended flow
          ⟨request.strategy, caller, request.isDependency, ids, tick⟩) ∧
        List.Forall₂ (fun other recipe => table.phases.size < other ∧
          (table.awaiting id flow request caller tick).find? other =
            some (.active (Flow.ofRecipe other recipe (some caller) request.isDependency tick)))
          ids request.recipes := by
  have bounds := le_size_of_find? found
  have active : (table.put id (some (.active flow))).find? id = some (.active flow) :=
    find?_put_self found
  obtain ⟨size, -, old, -⟩ := createAll_spec (some caller) request.isDependency tick
    request.recipes (table.put id (some (.active flow)))
  have made := createAll_forall₂ (some caller) request.isDependency tick request.recipes
    (table.put id (some (.active flow)))
  rw [size_put] at size old made
  have active' := (old id bounds.2).trans active
  refine ⟨by simpa [awaiting] using size, fun other distinct inside => ?_,
    fun other phase beyond known => ?_, _, find?_put_self active', made.imp fun other recipe new => ?_⟩
  · exact (find?_put_of_ne _ _ distinct).trans ((old other inside).trans (find?_put_of_ne _ _ distinct))
  · have distinct : other ≠ id := by omega
    rcases find?_createAll ((find?_put_of_ne _ _ distinct).symm.trans known) with known | made
    · rw [find?_put_of_ne _ _ distinct, find?_eq_none_of_size_lt beyond] at known
      cases known
    · exact made
  · have distinct : other ≠ id := by omega
    exact ⟨new.1, (find?_put_of_ne _ _ distinct).trans new.2⟩

theorem awaiting_cases (found : table.find? id = some (.active old)) (flow : Flow σ)
    (request : Request σ) (caller : Address) (tick : Tick) (other : Nat) :
    (other = id ∧ ∃ wait, (table.awaiting id flow request caller tick).find? other =
        some (.suspended flow wait)) ∨
      (other ≠ id ∧
        (table.awaiting id flow request caller tick).find? other = table.find? other) ∨
      table.find? other = none ∧ ∃ recipe, (table.awaiting id flow request caller tick).find? other =
        some (.active (Flow.ofRecipe other recipe (some caller) request.isDependency tick)) := by
  obtain ⟨-, others, fresh, ids, here, -⟩ := awaiting_spec found flow request caller tick
  by_cases same : other = id
  · exact .inl ⟨same, _, (congrArg _ same).trans here⟩
  · by_cases inside : other ≤ table.phases.size
    · exact .inr (.inl ⟨same, others other same inside⟩)
    · have absent : table.find? other = none := find?_eq_none_of_size_lt (by omega)
      cases known : (table.awaiting id flow request caller tick).find? other with
      | none => exact .inr (.inl ⟨same, absent.symm⟩)
      | some phase =>
          obtain ⟨recipe, -, rfl⟩ := fresh other _ (by omega) known
          exact .inr (.inr ⟨absent, recipe, rfl⟩)

theorem completions_createAll (caller : Option Address) (isDependency : Bool) (tick : Tick)
    (recipes : List (Recipe σ)) (table : FlowTable σ) :
    (createAll caller isDependency tick recipes table).2.completions = table.completions := by
  induction recipes generalizing table with
  | nil => rfl
  | cons recipe recipes ih => exact ih _

theorem completions_awaiting (table : FlowTable σ) (id : Nat) (flow : Flow σ) (request : Request σ)
    (caller : Address) (tick : Tick) :
    (table.awaiting id flow request caller tick).completions = table.completions := by
  simp [awaiting, completions_createAll]

theorem suspended_awaiting (found : table.find? id = some (.active old)) {flow' : Flow σ} {wait : Wait}
    (waits : (table.awaiting id flow request caller tick).find? other = some (.suspended flow' wait)) :
    (other = id ∧ wait.submittedAt = tick ∧ ∀ child : Nat, child ∈ wait.dependencies →
        table.phases.size < child ∧ child ≤ table.phases.size + request.recipes.length ∧
          ∃ young, (table.awaiting id flow request caller tick).find? child = some (.active young)) ∨
      table.find? other = some (.suspended flow' wait) := by
  obtain ⟨size, others, fresh, ids, here, made⟩ := awaiting_spec found flow request caller tick
  by_cases same : other = id
  · rw [same, here] at waits
    obtain ⟨-, rfl⟩ := Phase.suspended.inj (Option.some.inj waits)
    have new : ∀ child ∈ ids, table.phases.size < child ∧ ∃ young,
        (table.awaiting id flow request caller tick).find? child = some (.active young) := by
      have each := made.imp fun child recipe created =>
        And.intro (show table.phases.size < child ∧ ∃ young,
          (table.awaiting id flow request caller tick).find? child = some (.active young) from
            ⟨created.1, _, created.2⟩) trivial
      exact ((List.forall₂_and_left _ _).1 each).1
    refine .inl ⟨same, rfl, fun child member => ?_⟩
    obtain ⟨beyond, young, active⟩ := new child member
    exact ⟨beyond, size ▸ (le_size_of_find? active).2, young, active⟩
  · by_cases inside : other ≤ table.phases.size
    · rw [others other same inside] at waits
      exact .inr waits
    · obtain ⟨recipe, -, active⟩ := fresh other _ (by omega) waits
      cases active

theorem completed?_awaiting (found : table.find? id = some (.active old)) (flow : Flow σ)
    (request : Request σ) (caller : Address) (tick : Tick) (other : Nat) :
    (table.awaiting id flow request caller tick).completed? other = table.completed? other := by
  unfold completed?
  rcases awaiting_cases found flow request caller tick other with
    ⟨rfl, wait, here⟩ | ⟨-, same⟩ | ⟨absent, recipe, new⟩
  · rw [here, found]
  · rw [same]
  · rw [absent, new]

theorem completed?_completing (found : table.find? id = some (.active old)) (done : Completion)
    {other : Nat} (distinct : other ≠ id) :
    (table.completing id done).completed? other = table.completed? other := by
  simp only [completed?, find?_completing found, if_neg distinct]

variable {after later : FlowTable σ}

structure Ages (table after : FlowTable σ) : Prop where
  size : table.phases.size ≤ after.phases.size
  live : ∀ (id : Nat) flow, id ≤ table.phases.size → after.live? id = some flow →
    ∃ old, table.live? id = some old ∧ old.activation ≤ flow.activation

theorem Ages.trans (ages : table.Ages after) (ages' : after.Ages later) : table.Ages later where
  size := Nat.le_trans ages.size ages'.size
  live id flow inside live := by
    obtain ⟨middle, live, less⟩ := ages'.live id flow (Nat.le_trans inside ages.size) live
    obtain ⟨old, live, less'⟩ := ages.live id middle inside live
    exact ⟨old, live, Nat.le_trans less' less⟩

theorem Settled.ages (settled : Settled table tick after) : table.Ages after where
  size := Nat.le_of_eq settled.size.symm
  live id flow inside live := by
    obtain ⟨old, lived, same | ⟨stack, resumption, -, -, rfl⟩⟩ := settled.of_live live
    · exact ⟨old, lived, same ▸ Nat.le_refl _⟩
    · exact ⟨old, lived, Nat.le_succ _⟩

theorem ages_create (table : FlowTable σ) (recipe : Recipe σ) (caller : Option Address)
    (isDependency : Bool) (tick : Tick) :
    table.Ages (table.create recipe caller isDependency tick).2 where
  size := by simp [create]
  live id flow inside live := by
    refine ⟨flow, ?_, Nat.le_refl _⟩
    unfold live? at live ⊢
    rwa [find?_create, if_neg (by omega)] at live

theorem ages_put (found : table.find? id = some (.active old)) {phase : Phase σ}
    (same : ∀ flow, phase = .active flow ∨ (∃ wait, phase = .suspended flow wait) →
      flow.activation = old.activation) : table.Ages (table.put id (some phase)) where
  size := by simp
  live other flow inside live := by
    by_cases here : other = id
    · subst here
      refine ⟨old, live?_eq_some.2 (.inl found), ?_⟩
      rw [live?_eq_some, find?_put_self found] at live
      refine Nat.le_of_eq (same flow ?_).symm
      exact live.imp Option.some.inj fun ⟨wait, found⟩ => ⟨wait, Option.some.inj found⟩
    · refine ⟨flow, ?_, Nat.le_refl _⟩
      simpa only [live?, find?_put_of_ne table _ here] using live

theorem ages_awaiting (found : table.find? id = some (.active old))
    (same : flow.activation = old.activation) (request : Request σ) (caller : Address) (tick : Tick) :
    table.Ages (table.awaiting id flow request caller tick) := by
  obtain ⟨size, others, -, ids, waits, -⟩ := awaiting_spec found flow request caller tick
  refine ⟨by omega, fun other later inside live => ?_⟩
  by_cases here : other = id
  · subst here
    refine ⟨old, live?_eq_some.2 (.inl found), ?_⟩
    obtain rfl : flow = later := by simpa [live?, waits] using live
    exact Nat.le_of_eq same.symm
  · refine ⟨later, ?_, Nat.le_refl _⟩
    simpa only [live?, others other here inside] using live

theorem ages_completing (found : table.find? id = some (.active old)) (done : Completion) :
    table.Ages (table.completing id done) := by
  have ages : table.Ages (table.put id (some (.completed done))) := ages_put found (by simp)
  exact ⟨ages.size, ages.live⟩

end FlowTable

end Cadence
