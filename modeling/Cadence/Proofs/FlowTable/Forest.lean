import Cadence.Proofs.FlowTable.Resolution
/-!
Where every flow is awaited by the flow that spawned it, the await graph is a forest whose edges
lead to later flows. Settling waits then never fails, and leaves such a forest behind.
-/

namespace Cadence

/-- Who has spawned the flows: at place `n - 1` the flow that spawned flow `n`, if one did. -/
abbrev Lineage := List (Option FlowId)

def Lineage.spawner (lineage : Lineage) : FlowId → Option FlowId
  | 0 => none
  | n + 1 => lineage[n]?.join

theorem Lineage.spawner_append (lineage : Lineage) (origin : Option FlowId) (id : Nat) :
    (lineage ++ [origin]).spawner id =
      if id = lineage.length + 1 then origin else lineage.spawner id := by
  cases id with
  | zero => rfl
  | succ n =>
      by_cases last : n = lineage.length
      · simp [spawner, last]
      · simp only [spawner, Nat.add_right_cancel_iff, if_neg last, List.getElem?_append]
        split
        next => rfl
        next outside =>
          have beyond : [origin][n - lineage.length]? = none := by simp; omega
          have absent : lineage[n]? = none := by simp; omega
          rw [beyond, absent]

theorem Lineage.spawner_append_replicate {lineage : Lineage} {origin : Option FlowId} {n id : Nat}
    (new : lineage.length < id) (inside : id ≤ lineage.length + n) :
    (lineage ++ List.replicate n origin).spawner id = origin := by
  cases id with
  | zero => omega
  | succ m =>
      have last : (List.replicate n origin)[m - lineage.length]? = some origin := by
        rw [List.getElem?_replicate, if_pos (by omega)]
      rw [spawner, List.getElem?_append_right (by omega), last]
      rfl

theorem Lineage.le_of_spawner {lineage : Lineage} {child parent : Nat}
    (spawned : lineage.spawner child = some parent) : 0 < child ∧ child ≤ lineage.length := by
  cases child with
  | zero => cases spawned
  | succ n =>
      have inside : n < lineage.length := by
        by_contra outside
        have absent : lineage[n]? = none := by simp; omega
        simp [spawner, absent] at spawned
      omega

def Phase.dependencies {σ : Type} : Phase σ → List FlowId
  | .suspended _ wait => wait.dependencies
  | _ => []

namespace FlowTable

variable {σ : Type} {table after : FlowTable σ} {lineage : Lineage} {loose loose' : List FlowId}
  {id child parent : Nat} {flow : Flow σ} {wait : Wait} {tick : Tick}

theorem dependencies_eq {phase : Phase σ} (found : table.find? id = some phase) :
    table.dependencies id = phase.dependencies := by
  cases phase <;> simp [dependencies, suspended?, found, Phase.dependencies]

theorem dependencies_congr (same : after.find? id = table.find? id) :
    after.dependencies id = table.dependencies id := by
  simp only [dependencies, suspended?, same]

theorem dependencies_of_active (found : table.find? id = some (.active flow)) :
    table.dependencies id = [] :=
  dependencies_eq found

/--
Each live flow that was spawned by another one is listed by that one's wait, and waits list no
others. Only the flows in `loose` are listed nowhere, because their spawner does not wait yet or no
longer waits.
-/
structure Forest (table : FlowTable σ) (lineage : Lineage) (loose : List FlowId) : Prop where
  size : table.phases.size = lineage.length
  present : ∀ id : Nat, 0 < id → id ≤ table.phases.size → ∃ phase, table.find? id = some phase
  keyed : ∀ id completion, table.completed? id = some completion → completion.id = id
  earlier : ∀ child parent : Nat, lineage.spawner child = some parent → parent < child
  listed : ∀ child parent : Nat, lineage.spawner child = some parent → table.isLive child = true →
    child ∈ table.dependencies parent ∨ child ∈ loose
  owned : ∀ parent child : Nat, child ∈ table.dependencies parent → lineage.spawner child = some parent
  spared : ∀ parent child, child ∈ table.dependencies parent → table.cancelled? child = none
  unlisted : ∀ child ∈ loose, ∀ parent, child ∉ table.dependencies parent

theorem forest_empty : Forest (empty : FlowTable σ) [] [] where
  size := rfl
  present id positive inside := by simp [empty] at inside; omega
  keyed id completion found := by simp [completed?] at found
  earlier child parent spawned := by
    have := Lineage.le_of_spawner spawned
    simp at this
    omega
  listed child parent spawned live := by simp [isLive, live?] at live
  owned parent child listed := by simp [dependencies, suspended?] at listed
  spared parent child listed := by simp [dependencies, suspended?] at listed
  unlisted := by simp

theorem exists_of_isLive (live : table.isLive id = true) : ∃ phase, table.find? id = some phase := by
  obtain ⟨flow, found⟩ := isLive_iff.1 live
  rcases live?_eq_some.1 found with active | ⟨wait, suspended⟩
  · exact ⟨_, active⟩
  · exact ⟨_, suspended⟩

theorem hasLive_eq_false : table.hasLive = false ↔ ∀ id, table.isLive id = false := by
  simp only [hasLive, Bool.not_eq_false', List.isEmpty_iff, List.eq_nil_iff_forall_not_mem, mem_collect]
  constructor
  · intro none id
    rw [Bool.eq_false_iff]
    intro live
    obtain ⟨phase, found⟩ := exists_of_isLive live
    exact none id ⟨id, phase, found, if_pos live⟩
  · rintro none a ⟨id, phase, found, seen⟩
    simp [none id] at seen

theorem dependencies_put {old : Phase σ} (found : table.find? id = some old) (phase : Phase σ)
    (other : Nat) : (table.put id (some phase)).dependencies other =
      if other = id then phase.dependencies else table.dependencies other := by
  by_cases same : other = id
  · rw [if_pos same, same]
    exact dependencies_eq (find?_put_self found)
  · rw [if_neg same]
    exact dependencies_congr (find?_put_of_ne table _ same)

theorem isLive_of_put (live : table.isLive id = true) {phase : Phase σ} {other : Nat}
    (still : (table.put id (some phase)).isLive other = true) : table.isLive other = true := by
  by_cases same : other = id
  · exact same ▸ live
  · simpa only [isLive, live?, find?_put_of_ne table _ same] using still

theorem cancelled?_put {old phase : Phase σ} (found : table.find? id = some old)
    (uncancelled : ∀ cancellation, phase ≠ .cancelled cancellation) {other : Nat}
    (intact : table.cancelled? other = none) :
    (table.put id (some phase)).cancelled? other = none := by
  unfold cancelled?
  rw [find?_put found]
  by_cases same : other = id
  · rw [if_pos same]
    cases phase with
    | cancelled cancellation => exact (uncancelled cancellation rfl).elim
    | active => rfl
    | suspended => rfl
    | completed => rfl
  · rw [if_neg same]
    exact intact

/-- A live flow changes its phase, and `loose'` takes up those that it no longer lists. -/
theorem Forest.put (forest : Forest table lineage loose) (live : table.isLive id = true)
    {phase : Phase σ} (uncancelled : ∀ cancellation, phase ≠ .cancelled cancellation)
    (keyed : ∀ completion, phase = .completed completion → completion.id = id)
    (owned : ∀ child ∈ phase.dependencies, lineage.spawner child = some id ∧
      table.cancelled? child = none)
    (listed : ∀ child, lineage.spawner child = some id → table.isLive child = true →
      child ∈ phase.dependencies ∨ child ∈ loose')
    (kept : ∀ child ∈ loose, child ∈ phase.dependencies ∨ child ∈ loose')
    (unlisted : ∀ child ∈ loose', child ∉ phase.dependencies ∧
      ∀ parent, parent ≠ id → child ∉ table.dependencies parent) :
    Forest (table.put id (some phase)) lineage loose' := by
  obtain ⟨old, found⟩ := exists_of_isLive live
  have lists := dependencies_put found phase
  constructor
  case size => rw [size_put, forest.size]
  case earlier => exact forest.earlier
  case present =>
    intro other positive inside
    rw [find?_put found]
    split
    · exact ⟨phase, rfl⟩
    · exact forest.present other positive (size_put table id _ ▸ inside)
  case keyed =>
    intro other completion done
    rw [completed?_eq_some, find?_put found] at done
    split at done
    next same => exact same ▸ keyed completion (Option.some.inj done)
    next distinct => exact forest.keyed other completion (completed?_eq_some.2 done)
  case listed =>
    intro child parent spawned still
    have before := isLive_of_put live still
    rw [lists]
    split
    next same => exact listed child (same ▸ spawned) before
    next distinct =>
      rcases forest.listed child parent spawned before with member | member
      · exact .inl member
      · rcases kept child member with member | member
          -- The flow would list a child that another has spawned.
        · have owner := (owned child member).1
          rw [spawned] at owner
          exact (distinct (Option.some.inj owner)).elim
        · exact .inr member
  case owned =>
    intro parent child member
    rw [lists] at member
    split at member
    next same => exact same ▸ (owned child member).1
    next distinct => exact forest.owned parent child member
  case spared =>
    intro parent child member
    refine cancelled?_put found uncancelled ?_
    rw [lists] at member
    split at member
    next same => exact (owned child member).2
    next distinct => exact forest.spared parent child member
  case unlisted =>
    intro child member parent
    rw [lists]
    split
    next same => exact (unlisted child member).1
    next distinct => exact (unlisted child member).2 parent distinct

theorem Forest.not_live_of_idle (forest : Forest table lineage [])
    (idle : table.dependencies id = []) (spawned : lineage.spawner child = some id) :
    table.isLive child = false := by
  rw [Bool.eq_false_iff]
  intro live
  rcases forest.listed child id spawned live with member | member
  · simp [idle] at member
  · simp at member

theorem Forest.put_idle (forest : Forest table lineage []) (live : table.isLive id = true)
    {phase : Phase σ} (uncancelled : ∀ cancellation, phase ≠ .cancelled cancellation)
    (keyed : ∀ completion, phase = .completed completion → completion.id = id)
    (idle : phase.dependencies = [])
    (childless : ∀ child, lineage.spawner child = some id → table.isLive child = false) :
    Forest (table.put id (some phase)) lineage [] := by
  refine forest.put live uncancelled keyed (by simp [idle]) (fun child spawned still => ?_)
    (by simp) (by simp)
  simp [childless child spawned] at still

theorem Forest.put_active (forest : Forest table lineage [])
    (found : table.find? id = some (.active flow)) (flow' : Flow σ) :
    Forest (table.put id (some (.active flow'))) lineage [] :=
  forest.put_idle (isLive_of_active found) (by simp) (by simp) rfl
    fun _ => forest.not_live_of_idle (dependencies_of_active found)

theorem Forest.count (forest : Forest table lineage loose) (completions : Nat) :
    Forest { table with completions } lineage loose :=
  ⟨forest.size, forest.present, forest.keyed, forest.earlier, forest.listed, forest.owned,
    forest.spared, forest.unlisted⟩

theorem Forest.suspend (forest : Forest table lineage wait.dependencies)
    (found : table.find? id = some (.active flow))
    (fresh : ∀ child ∈ wait.dependencies, lineage.spawner child = some id ∧
      table.cancelled? child = none) :
    Forest (table.put id (some (.suspended flow wait))) lineage [] := by
  refine forest.put (isLive_of_active found) (by simp) (by simp) fresh
    (fun child spawned still => ?_) (fun child member => .inl member) (by simp)
  rcases forest.listed child id spawned still with member | member
  · simp [dependencies_of_active found] at member
  · exact .inl member

theorem Forest.withdraw (forest : Forest table lineage [])
    (found : table.find? id = some (.suspended flow wait)) :
    Forest (table.withdraw id) lineage wait.dependencies := by
  have lists := dependencies_of_suspended found
  simp only [FlowTable.withdraw, suspended?_eq_some.2 found]
  refine forest.put (isLive_of_suspended found) (by simp) (by simp) (by simp [Phase.dependencies])
    (fun child spawned still => ?_) (by simp) (fun child member => ⟨by simp [Phase.dependencies], ?_⟩)
  · rcases forest.listed child id spawned still with member | member
    · exact .inr (lists ▸ member)
    · simp at member
  · intro parent distinct again
    have here := forest.owned id child (lists ▸ member)
    rw [forest.owned parent child again] at here
    exact distinct (Option.some.inj here)

theorem cancelled?_create (table : FlowTable σ) (recipe : Recipe σ) (caller : Option Address)
    (isDependency : Bool) (tick : Tick) (other : Nat) :
    (table.create recipe caller isDependency tick).2.cancelled? other =
      table.cancelled? other := by
  unfold cancelled?
  rw [find?_create]
  by_cases new : other = table.phases.size + 1
  · rw [if_pos new, find?_eq_none_of_size_lt (by omega)]
  · rw [if_neg new]

theorem dependencies_create (table : FlowTable σ) (recipe : Recipe σ) (caller : Option Address)
    (isDependency : Bool) (tick : Tick) (other : Nat) :
    (table.create recipe caller isDependency tick).2.dependencies other =
      table.dependencies other := by
  unfold dependencies suspended?
  rw [find?_create]
  by_cases new : other = table.phases.size + 1
  · rw [if_pos new, find?_eq_none_of_size_lt (by omega)]
  · rw [if_neg new]

theorem Forest.create (forest : Forest table lineage loose) (recipe : Recipe σ)
    (caller : Option Address) (isDependency : Bool) (tick : Tick) (origin : Option FlowId)
    (inside : ∀ parent : Nat, origin = some parent → parent ≤ table.phases.size) :
    Forest (table.create recipe caller isDependency tick).2 (lineage ++ [origin])
      (loose ++ (origin.map fun _ => table.phases.size + 1).toList) := by
  -- The new flow is the last of the lineage, so that no flow lists it yet.
  have old (child parent : Nat) (member : child ∈ table.dependencies parent) :
      child ≠ lineage.length + 1 := by
    have := Lineage.le_of_spawner (forest.owned parent child member)
    omega
  constructor
  case size => simp [FlowTable.create, forest.size]
  case present =>
    intro id positive below
    rw [find?_create]
    split
    · exact ⟨_, rfl⟩
    next distinct =>
      refine forest.present id positive ?_
      simp [FlowTable.create] at below
      omega
  case keyed =>
    intro id completion done
    rw [completed?_create] at done
    exact forest.keyed id completion done
  case earlier =>
    intro child parent spawned
    rw [Lineage.spawner_append, ← forest.size] at spawned
    split at spawned
    next last =>
      have := inside parent spawned
      omega
    next distinct => exact forest.earlier child parent spawned
  case listed =>
    intro child parent spawned live
    rw [dependencies_create]
    rw [Lineage.spawner_append, ← forest.size] at spawned
    split at spawned
    next last => exact .inr (by simp [spawned, last])
    next distinct =>
      have before : table.isLive child = true := by
        unfold isLive live? at live
        rw [find?_create, if_neg distinct] at live
        exact live
      exact (forest.listed child parent spawned before).imp_right (List.mem_append_left _)
  case owned =>
    intro parent child member
    rw [dependencies_create] at member
    rw [Lineage.spawner_append, if_neg (old child parent member)]
    exact forest.owned parent child member
  case spared =>
    intro parent child member
    rw [dependencies_create] at member
    rw [cancelled?_create]
    exact forest.spared parent child member
  case unlisted =>
    intro child member parent listed
    rw [dependencies_create] at listed
    rcases List.mem_append.1 member with member | member
    · exact forest.unlisted child member parent listed
    · have new : child = table.phases.size + 1 := by
        cases origin <;> simp at member
        exact member
      exact old child parent listed (by rw [← forest.size, new])

theorem createAll_spec (caller : Option Address) (isDependency : Bool) (tick : Tick)
    (recipes : List (Recipe σ)) (table : FlowTable σ) :
    (createAll caller isDependency tick recipes table).2.phases.size =
        table.phases.size + recipes.length ∧
      (createAll caller isDependency tick recipes table).1.length = recipes.length ∧
      (∀ id : Nat, id ≤ table.phases.size →
        (createAll caller isDependency tick recipes table).2.find? id = table.find? id) ∧
      ∀ id : Nat, id ∈ (createAll caller isDependency tick recipes table).1 →
        table.phases.size < id ∧ ∃ recipe ∈ recipes,
          (createAll caller isDependency tick recipes table).2.find? id =
            some (.active (Flow.ofRecipe id recipe caller isDependency tick)) := by
  induction recipes generalizing table with
  | nil => exact ⟨rfl, rfl, fun _ _ => rfl, by simp [createAll]⟩
  | cons recipe recipes ih =>
      have grown : (table.create recipe caller isDependency tick).2.phases.size =
          table.phases.size + 1 := by simp [create]
      obtain ⟨size, length, old, new⟩ := ih (table.create recipe caller isDependency tick).2
      rw [grown] at size old
      simp only [createAll]
      refine ⟨by rw [size, List.length_cons]; omega, by simp [length], fun id inside => ?_,
        fun id member => ?_⟩
      · rw [old id (by omega), find?_create, if_neg (by omega)]
      · rcases List.mem_cons.1 member with rfl | member
        · refine ⟨by simp [create], recipe, List.mem_cons_self .., ?_⟩
          exact (old _ (Nat.le_refl _)).trans ((find?_create ..).trans (if_pos rfl))
        · obtain ⟨beyond, recipe', known, found⟩ := new id member
          exact ⟨by omega, recipe', List.mem_cons_of_mem _ known, found⟩

theorem find?_createAll {caller : Option Address} {isDependency : Bool}
    {recipes : List (Recipe σ)} {phase : Phase σ}
    (found : (createAll caller isDependency tick recipes table).2.find? id =
      some phase) :
    table.find? id = some phase ∨ ∃ recipe ∈ recipes,
      phase = .active (Flow.ofRecipe id recipe caller isDependency tick) := by
  induction recipes generalizing table with
  | nil => exact .inl found
  | cons recipe recipes ih =>
      simp only [createAll] at found
      rcases ih found with old | ⟨recipe', member, same⟩
      · rw [find?_create] at old
        split at old
        · exact .inr ⟨recipe, List.mem_cons_self .., (Option.some.inj old).symm⟩
        · exact .inl old
      · exact .inr ⟨recipe', List.mem_cons_of_mem _ member, same⟩

theorem Forest.createAll (forest : Forest table lineage loose) (caller : Option Address)
    (isDependency : Bool) (tick : Tick) (recipes : List (Recipe σ))
    (inside : parent ≤ table.phases.size) :
    Forest (createAll caller isDependency tick recipes table).2
      (lineage ++ List.replicate recipes.length (some parent))
      (loose ++ (createAll caller isDependency tick recipes table).1) := by
  induction recipes generalizing table lineage loose with
  | nil => simpa [FlowTable.createAll] using forest
  | cons recipe recipes ih =>
      have grown := forest.create recipe caller isDependency tick (some parent)
        (by simpa using inside)
      have inside' : parent ≤ (table.create recipe caller isDependency tick).2.phases.size := by
        simp [FlowTable.create]
        omega
      simpa [FlowTable.createAll, List.replicate_succ] using! ih grown inside'

theorem Forest.await (forest : Forest table lineage [])
    (active : table.find? id = some (.active flow)) (strategy : Strategy) (caller : Address)
    (isDependency : Bool) (recipes : List (Recipe σ)) (tick : Tick) :
    let made := FlowTable.createAll (some caller) isDependency tick recipes table
    Forest (made.2.put id (some (.suspended flow ⟨strategy, caller, isDependency, made.1, tick⟩)))
      (lineage ++ List.replicate recipes.length (some id)) [] := by
  intro made
  obtain ⟨size, -, old, new⟩ := createAll_spec (some caller) isDependency tick recipes table
  have bounds := le_size_of_find? active
  have forest' := forest.createAll (some caller) isDependency tick recipes bounds.2
  refine Forest.suspend forest' ((old id bounds.2).trans active) fun child member => ?_
  obtain ⟨beyond, recipe, -, found⟩ := new child member
  have := le_size_of_find? found
  refine ⟨Lineage.spawner_append_replicate ?_ ?_, by simp [made, cancelled?, found]⟩
  · rwa [← forest.size]
  · rw [← forest.size, ← size]
    exact this.2

end FlowTable

end Cadence
