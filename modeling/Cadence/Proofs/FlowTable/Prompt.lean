import Cadence.Proofs.FlowTable.Boundary
/-!
Waits are prompt: whatever a wait is satisfied by has finished in the tick that is under way, since
it would have been settled before.
-/

namespace Cadence

namespace FlowTable

variable {σ : Type} {table after : FlowTable σ} {lineage : Lineage} {tick : Tick} {id : Nat}
  {flow old : Flow σ} {wait : Wait}

def Lasts (table : FlowTable σ) (tick : Tick) (id : FlowId) : Prop :=
  table.isLive id = true ∨ ∃ done, table.completed? id = some done ∧ done.completedAt = tick

def Keeps (table : FlowTable σ) (tick : Tick) (wait : Wait) : Prop :=
  match wait.strategy with
  | .single | .race => ∀ child ∈ wait.dependencies, table.Lasts tick child
  | .all => wait.dependencies = [] ∧ wait.submittedAt = tick ∨
    ∃ child ∈ wait.dependencies, table.Lasts tick child

structure Prompt (table : FlowTable σ) (tick : Tick) : Prop where
  later : ∀ (id : Nat) flow wait, table.find? id = some (.suspended flow wait) →
    ∀ child ∈ wait.dependencies, id < child
  keeps : ∀ id flow wait, table.find? id = some (.suspended flow wait) → table.Keeps tick wait

theorem Keeps.mono (keeps : table.Keeps tick wait)
    (lasts : ∀ child ∈ wait.dependencies, table.Lasts tick child → after.Lasts tick child) :
    after.Keeps tick wait := by
  unfold Keeps at keeps ⊢
  split at keeps
  · exact fun child member => lasts child member (keeps child member)
  · exact fun child member => lasts child member (keeps child member)
  · exact keeps.imp_right fun ⟨child, member, lasting⟩ => ⟨child, member, lasts child member lasting⟩

theorem Forest.prompt (forest : Forest table lineage []) (resumable : table.Resumable)
    (unsettled : table.Unsettled) (tick : Tick) : table.Prompt tick where
  later id flow wait found child member :=
    forest.earlier child id (forest.owned id child (dependencies_of_suspended found ▸ member))
  keeps id flow wait found := by
    have lasts (child : Nat) (member : child ∈ wait.dependencies)
        (unfinished : ¬ ∃ done, table.completed? child = some done) : table.Lasts tick child :=
      .inl (forest.isLive_of_unfinished found member unfinished)
    have shapely := (resumable id flow wait found).1
    obtain ⟨⟨child, member, unfinished⟩, others⟩ :=
      Wait.unfinished shapely ((outcome?_eq_none shapely).1 (unsettled id flow wait found))
    unfold Keeps
    cases kind : wait.strategy with
    | single => exact fun child member => lasts child member (others (by simp [kind]) child member)
    | race => exact fun child member => lasts child member (others (by simp [kind]) child member)
    | all => exact .inr ⟨child, member, lasts child member unfinished⟩

theorem Prompt.completing (prompt : table.Prompt tick) (found : table.find? id = some (.active old))
    {done : Completion} (now : done.completedAt = tick) : (table.completing id done).Prompt tick := by
  have known := find?_completing found done
  have lasts (child : Nat) (lasting : table.Lasts tick child) :
      (table.completing id done).Lasts tick child := by
    by_cases here : child = id
    · exact .inr ⟨done, by simp [completed?, known, here], now⟩
    · simpa only [Lasts, isLive, live?, completed?, known, if_neg here] using lasting
  have before {other : Nat} {flow : Flow σ} {wait : Wait}
      (waits : (table.completing id done).find? other = some (.suspended flow wait)) :
      table.find? other = some (.suspended flow wait) := by
    rw [known] at waits
    split at waits
    · cases waits
    · exact waits
  exact ⟨fun other flow wait waits => prompt.later other flow wait (before waits),
    fun other flow wait waits => (prompt.keeps other flow wait (before waits)).mono fun child _ =>
      lasts child⟩

theorem Prompt.awaiting (prompt : table.Prompt tick) (found : table.find? id = some (.active old))
    (flow : Flow σ) (request : Request σ) (caller : Address) :
    (table.awaiting id flow request caller tick).Prompt tick := by
  obtain ⟨-, others, -, ids, here, -⟩ := awaiting_spec found flow request caller tick
  have lasts (child : Nat) (lasting : table.Lasts tick child) :
      (table.awaiting id flow request caller tick).Lasts tick child := by
    have inside : child ≤ table.phases.size := by
      rcases lasting with live | ⟨done, finished, -⟩
      · exact (le_size_of_isLive live).2
      · exact (le_size_of_find? (completed?_eq_some.1 finished)).2
    by_cases same : child = id
    · rw [same]
      exact .inl (isLive_of_suspended here)
    · simpa only [Lasts, isLive, live?, completed?, others child same inside] using lasting
  constructor
  case later =>
    intro other flow' wait waits child member
    rcases suspended_awaiting found waits with ⟨rfl, -, fresh⟩ | before
    · exact Nat.lt_of_le_of_lt (le_size_of_find? found).2 (fresh child member).1
    · exact prompt.later other flow' wait before child member
  case keeps =>
    intro other flow' wait waits
    rcases suspended_awaiting found waits with ⟨-, now, fresh⟩ | before
    · have lasts (child : Nat) (member : child ∈ wait.dependencies) :
          (table.awaiting id flow request caller tick).Lasts tick child := by
        obtain ⟨-, -, young, active⟩ := fresh child member
        exact .inl (isLive_of_active active)
      unfold Keeps
      cases wait.strategy with
      | single => exact lasts
      | race => exact lasts
      | all =>
          rcases List.eq_nil_or_concat wait.dependencies with nothing | ⟨children, child, listed⟩
          · exact .inl ⟨nothing, now⟩
          · exact .inr ⟨child, by simp [listed], lasts child (by simp [listed])⟩
    · exact (prompt.keeps other flow' wait before).mono fun child _ => lasts child

end FlowTable

end Cadence
