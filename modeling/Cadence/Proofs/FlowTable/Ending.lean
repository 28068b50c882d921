import Cadence.Proofs.FlowTable.Boundary
/-!
Flows that have ended stay as they are, so that a wait for such flows only is resolved for good.
-/

namespace Cadence.FlowTable

variable {σ : Type} {table middle after : FlowTable σ} {id : Nat} {flow old : Flow σ} {tick : Tick}
  {wait : Wait} {value : Json} {released : List Released}

structure KeepsEnded (table after : FlowTable σ) : Prop where
  size : table.phases.size ≤ after.phases.size
  ended : ∀ id : Nat, id ≤ table.phases.size → table.isLive id = false →
    after.find? id = table.find? id

theorem keepsEnded_create (table : FlowTable σ) (recipe : Recipe σ) (caller : Option Address)
    (isDependency : Bool) (tick : Tick) :
    table.KeepsEnded (table.create recipe caller isDependency tick).2 where
  size := by simp [create]
  ended id inside _ := by
    rw [find?_create, if_neg]
    omega

theorem ne_of_active (found : table.find? id = some (.active old)) {other : Nat}
    (dead : table.isLive other = false) : other ≠ id := by
  rintro rfl
  rw [isLive_of_active found] at dead
  cases dead

theorem keepsEnded_put (found : table.find? id = some (.active old)) (phase : Option (Phase σ)) :
    table.KeepsEnded (table.put id phase) where
  size := by simp
  ended other _ dead := find?_put_of_ne table phase (ne_of_active found dead)

theorem keepsEnded_awaiting (found : table.find? id = some (.active old)) (flow : Flow σ)
    (request : Request σ) (caller : Address) (tick : Tick) :
    table.KeepsEnded (table.awaiting id flow request caller tick) := by
  obtain ⟨size, others, -⟩ := awaiting_spec found flow request caller tick
  exact ⟨by omega, fun other inside dead => others other (ne_of_active found dead) inside⟩

theorem keepsEnded_completing (found : table.find? id = some (.active old)) (done : Completion) :
    table.KeepsEnded (table.completing id done) := by
  have put := keepsEnded_put found (some (.completed done))
  exact ⟨put.size, put.ended⟩

theorem Settled.keepsEnded (settled : Settled table tick after) : table.KeepsEnded after where
  size := Nat.le_of_eq settled.size.symm
  ended id inside dead := by
    have change := settled.phases id
    unfold isLive live? at dead
    generalize table.find? id = before at change dead ⊢
    generalize after.find? id = last at change ⊢
    cases change with
    | spared spares =>
        cases spares with
        | same => rfl
        | active => cases dead
        | suspended => cases dead
    | resumed => cases dead

/-- What a wait has come to, once all the flows that it is for have ended. -/
structure Resolved (table : FlowTable σ) (wait : Wait) (value : Json) (released : List Released) :
    Prop where
  outcome : table.outcome? wait = some (value, released)
  inside : ∀ child ∈ wait.dependencies, child ≤ table.phases.size
  ended : ∀ child ∈ wait.dependencies, table.isLive child = false

theorem Resolved.keeps (resolved : table.Resolved wait value released)
    (keeps : table.KeepsEnded after) : after.Resolved wait value released := by
  have same (child : FlowId) (member : child ∈ wait.dependencies) :
      after.find? child = table.find? child :=
    keeps.ended child (resolved.inside child member) (resolved.ended child member)
  constructor
  · rw [← resolved.outcome]
    exact outcome?_local fun child member => by simp only [completed?, same child member]
  · exact fun child member => Nat.le_trans (resolved.inside child member) keeps.size
  · exact fun child member => (isLive_congr (same child member)).trans (resolved.ended child member)

theorem resolved_of_active {lineage : Lineage} {flow' : Flow σ} (forest : table.Forest lineage [])
    (forest' : after.Forest lineage []) (settled : Settled table tick after)
    (found : table.find? id = some (.suspended flow wait))
    (active : after.find? id = some (.active flow'))
    (outcome : table.outcome? wait = some (value, released)) :
    after.Resolved wait value released where
  outcome := (settled.outcome? wait).trans outcome
  inside child member := by
    have owned := forest.owned id child (dependencies_of_suspended found ▸ member)
    rw [forest'.size]
    exact (Lineage.le_of_spawner owned).2
  ended child member := by
    have owned := forest.owned id child (dependencies_of_suspended found ▸ member)
    exact forest'.not_live_of_idle (dependencies_of_active active) owned

theorem flow_of_collected {ids : List FlowId}
    (collected : List.Forall₂ (fun id one => table.released? id = some one) ids released) :
    released.map Released.flow = ids := by
  induction collected with
  | nil => rfl
  | cons found rest ih =>
      obtain ⟨done, -, rfl⟩ := released?_eq_some found
      rw [List.map_cons, ih]

theorem Resolves.awaited (resolves : Resolves table wait value released)
    (keyed : ∀ id done, table.completed? id = some done → done.id = id) :
    (released.map Released.flow).Sublist wait.dependencies := by
  cases resolves with
  | single kind only finished =>
      obtain ⟨rest, split⟩ := List.head?_eq_some_iff.1 only
      simp [split]
  | all kind collected => rw [flow_of_collected collected]
  | race kind first =>
      obtain ⟨⟨id, listed, finished⟩, -⟩ := firstCompleted?_eq_some first
      simpa [keyed id _ finished] using listed

theorem Resolves.finished (resolves : Resolves table wait value released)
    (keyed : ∀ id done, table.completed? id = some done → done.id = id) {one : Released}
    (member : one ∈ released) : ∃ done, table.completed? one.flow = some done ∧
      done.value = one.value ∧ done.lastAddress = one.lastAddress := by
  cases resolves with
  | single kind only finished =>
      obtain rfl := List.mem_singleton.1 member
      exact ⟨_, finished, rfl, rfl⟩
  | all kind collected =>
      generalize wait.dependencies = ids at collected
      induction collected with
      | nil => cases member
      | cons found rest ih =>
          rcases List.mem_cons.1 member with rfl | member
          · obtain ⟨done, finished, rfl⟩ := released?_eq_some found
            exact ⟨done, finished, rfl, rfl⟩
          · exact ih member
  | race kind first =>
      obtain ⟨⟨id, listed, finished⟩, -⟩ := firstCompleted?_eq_some first
      obtain rfl := List.mem_singleton.1 member
      exact ⟨_, keyed id _ finished ▸ finished, rfl, rfl⟩

end Cadence.FlowTable
