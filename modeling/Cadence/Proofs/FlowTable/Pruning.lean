import Cadence.Proofs.FlowTable.Forest
/-!
Cutting trees of awaiting flows: cancelling the losers of a race and settling waits never fails in
a forest, and what is left is a forest in which every suspended flow still waits for an active one.
-/

namespace Cadence.FlowTable

open Relation

variable {σ : Type} {table after : FlowTable σ} {lineage : Lineage} {loose : List FlowId}
  {id child parent : Nat} {flow : Flow σ} {wait : Wait} {tick : Tick}

theorem Forest.lt_of_awaits (forest : Forest table lineage loose) {a b : Nat}
    (awaits : table.Awaits a b) : a < b :=
  forest.earlier b a (forest.owned a b awaits.1)

theorem Forest.le_of_reached (forest : Forest table lineage loose) {a b : Nat}
    (path : ReflTransGen table.Awaits a b) : a ≤ b := by
  induction path with
  | refl => exact Nat.le_refl a
  | tail _ awaits ih => exact Nat.le_trans ih (Nat.le_of_lt (forest.lt_of_awaits awaits))

theorem Spares.dependencies (spares : Spares tick (table.find? id) (after.find? id))
    (member : child ∈ after.dependencies id) : after.find? id = table.find? id := by
  obtain ⟨flow, wait, found, -⟩ := suspended_of_mem_dependencies member
  rw [found] at spares ⊢
  generalize table.find? id = before at spares ⊢
  cases spares with | same => rfl

theorem Spares.isLive (spares : Spares tick (table.find? id) (after.find? id))
    (live : after.isLive id = true) : after.find? id = table.find? id := by
  obtain ⟨flow, found⟩ := isLive_iff.1 live
  rcases live?_eq_some.1 found with found | ⟨wait, found⟩
  all_goals
    rw [found] at spares ⊢
    generalize table.find? id = before at spares ⊢
    cases spares with | same => rfl

theorem isLive_congr (same : after.find? id = table.find? id) :
    after.isLive id = table.isLive id := by
  simp only [FlowTable.isLive, live?, same]

theorem Spares.exists_phase {before later : Option (Phase σ)} {phase : Phase σ}
    (spares : Spares tick before later) (found : before = some phase) :
    ∃ phase', later = some phase' := by
  cases spares with
  | same => exact ⟨phase, found⟩
  | active flow parent caller => exact ⟨_, rfl⟩
  | suspended flow wait parent caller => exact ⟨_, rfl⟩

theorem Spares.completed {before later : Option (Phase σ)} {done : Completion}
    (spares : Spares tick before later) (found : later = some (.completed done)) :
    before = some (.completed done) := by
  cases spares with
  | same => exact found
  | active flow parent caller => cases found
  | suspended flow wait parent caller => cases found

theorem not_isLive_cancelTree {root : Nat} (parent : FlowId) (caller : Option Address) (tick : Tick)
    (path : ReflTransGen table.Awaits root id) :
    (table.cancelTree root parent caller tick).2.isLive id = false := by
  rw [Bool.eq_false_iff]
  intro live
  have spares := spares_cancelTree table root parent caller tick id
  have before : table.isLive id = true := isLive_congr (spares.isLive live) ▸ live
  obtain ⟨flow, found⟩ := isLive_iff.1 before
  simp [FlowTable.isLive, live?, find?_cancelTree_of_reached path found] at live

theorem Forest.cancelTree {root : Nat} (forest : Forest table lineage (root :: loose))
    (parent : FlowId) (caller : Option Address) (tick : Tick) :
    Forest (table.cancelTree root parent caller tick).2 lineage loose := by
  have spares := spares_cancelTree table root parent caller tick
  have dead (id : Nat) (path : ReflTransGen table.Awaits root id) :
      (table.cancelTree root parent caller tick).2.isLive id = false :=
    not_isLive_cancelTree parent caller tick path
  have lists (id child : Nat)
      (member : child ∈ (table.cancelTree root parent caller tick).2.dependencies id) :
      child ∈ table.dependencies id :=
    dependencies_congr ((spares id).dependencies member) ▸ member
  constructor
  case size => rw [FlowTable.cancelTree, size_tearDown, forest.size]
  case earlier => exact forest.earlier
  case present =>
    intro id positive inside
    obtain ⟨phase, found⟩ :=
      forest.present id positive (by simpa [FlowTable.cancelTree] using inside)
    exact (spares id).exists_phase found
  case keyed =>
    intro id completion done
    rw [completed?_eq_some] at done
    exact forest.keyed id completion (completed?_eq_some.2 ((spares id).completed done))
  case listed =>
    intro child origin spawned live
    have before : table.isLive child = true := isLive_congr ((spares child).isLive live) ▸ live
    rcases forest.listed child origin spawned before with member | member
    · have unreached : ¬ ReflTransGen table.Awaits root origin := by
        intro path
        simp [dead child (path.tail ⟨member, before⟩)] at live
      exact .inl (dependencies_congr (find?_cancelTree_of_unreached unreached) ▸ member)
    · rcases List.mem_cons.1 member with rfl | member
      · simp [dead child .refl] at live
      · exact .inr member
  case owned =>
    intro origin child member
    exact forest.owned origin child (lists origin child member)
  case spared =>
    intro origin child member
    have owned := forest.owned origin child (lists origin child member)
    have unreached : ¬ ReflTransGen table.Awaits root child := by
      intro path
      rcases ReflTransGen.cases_tail path with same | ⟨waiter, path, awaits⟩
      · exact forest.unlisted root (List.mem_cons_self ..) origin
          (lists origin root (same ▸ member))
      · -- Whoever lists the flow is reached as well, so that it no longer waits.
        obtain rfl : waiter = origin := by
          have owned' := forest.owned waiter child awaits.1
          rw [owned] at owned'
          exact (Option.some.inj owned').symm
        obtain ⟨flow, wait, found, -⟩ := suspended_of_mem_dependencies member
        exact Bool.noConfusion ((isLive_of_suspended found).symm.trans (dead waiter path))
    unfold FlowTable.cancelled?
    rw [find?_cancelTree_of_unreached unreached]
    exact forest.spared origin child (lists origin child member)
  case unlisted =>
    intro child member origin listed
    exact forest.unlisted child (List.mem_cons_of_mem _ member) origin (lists origin child listed)

theorem Forest.drop {root : Nat} (forest : Forest table lineage (root :: loose))
    (dead : table.isLive root = false) : Forest table lineage loose := by
  refine ⟨forest.size, forest.present, forest.keyed, forest.earlier,
    fun child parent spawned live => ?_, forest.owned, forest.spared,
    fun child member => forest.unlisted child (List.mem_cons_of_mem _ member)⟩
  rcases forest.listed child parent spawned live with member | member
  · exact .inl member
  · rcases List.mem_cons.1 member with rfl | member
    · simp [dead] at live
    · exact .inr member

theorem Forest.tearDownLosers {ids : List Nat} (forest : Forest table lineage ids)
    {winner : Option FlowId} (parent : FlowId) (finished : ∀ id, winner = some id → table.isLive id = false)
    (later : ∀ loser ∈ ids, id < loser) (caller : Address) (tick : Tick) :
    Forest (tearDownLosers winner parent caller tick ids table).2 lineage [] ∧
      (tearDownLosers winner parent caller tick ids table).2.find? id = table.find? id := by
  induction ids generalizing table with
  | nil => exact ⟨forest, rfl⟩
  | cons loser ids ih =>
      unfold FlowTable.tearDownLosers
      have later' : ∀ loser ∈ ids, id < loser := fun other member =>
        later other (List.mem_cons_of_mem _ member)
      split
      next lost =>
        have spares := spares_cancelTree table loser parent (some caller) tick
        have finished' : ∀ id, winner = some id →
            (table.cancelTree loser parent (some caller) tick).2.isLive id = false := by
          intro other won
          rw [Bool.eq_false_iff]
          intro live
          rw [isLive_congr ((spares other).isLive live), finished other won] at live
          cases live
        obtain ⟨forest', same⟩ := ih (forest.cancelTree parent (some caller) tick) finished' later'
        refine ⟨forest', same.trans (find?_cancelTree_of_unreached fun path => ?_)⟩
        have := forest.le_of_reached path
        have := later loser (List.mem_cons_self ..)
        omega
      next spared =>
        have dead : table.isLive loser = false := by
          by_cases won : some loser = winner
          · exact finished loser won.symm
          · simpa [won] using spared
        exact ih (forest.drop dead) finished later'

def Resumable (table : FlowTable σ) : Prop :=
  ∀ id flow wait, table.find? id = some (.suspended flow wait) →
    wait.strategy.check id wait.dependencies.length = .ok () ∧ flow.stack.records ≠ []

theorem Settled.resumable (settled : Settled table tick after) (resumable : table.Resumable) :
    after.Resumable :=
  fun id flow wait found => resumable id flow wait (settled.suspended found)

variable {value : Json} {released : List Released}

theorem finished_of_outcome? (shapely : wait.strategy.check id wait.dependencies.length = .ok ())
    (outcome : table.outcome? wait = some (value, released)) (kind : wait.strategy ≠ .race) :
    ∀ child ∈ wait.dependencies, table.isLive child = false := by
  have satisfied : wait.Satisfied fun id => ∃ done, table.completed? id = some done := by
    by_contra unsatisfied
    simp [(outcome?_eq_none shapely).2 unsatisfied] at outcome
  have finished : ∀ child ∈ wait.dependencies, ∃ done, table.completed? child = some done := by
    unfold Wait.Satisfied at satisfied
    cases same : wait.strategy with
    | single =>
        rw [same] at satisfied
        obtain ⟨only, single, done⟩ := satisfied
        intro child member
        obtain rfl : child = only := by simpa [single] using member
        exact done
    | all => simpa only [same] using satisfied
    | race => exact (kind same).elim
  intro child member
  obtain ⟨done, found⟩ := finished child member
  rw [completed?_eq_some] at found
  simp [isLive, live?, found]

theorem Forest.winner_finished (forest : Forest table lineage loose)
    (outcome : table.outcome? wait = some (value, released)) (kind : wait.strategy = .race)
    {id : FlowId} (won : released.head?.map Released.flow = some id) : table.isLive id = false := by
  cases resolves_of_outcome? outcome with
  | single kind' => simp [kind] at kind'
  | all kind' => simp [kind] at kind'
  | @race winner _ first =>
      obtain ⟨⟨place, -, found⟩, -⟩ := firstCompleted?_eq_some first
      obtain rfl : winner.id = id := by simpa using won
      rw [forest.keyed place winner found]
      rw [completed?_eq_some] at found
      simp [isLive, live?, found]

theorem Forest.decided (forest : Forest table lineage [])
    (found : table.find? id = some (.suspended flow wait))
    (shapely : wait.strategy.check id wait.dependencies.length = .ok ())
    (outcome : table.outcome? wait = some (value, released)) (tick : Tick) :
    Forest (table.decided id wait released tick) lineage [] ∧
      (∃ wait', (table.decided id wait released tick).find? id = some (.suspended flow wait')) ∧
      ∀ child, lineage.spawner child = some id →
        (table.decided id wait released tick).isLive child = false := by
  unfold FlowTable.decided
  by_cases race : wait.strategy = .race
  · rw [if_pos race]
    have same : (table.withdraw id).find? id =
        some (.suspended flow { wait with dependencies := [] }) := by
      rw [find?_withdraw found, if_pos rfl]
    have finished : ∀ winner, released.head?.map Released.flow = some winner →
        (table.withdraw id).isLive winner = false := by
      intro winner won
      have dead := forest.winner_finished outcome race won
      have distinct : winner ≠ id := by
        rintro rfl
        simp [isLive_of_suspended found] at dead
      have unchanged : (table.withdraw id).find? winner = table.find? winner := by
        rw [find?_withdraw found, if_neg distinct]
      exact (isLive_congr unchanged).trans dead
    have later : ∀ loser ∈ wait.dependencies, id < loser := by
      intro loser member
      have listed : loser ∈ table.dependencies id := dependencies_of_suspended found ▸ member
      exact forest.earlier loser id (forest.owned id loser listed)
    obtain ⟨forest', kept⟩ :=
      (forest.withdraw found).tearDownLosers id finished later wait.caller tick
    rw [same] at kept
    exact ⟨forest', ⟨_, kept⟩, fun child => forest'.not_live_of_idle (dependencies_eq kept)⟩
  · rw [if_neg race]
    refine ⟨forest, ⟨wait, found⟩, fun child spawned => ?_⟩
    rw [Bool.eq_false_iff]
    intro live
    rcases forest.listed child id spawned live with member | member
    · rw [dependencies_of_suspended found] at member
      simp [finished_of_outcome? shapely outcome race child member] at live
    · simp at member

theorem Forest.settle (forest : Forest table lineage []) (resumable : table.Resumable)
    (id : FlowId) (tick : Tick) :
    ∃ cancelled after, settle id tick table = .ok cancelled after ∧ Forest after lineage [] := by
  rcases settle_turn table id tick with
    ⟨flow, wait, value, released, found, outcome⟩ | ⟨-, still⟩
  · obtain ⟨shapely, nonempty⟩ := resumable id flow wait found
    obtain ⟨forest', ⟨wait', waiting⟩, childless⟩ := forest.decided found shapely outcome tick
    obtain ⟨cancelled, settled⟩ := settle_of_satisfied found outcome tick
    obtain ⟨top, below, records⟩ := List.exists_cons_of_ne_nil nonempty
    rw [settled, resume_eq waiting (Stack.modify_top records _)]
    refine ⟨cancelled, _, rfl, ?_⟩
    exact forest'.put_idle (isLive_of_suspended waiting) (by simp) (by simp) rfl childless
  · exact ⟨[], table, still, forest⟩

theorem Forest.settleEach (forest : Forest table lineage []) (resumable : table.Resumable)
    (ids : List FlowId) (tick : Tick) :
    ∃ cancelled after, settleEach tick ids table = .ok cancelled after ∧
      Forest after lineage [] := by
  induction ids generalizing table with
  | nil => exact ⟨[], table, rfl, forest⟩
  | cons id ids ih =>
      obtain ⟨cancelled, middle, first, forest'⟩ := forest.settle resumable id tick
      obtain ⟨cancelled', after, rest, forest''⟩ := ih forest' ((settle_ok first).1.resumable resumable)
      refine ⟨cancelled ++ cancelled', after, ?_, forest''⟩
      show EStateM.bind (FlowTable.settle id tick) _ table = _
      unfold EStateM.bind
      rw [first]
      show EStateM.bind (FlowTable.settleEach tick ids) _ middle = _
      unfold EStateM.bind
      rw [rest]
      rfl

theorem Forest.resolve (forest : Forest table lineage []) (resumable : table.Resumable)
    (tick : Tick) :
    ∃ cancelled after, resolve tick table = .ok cancelled after ∧ Forest after lineage [] ∧
      Settled table tick after ∧ after.Unsettled := by
  obtain ⟨cancelled, after, done, forest'⟩ := forest.settleEach resumable table.ready tick
  exact ⟨cancelled, after, done, forest', resolve_ok done⟩

theorem Forest.isLive_of_unfinished (forest : Forest table lineage [])
    (found : table.find? id = some (.suspended flow wait)) (member : child ∈ wait.dependencies)
    (unfinished : ¬ ∃ done, table.completed? child = some done) : table.isLive child = true := by
  have listed : child ∈ table.dependencies id := dependencies_of_suspended found ▸ member
  have bounds := Lineage.le_of_spawner (forest.owned id child listed)
  obtain ⟨phase, known⟩ := forest.present child bounds.1 (forest.size ▸ bounds.2)
  have spared := forest.spared id child listed
  cases phase with
  | active flow => exact isLive_of_active known
  | suspended flow wait => exact isLive_of_suspended known
  | completed done => exact (unfinished ⟨done, completed?_eq_some.2 known⟩).elim
  | cancelled cancellation => simp [cancelled?, known] at spared

theorem Forest.exists_live (forest : Forest table lineage [])
    (found : table.find? id = some (.suspended flow wait))
    (shapely : wait.strategy.check id wait.dependencies.length = .ok ())
    (unsatisfied : table.outcome? wait = none) : ∃ child, table.Awaits id child := by
  obtain ⟨⟨child, member, unfinished⟩, -⟩ :=
    Wait.unfinished shapely ((outcome?_eq_none shapely).1 unsatisfied)
  exact ⟨child, dependencies_of_suspended found ▸ member,
    forest.isLive_of_unfinished found member unfinished⟩

theorem Forest.exists_active (forest : Forest table lineage []) (resumable : table.Resumable)
    (unsettled : table.Unsettled) (found : table.find? id = some (.suspended flow wait)) :
    ∃ other flow', TransGen table.Awaits id other ∧ table.find? other = some (.active flow') := by
  -- Waits lead to later flows, of which there are only finitely many.
  induction left : table.phases.size - id using Nat.strongRecOn generalizing id flow wait with
  | ind left ih =>
      subst left
      obtain ⟨child, awaits⟩ := forest.exists_live found (resumable id flow wait found).1
        (unsettled id flow wait found)
      have later := forest.lt_of_awaits awaits
      have bounds := le_size_of_isLive awaits.2
      obtain ⟨flow', live⟩ := isLive_iff.1 awaits.2
      rcases live?_eq_some.1 live with active | ⟨wait', suspended⟩
      · exact ⟨child, flow', .single awaits, active⟩
      · obtain ⟨other, flow'', path, active⟩ := ih _ (by omega) suspended rfl
        exact ⟨other, flow'', .head awaits path, active⟩

end Cadence.FlowTable
