import Cadence.Flow.Sets
import Cadence.Proofs.Coupling
import Cadence.Proofs.FlowTable.Lifecycle
import Cadence.Proofs.FlowTable.Pruning
import Mathlib.Data.List.Sort
import Std.Data.TreeMap.Lemmas
/-!
The four sets and the table of waits stay in step with one table of phases. Each operation succeeds
on the one side exactly if it does on the other, with the same result, and what it leaves behind
agrees again, also where it fails halfway.
-/

namespace Cadence.FlowSets

open Std (TreeMap)

variable {σ : Type} {sets sets' : FlowSets σ} {table after : FlowTable σ} {tick : Tick}
  {settling settling' : Option FlowId} {id parent : FlowId} {phase? : Option (Phase σ)}
  {caller : Option Address} {wait : Wait}

structure Row (σ : Type) where
  active : Option (Flow σ) := none
  suspended : Option (Flow σ) := none
  completed : Option Completion := none
  cancelled : Option Cancellation := none
  wait : Option PlacedWait := none

def row (sets : FlowSets σ) (id : FlowId) : Row σ where
  active := sets.active[id]?
  suspended := sets.suspended[id]?
  completed := sets.completed[id]?
  cancelled := sets.cancelled[id]?
  wait := sets.waits[id]?

/-- The row of a flow in its phase. The wait that is being settled is no longer in the table. -/
def Row.ofPhase? (settling : Option FlowId) (id : FlowId) : Option (Phase σ) → Row σ
  | none => {}
  | some (.active flow) => { active := some flow }
  | some (.suspended flow wait) =>
    { suspended := some flow, wait := if settling = some id then none else some ⟨id, wait⟩ }
  | some (.completed completion) => { completed := some completion }
  | some (.cancelled cancellation) => { cancelled := some cancellation }

structure Refines (settling : Option FlowId) (sets : FlowSets σ) (table : FlowTable σ) : Prop where
  lastId : sets.lastId = table.phases.size
  completions : sets.completions = table.completions
  rows (id : FlowId) : sets.row id = .ofPhase? settling id (table.find? id)
  owned : table.Owned

theorem refines_empty : Refines none (empty : FlowSets σ) .empty where
  lastId := rfl
  completions := rfl
  rows id := by simp [row, empty, Row.ofPhase?]
  owned id phase found := by simp at found

/-! ## Looking up -/

namespace Refines

theorem active (refines : Refines settling sets table) (id : FlowId) :
    sets.active[id]? = table.active? id := by
  refine (congrArg Row.active (refines.rows id)).trans ?_
  unfold FlowTable.active?
  rcases table.find? id with - | (_ | _ | _ | _) <;> rfl

theorem suspended (refines : Refines settling sets table) (id : FlowId) :
    sets.suspended[id]? = (table.suspended? id).map Prod.fst := by
  refine (congrArg Row.suspended (refines.rows id)).trans ?_
  unfold FlowTable.suspended?
  rcases table.find? id with - | (_ | _ | _ | _) <;> rfl

theorem completed (refines : Refines settling sets table) (id : FlowId) :
    sets.completed[id]? = table.completed? id := by
  refine (congrArg Row.completed (refines.rows id)).trans ?_
  unfold FlowTable.completed?
  rcases table.find? id with - | (_ | _ | _ | _) <;> rfl

theorem cancelled (refines : Refines settling sets table) (id : FlowId) :
    sets.cancelled[id]? = table.cancelled? id := by
  refine (congrArg Row.cancelled (refines.rows id)).trans ?_
  unfold FlowTable.cancelled?
  rcases table.find? id with - | (_ | _ | _ | _) <;> rfl

theorem waits (refines : Refines settling sets table) (id : FlowId) : sets.waits[id]? =
    if settling = some id then none else (table.suspended? id).map fun found => ⟨id, found.2⟩ := by
  refine (congrArg Row.wait (refines.rows id)).trans ?_
  unfold FlowTable.suspended?
  rcases table.find? id with - | (_ | _ | _ | _) <;> simp [Row.ofPhase?]

theorem isLive (refines : Refines settling sets table) (id : FlowId) :
    sets.isLive id = table.isLive id := by
  unfold FlowSets.isLive
  rw [TreeMap.contains_eq_isSome_getElem?, TreeMap.contains_eq_isSome_getElem?, refines.active,
    refines.suspended]
  unfold FlowTable.isLive FlowTable.live? FlowTable.active? FlowTable.suspended?
  rcases table.find? id with - | (_ | _ | _ | _) <;> rfl

/-- The wait that is being settled leads nowhere in the table, as it is gone from the sets. -/
theorem graph (refines : Refines settling sets table)
    (withdrawn : ∀ id, settling = some id → table.dependencies id = []) :
    sets.graph = table.graph := by
  unfold FlowSets.graph FlowTable.graph
  congr 1
  · exact funext refines.isLive
  · funext id
    unfold FlowSets.dependencies
    rw [refines.waits]
    by_cases here : settling = some id
    · rw [if_pos here]
      exact (withdrawn id here).symm
    · rw [if_neg here]
      unfold FlowTable.dependencies
      cases table.suspended? id <;> rfl

/-! ## One row changes -/

theorem change (refines : Refines settling sets table)
    (lastId : sets'.lastId = after.phases.size) (completions : sets'.completions = after.completions)
    (find : ∀ other, after.find? other = if other = id then phase? else table.find? other)
    (own : ∀ phase, phase? = some phase → phase.owner = id)
    (others : ∀ other, other ≠ id → sets'.row other = sets.row other)
    (here : sets'.row id = .ofPhase? settling' id phase?)
    (elsewhere : ∀ other, other ≠ id → (settling' = some other ↔ settling = some other)) :
    Refines settling' sets' after where
  lastId := lastId
  completions := completions
  rows other := by
    rw [find]
    by_cases same : other = id
    · rw [if_pos same, same, here]
    · rw [if_neg same, others other same, refines.rows]
      rcases table.find? other with - | (_ | _ | _ | _) <;>
        simp [Row.ofPhase?, elsewhere other same]
  owned other phase found := by
    rw [find] at found
    split at found
    next same => rw [same, own phase found]
    next => exact refines.owned other phase found

end Refines

/-! ## Cancelling -/

theorem cancellation_eq {flow : Flow σ} (own : flow.id = id) :
    { flow.cancellation parent caller tick with id } = flow.cancellation parent caller tick := by
  rw [Flow.cancellation, own]

theorem takeLive?_of_active (refines : Refines settling sets table) {flow : Flow σ}
    (found : table.find? id = some (.active flow)) :
    sets.takeLive? id = some (flow, { sets with active := sets.active.erase id }) := by
  unfold takeLive?
  rw [refines.active, FlowTable.active?_eq_some.2 found]

theorem takeLive?_of_suspended (refines : Refines settling sets table) {flow : Flow σ}
    (found : table.find? id = some (.suspended flow wait)) :
    sets.takeLive? id = some (flow, { sets with suspended := sets.suspended.erase id }) := by
  have inactive : table.active? id = none := by simp [FlowTable.active?, found]
  unfold takeLive?
  rw [refines.active, inactive, refines.suspended, FlowTable.suspended?_eq_some.2 found]
  rfl

theorem takeLive?_of_dead (refines : Refines settling sets table) (dead : table.live? id = none) :
    sets.takeLive? id = none := by
  have inactive : table.active? id = none := by
    cases found : table.active? id with
    | none => rfl
    | some flow =>
        rw [FlowTable.live?_eq_some.2 (.inl (FlowTable.active?_eq_some.1 found))] at dead
        cases dead
  have unsuspended : table.suspended? id = none := by
    cases found : table.suspended? id with
    | none => rfl
    | some pair =>
        rw [FlowTable.live?_eq_some.2 (.inr ⟨pair.2, FlowTable.suspended?_eq_some.1 found⟩)] at dead
        cases dead
  unfold takeLive?
  rw [refines.active, inactive, refines.suspended, unsuspended]
  rfl

theorem Refines.cancelled_put (refines : Refines settling sets table) {flow : Flow σ}
    (live : table.live? id = some flow) (parent : FlowId) (caller : Option Address) (tick : Tick) :
    ∃ middle, sets.takeLive? id = some (flow, middle) ∧ flow.id = id ∧
      Refines settling
        { middle with
          waits := middle.waits.erase id
          cancelled := middle.cancelled.insert id (flow.cancellation parent caller tick) }
        (table.put id (some (.cancelled (flow.cancellation parent caller tick)))) := by
  have rows := refines.rows id
  rcases FlowTable.live?_eq_some.1 live with found | ⟨wait, found⟩
  case' inl => refine ⟨_, takeLive?_of_active refines found, refines.owned id _ found, ?_⟩
  case' inr => refine ⟨_, takeLive?_of_suspended refines found, refines.owned id _ found, ?_⟩
  all_goals
    have own : flow.id = id := refines.owned id _ found
    apply refines.change (by simp [refines.lastId]) (by simp [refines.completions])
      (FlowTable.find?_put found)
    · rintro phase ⟨⟩
      exact own
    · intro other apart
      simp [row, TreeMap.getElem?_insert, TreeMap.getElem?_erase, Ne.symm apart]
    · simp_all [row, Row.ofPhase?]
    · exact fun _ _ => .rfl

theorem Refines.tearDown (refines : Refines settling sets table) (parent : FlowId)
    (caller : Option Address) (tick : Tick) (ids : List FlowId) :
    (FlowSets.tearDown parent caller tick ids sets).1 =
        (FlowTable.tearDown parent caller tick ids table).1 ∧
      Refines settling (FlowSets.tearDown parent caller tick ids sets).2
        (FlowTable.tearDown parent caller tick ids table).2 := by
  induction ids generalizing sets table with
  | nil => exact ⟨rfl, refines⟩
  | cons id ids ih =>
      rw [FlowSets.tearDown, FlowTable.tearDown]
      cases live : table.live? id with
      | none =>
          rw [takeLive?_of_dead refines live]
          exact ih refines
      | some flow =>
          obtain ⟨middle, taken, own, refines⟩ := refines.cancelled_put live parent caller tick
          obtain ⟨same, refines⟩ := ih refines
          rw [taken]
          simp only [cancellation_eq own]
          exact ⟨congrArg _ same, refines⟩

def Agrees (settling : Option FlowId) (sets : FlowSets σ) (table : FlowTable σ) : Prop :=
  Refines settling sets table ∧ ∀ id, settling = some id → table.dependencies id = []

theorem cancel_live (id parent : FlowId) (caller : Option Address) (tick : Tick) :
    Engine.Coupled
      (fun (sets : FlowSets σ) table => Agrees settling sets table ∧ table.isLive id = true)
      (cancel id parent caller tick) (FlowTable.cancel id parent caller tick)
      (fun a b sets table => a = b ∧ Agrees settling sets table) (fun _ _ => False) := by
  rintro sets table ⟨⟨refines, withdrawn⟩, live⟩
  have tree : sets.liveDescendants id = table.liveDescendants id := by
    rw [liveDescendants, refines.graph withdrawn, refines.lastId]
    rfl
  obtain ⟨same, refines'⟩ :=
    refines.tearDown parent caller tick (id :: table.liveDescendants id)
  rw [cancel, if_pos ((refines.isLive id).trans live), tree, FlowTable.cancel, if_pos live]
  refine ⟨same, refines', fun other here => List.eq_nil_iff_forall_not_mem.2 fun child member => ?_⟩
  -- What a flow still waits for after the others are gone, it waited for before.
  have kept := (FlowTable.spares_tearDown parent caller tick (id :: table.liveDescendants id)
    table other).dependencies member
  have member : child ∈ table.dependencies other := FlowTable.dependencies_congr kept ▸ member
  rw [withdrawn other here] at member
  cases member

theorem cancelLosers_coupled (winner : Option FlowId) (parent : FlowId) (caller : Address)
    (tick : Tick) (ids : List FlowId) :
    Engine.Coupled (Agrees settling) (cancelLosers winner parent caller tick ids)
      (FlowTable.cancelLosers winner parent caller tick ids)
      (fun a b (sets : FlowSets σ) table => a = b ∧ Agrees settling sets table)
      (fun _ _ => False) := by
  induction ids with
  | nil => exact Engine.Coupled.pure fun _ _ agrees => ⟨rfl, agrees⟩
  | cons id ids ih =>
      unfold cancelLosers FlowTable.cancelLosers
      refine Engine.Coupled.get fun sets table agrees => ?_
      have live : sets.isLive id = table.isLive id := agrees.1.isLive id
      have first : Engine.Coupled (fun left right => left = sets ∧ right = table)
          (if some id ≠ winner ∧ table.isLive id = true then cancel id parent (some caller) tick
            else pure [])
          (if some id ≠ winner ∧ table.isLive id = true then
              FlowTable.cancel id parent (some caller) tick
            else pure [])
          (fun a b sets table => a = b ∧ Agrees settling sets table) (fun _ _ => False) := by
        by_cases lost : some id ≠ winner ∧ table.isLive id = true
        · rw [if_pos lost, if_pos lost]
          rintro _ _ ⟨rfl, rfl⟩
          exact cancel_live id parent (some caller) tick _ _ ⟨agrees, lost.2⟩
        · rw [if_neg lost, if_neg lost]
          rintro _ _ ⟨rfl, rfl⟩
          exact ⟨rfl, agrees⟩
      simp only [live, Engine.ite_bind]
      refine first.bind fun cancelled cancelled' => ?_
      rintro left right ⟨rfl, agrees⟩
      refine (ih.bind fun rest rest' => Engine.Coupled.pure ?_) left right agrees
      rintro _ _ ⟨rfl, agrees⟩
      exact ⟨rfl, agrees⟩

/-! ## Settling waits -/

/-- On sets and a table that agree, both operations do the same. -/
def Implements {α : Type} (left : Engine (FlowSets σ) α) (right : Engine (FlowTable σ) α) : Prop :=
  Engine.Coupled (Refines none) left right (fun a b sets table => a = b ∧ Refines none sets table)
    (Refines none)

theorem Implements.pure {α : Type} (a : α) :
    Implements (σ := σ) (Pure.pure a) (Pure.pure a) :=
  Engine.Coupled.pure fun _ _ refines => ⟨rfl, refines⟩

theorem Implements.bind {α β : Type} {left : Engine (FlowSets σ) α} {right : Engine (FlowTable σ) α}
    {next : α → Engine (FlowSets σ) β} {next' : α → Engine (FlowTable σ) β}
    (head : Implements left right) (tail : ∀ a, Implements (next a) (next' a)) :
    Implements (left >>= next) (right >>= next') := by
  refine Engine.Coupled.bind head fun a b => ?_
  rintro sets table ⟨rfl, refines⟩
  exact tail a sets table refines

theorem Refines.released? (refines : Refines settling sets table) :
    sets.released? = table.released? := by
  funext id
  rw [FlowSets.released?, FlowTable.released?, refines.completed]

theorem Refines.firstCompleted? (refines : Refines settling sets table) (ids : List FlowId) :
    sets.firstCompleted? ids = table.firstCompleted? ids := by
  have completed : (fun id : FlowId => sets.completed[id]?) = table.completed? :=
    funext refines.completed
  unfold FlowSets.firstCompleted? FlowTable.firstCompleted?
  rewrite [completed]
  rfl

theorem Refines.outcome? (refines : Refines settling sets table) (wait : Wait) :
    sets.outcome? wait = table.outcome? wait := by
  unfold FlowSets.outcome? FlowTable.outcome?
  rw [refines.released?]
  cases kind : wait.strategy with
  | single => rfl
  | all => rfl
  | race =>
      simp only [refines.firstCompleted?]
      cases found : table.firstCompleted? wait.dependencies with
      | none => rfl
      | some winner =>
          obtain ⟨⟨id, -, done⟩, -⟩ := FlowTable.firstCompleted?_eq_some found
          have own : winner.id = id := refines.owned id _ (FlowTable.completed?_eq_some.1 done)
          have again : table.released? winner.id =
              some ⟨winner.id, winner.lastAddress, winner.value⟩ := by
            rw [FlowTable.released?, own, done, ← own]
            rfl
          simp [again]

theorem Refines.settled (refines : Refines (some id) sets table) (gone : table.suspended? id = none) :
    Refines none sets table where
  lastId := refines.lastId
  completions := refines.completions
  owned := refines.owned
  rows other := by
    rw [refines.rows other]
    by_cases same : other = id
    · subst same
      cases found : table.find? other with
      | none => rfl
      | some phase =>
          cases phase with
          | suspended flow wait => simp [FlowTable.suspended?, found] at gone
          | active | completed | cancelled => rfl
    · rcases table.find? other with - | (_ | _ | _ | _) <;> simp [Row.ofPhase?, Ne.symm same]

theorem resume_coupled (id : FlowId) (wait : Wait) (value : Json) (released : List Released)
    (tick : Tick) : Engine.Coupled (Refines (some id)) (resume ⟨id, wait⟩ value released tick)
      (FlowTable.resume id wait value released tick)
      (fun _ _ (sets : FlowSets σ) (table : FlowTable σ) => Refines none sets table)
      (Refines none) := by
  intro sets table refines
  have rows := refines.rows id
  cases waiting : table.suspended? id with
  | none =>
      simp only [resume, FlowTable.resume, refines.suspended, waiting, Option.map_none]
      exact ⟨rfl, refines.settled waiting⟩
  | some pair =>
      obtain ⟨flow, wait'⟩ := pair
      have found := FlowTable.suspended?_eq_some.1 waiting
      have own : flow.id = id := refines.owned id _ found
      simp only [resume, FlowTable.resume, refines.suspended, waiting, Option.map_some]
      cases pushed : flow.stack.modify 0 (·.push (.provideGiven value)) with
      -- The flow has left the one set and comes into no other.
      | error e =>
          refine ⟨rfl, refines.change ?_ ?_ (FlowTable.find?_put found) (by simp) ?_ ?_ ?_⟩
          · simp [refines.lastId]
          · simp [refines.completions]
          · intro other apart
            simp [row, TreeMap.getElem?_erase, Ne.symm apart]
          · simp_all [row, Row.ofPhase?]
          · intro other apart
            simp [Ne.symm apart]
      | ok stack =>
          refine refines.change ?_ ?_ (FlowTable.find?_put found) ?_ ?_ ?_ ?_
          · simp [refines.lastId]
          · simp [refines.completions]
          · rintro phase ⟨⟩
            exact own
          · intro other apart
            simp [row, TreeMap.getElem?_insert, TreeMap.getElem?_erase, Ne.symm apart]
          · simp_all [row, Row.ofPhase?]
          · intro other apart
            simp [Ne.symm apart]

theorem dropLosers_coupled (id : FlowId) (released : List Released) (tick : Tick)
    (refines : Refines (some id) sets table) {flow : Flow σ}
    (found : table.find? id = some (.suspended flow wait)) :
    Engine.Agree (fun a b sets table => a = b ∧ Refines (some id) sets table) (fun _ _ => False)
      (dropLosers id wait released tick sets) (FlowTable.dropLosers id wait released tick table) := by
  unfold dropLosers FlowTable.dropLosers
  by_cases race : wait.strategy = .race
  · rw [if_pos race, if_pos race]
    have here := FlowTable.find?_withdraw found
    have rows := refines.rows id
    -- In the table the wait is still there, but it leads to no flow while losers are looked for.
    have withdrawn : Refines (some id) sets (table.withdraw id) := by
      refine refines.change ?_ ?_ here ?_ (fun _ _ => rfl) ?_ (fun _ _ => .rfl)
      · rw [refines.lastId, FlowTable.size_withdraw]
      · rw [refines.completions, FlowTable.completions_withdraw]
      · rintro phase ⟨⟩
        exact refines.owned id (.suspended flow wait) found
      · rw [rows, found]
        simp [Row.ofPhase?]
    have agrees : Agrees (some id) sets (table.withdraw id) := by
      refine ⟨withdrawn, fun other same => ?_⟩
      obtain rfl := Option.some.inj same
      exact FlowTable.dependencies_of_suspended ((here id).trans (if_pos rfl))
    exact (cancelLosers_coupled _ id wait.caller tick wait.dependencies _ _ agrees).imp
      (fun _ _ _ _ reached => ⟨reached.1, reached.2.1⟩) fun _ _ impossible => impossible
  · rw [if_neg race, if_neg race]
    exact ⟨rfl, refines⟩

theorem settle_implements (id : FlowId) (tick : Tick) :
    Implements (σ := σ) (settle id tick) (FlowTable.settle id tick) := by
  intro sets table refines
  cases waiting : table.suspended? id with
  | none =>
      simp only [settle, FlowTable.settle, refines.waits, waiting, Option.map_none, ite_self]
      exact ⟨rfl, refines⟩
  | some pair =>
      obtain ⟨flow, wait⟩ := pair
      have found := FlowTable.suspended?_eq_some.1 waiting
      have known : sets.waits[id]? = some ⟨id, wait⟩ := by simp [refines.waits, waiting]
      simp only [settle, FlowTable.settle, known, waiting, refines.outcome?]
      cases outcome : table.outcome? wait with
      | none => exact ⟨rfl, refines⟩
      | some result =>
          obtain ⟨value, released⟩ := result
          have rows := refines.rows id
          -- The wait is the first thing to go. Until it resumes, the flow is the one being settled.
          have erased : Refines (some id) { sets with waits := sets.waits.erase id } table := by
            refine refines.change refines.lastId refines.completions ?_ (refines.owned id) ?_ ?_ ?_
            · intro other
              split
              next same => rw [same]
              next => rfl
            · intro other apart
              simp [row, TreeMap.getElem?_erase, Ne.symm apart]
            · rw [found] at rows ⊢
              simp_all [row, Row.ofPhase?]
            · intro other apart
              simp [Ne.symm apart]
          have dropped : Engine.Coupled
              (fun left right => left = { sets with waits := sets.waits.erase id } ∧ right = table)
              (dropLosers id wait released tick) (FlowTable.dropLosers id wait released tick)
              (fun a b sets table => a = b ∧ Refines (some id) sets table) (Refines none) := by
            rintro _ _ ⟨rfl, rfl⟩
            exact (dropLosers_coupled id released tick erased found).imp
              (fun _ _ _ _ reached => reached) fun _ _ impossible => impossible.elim
          refine (dropped.bind fun cancelled cancelled' => ?_) _ _ ⟨rfl, rfl⟩
          rintro left right ⟨rfl, refines⟩
          exact ((resume_coupled id wait value released tick).bind fun _ _ =>
            Engine.Coupled.pure fun _ _ refines => ⟨rfl, refines⟩) left right refines

theorem settleEach_implements (tick : Tick) (ids : List FlowId) :
    Implements (σ := σ) (settleEach tick ids) (FlowTable.settleEach tick ids) := by
  induction ids with
  | nil => exact .pure []
  | cons id ids ih =>
      exact (settle_implements id tick).bind fun cancelled => ih.bind fun later => .pure _

/-! ## Listing -/

namespace Refines

variable {α : Type} {map : TreeMap FlowId α} (field : Row σ → Option α)

theorem toList_eq (refines : Refines none sets table) (nothing : field {} = none)
    (same : ∀ id : FlowId, map[id]? = field (sets.row id)) :
    map.toList =
      table.collect fun id phase => (field (.ofPhase? none id (some phase))).map (id, ·) := by
  have ordered : map.toList.Pairwise fun first second => first.1 < second.1 :=
    TreeMap.ordered_keys_toList.imp fun before => Nat.compare_eq_lt.1 before
  have ordered' : (table.collect fun id phase =>
      (field (.ofPhase? none id (some phase))).map (id, ·)).Pairwise
        fun first second => first.1 < second.1 := by
    apply List.pairwise_map.1
    apply FlowTable.sorted_collect
    intro id phase entry seen
    obtain ⟨-, -, rfl⟩ := Option.map_eq_some_iff.1 seen
    rfl
  have irreflexive : Std.Irrefl fun (first second : FlowId × α) => first.1 < second.1 :=
    ⟨fun entry => Nat.lt_irrefl entry.1⟩
  apply ordered.eq_of_mem_iff ordered'
  rintro ⟨id, a⟩
  rw [TreeMap.mem_toList_iff_getElem?_eq_some, FlowTable.mem_collect, same, refines.rows]
  constructor
  · intro held
    cases found : table.find? id with
    | none =>
        rw [found] at held
        exact absurd (nothing.symm.trans held) (by simp)
    | some phase =>
        rw [found] at held
        exact ⟨id, phase, found, by simp [held]⟩
  · rintro ⟨other, phase, found, seen⟩
    obtain ⟨a', held, entry⟩ := Option.map_eq_some_iff.1 seen
    obtain ⟨rfl, rfl⟩ := Prod.mk.inj entry
    rw [found]
    exact held

theorem map_toList (refines : Refines none sets table) (nothing : field {} = none)
    (same : ∀ id : FlowId, map[id]? = field (sets.row id)) {β : Type} {see : FlowId × α → β}
    {view : FlowId → Phase σ → Option β} (sees : ∀ id phase, table.find? id = some phase →
      view id phase = (field (.ofPhase? none id (some phase))).map fun a => see (id, a)) :
    map.toList.map see = table.collect view := by
  rw [refines.toList_eq field nothing same]
  apply FlowTable.map_collect
  intro id phase found
  rw [sees id phase found, Option.map_map]
  rfl

theorem keys_eq (refines : Refines none sets table) (nothing : field {} = none)
    (same : ∀ id : FlowId, map[id]? = field (sets.row id)) {view : FlowId → Phase σ → Option FlowId}
    (sees : ∀ id phase, view id phase = (field (.ofPhase? none id (some phase))).map fun _ => id) :
    map.keys = table.collect view := by
  rw [← TreeMap.map_fst_toList_eq_keys]
  exact refines.map_toList field nothing same fun id phase _ => sees id phase

theorem keys_waits (refines : Refines none sets table) : sets.waits.keys = table.waiting := by
  apply refines.keys_eq Row.wait rfl fun _ => rfl
  intro id phase
  cases phase <;> rfl

theorem listing (refines : Refines none sets table) : sets.listing = table.listing := by
  have active : sets.active.keys = table.listing.active := by
    rw [FlowTable.active_collect]
    apply refines.keys_eq Row.active rfl fun _ => rfl
    intro id phase
    cases phase <;> rfl
  have suspended : sets.suspended.keys = table.listing.suspended := by
    apply refines.keys_eq Row.suspended rfl fun _ => rfl
    intro id phase
    cases phase <;> rfl
  have completed : sets.completed.keys = table.listing.completed := by
    apply refines.keys_eq Row.completed rfl fun _ => rfl
    intro id phase
    cases phase <;> rfl
  have cancelled : sets.cancelled.keys = table.listing.cancelled := by
    apply refines.keys_eq Row.cancelled rfl fun _ => rfl
    intro id phase
    cases phase <;> rfl
  unfold FlowSets.listing
  rw [active, suspended, completed, cancelled]

theorem activations (refines : Refines none sets table) : sets.activations = table.activations := by
  apply refines.map_toList Row.active rfl fun _ => rfl
  intro id phase found
  have own := refines.owned id phase found
  cases phase with
  | active flow =>
      obtain rfl : flow.id = id := own
      rfl
  | suspended | completed | cancelled => rfl

theorem activeSummaries (refines : Refines none sets table) :
    sets.activeSummaries = table.activeSummaries := by
  apply refines.map_toList Row.active rfl fun _ => rfl
  intro id phase _
  cases phase <;> rfl

theorem suspendedSummaries (refines : Refines none sets table) :
    sets.suspendedSummaries.map (fun (summary, placed) => (summary, placed.wait)) =
      table.suspendedSummaries := by
  unfold FlowSets.suspendedSummaries FlowTable.suspendedSummaries
  rw [refines.toList_eq Row.suspended rfl fun _ => rfl, FlowTable.collect_eq,
    FlowTable.collect_eq, List.filterMap_filterMap, List.map_filterMap]
  apply List.filterMap_congr
  intro id _
  cases found : table.find? id with
  | none => rfl
  | some phase =>
      have own := refines.owned id phase found
      cases phase with
      | suspended flow wait =>
          obtain rfl : flow.id = id := own
          have known : sets.waits[flow.id]? = some ⟨flow.id, wait⟩ := by
            simp [refines.waits, FlowTable.suspended?_eq_some.2 found]
          simp [Row.ofPhase?, known]
      | active | completed | cancelled => rfl

theorem completedFlows (refines : Refines none sets table) :
    sets.completedFlows = table.completedFlows := by
  apply refines.map_toList Row.completed rfl fun _ => rfl
  intro id phase _
  cases phase <;> rfl

theorem cancelledFlows (refines : Refines none sets table) :
    sets.cancelledFlows = table.cancelledFlows := by
  apply refines.map_toList Row.cancelled rfl fun _ => rfl
  intro id phase _
  cases phase <;> rfl

theorem hasLive (refines : Refines settling sets table) : sets.hasLive = table.hasLive := by
  rw [Bool.eq_iff_iff, ← not_iff_not, Bool.not_eq_true, Bool.not_eq_true, FlowTable.hasLive_eq_false]
  simp only [← refines.isLive]
  simp [FlowSets.hasLive, FlowSets.isLive, TreeMap.isEmpty_iff_forall_contains, forall_and]

end Refines

theorem resolve_implements (tick : Tick) :
    Implements (σ := σ) (resolve tick) (FlowTable.resolve tick) := by
  intro sets table refines
  rw [resolve, refines.keys_waits, FlowTable.resolve_eq]
  exact settleEach_implements tick table.waiting sets table refines

/-! ## The operations -/

theorem Refines.checkSuspension (refines : Refines settling sets table) (id : FlowId) (wait : Wait) :
    sets.checkSuspension ⟨id, wait⟩ = table.checkSuspension id wait := by
  unfold FlowSets.checkSuspension FlowTable.checkSuspension
  rewrite [TreeMap.contains_eq_isSome_getElem?, refines.suspended, Option.isSome_map, refines.active]
  rfl

theorem Refines.suspensionWarnings (refines : Refines settling sets table) (id : FlowId)
    (wait : Wait) : sets.suspensionWarnings ⟨id, wait⟩ = table.suspensionWarnings id wait := by
  have cancelled : sets.cancelled.contains = fun id => (table.cancelled? id).isSome := by
    funext id
    rw [TreeMap.contains_eq_isSome_getElem?, refines.cancelled]
  unfold FlowSets.suspensionWarnings FlowTable.suspensionWarnings
  rewrite [refines.checkSuspension, cancelled]
  rfl

theorem Refines.replace (refines : Refines none sets table) {flow : Flow σ}
    (active : table.active? id = some flow) (own : ∀ phase, phase? = some phase → phase.owner = id)
    (lastId : sets'.lastId = sets.lastId) (completions : sets'.completions = after.completions)
    (put : after.phases = (table.put id phase?).phases)
    (others : ∀ other, other ≠ id → sets'.row other = sets.row other)
    (here : sets'.row id = .ofPhase? none id phase?) : Refines none sets' after := by
  have found := FlowTable.active?_eq_some.1 active
  have find (other : FlowId) : after.find? other = (table.put id phase?).find? other := by
    cases other with
    | zero => rfl
    | succ n => rw [FlowTable.find?, FlowTable.find?, put]
  refine refines.change ?_ completions (fun other => ?_) own others here fun _ _ => .rfl
  · rw [lastId, refines.lastId, put, FlowTable.size_put]
  · rw [find, FlowTable.find?_put found]

theorem Refines.create (refines : Refines none sets table) (recipe : Recipe σ)
    (caller : Option Address) (isDependency : Bool) (tick : Tick) :
    (sets.create recipe caller isDependency tick).1 =
        (table.create recipe caller isDependency tick).1 ∧
      Refines none (sets.create recipe caller isDependency tick).2
        (table.create recipe caller isDependency tick).2 := by
  have new : sets.lastId + 1 = table.phases.size + 1 := congrArg (· + 1) refines.lastId
  have rows := refines.rows (table.phases.size + 1)
  rw [FlowTable.find?_eq_none_of_size_lt (Nat.lt_succ_self _)] at rows
  have find (other : FlowId) : (table.create recipe caller isDependency tick).2.find? other =
      if other = table.phases.size + 1 then
        some (.active (Flow.ofRecipe (table.phases.size + 1) recipe caller isDependency tick))
      else table.find? other := by
    rw [FlowTable.find?_create]
    split
    next last => rw [last]
    next => rfl
  refine ⟨new, refines.change ?_ refines.completions find ?_ ?_ ?_ fun _ _ => .rfl⟩
  · exact new.trans (Array.size_push ..).symm
  · rintro phase ⟨⟩
    rfl
  · intro other apart
    simp [FlowSets.create, row, new, TreeMap.getElem?_insert, Ne.symm apart]
  · simp_all [FlowSets.create, row, Row.ofPhase?]

theorem edit_implements (id : FlowId) (stack : Stack) :
    Implements (σ := σ) (do edit id fun flow => { flow with stack }; return [])
      (FlowTable.edit id stack) := by
  intro sets table refines
  have rows := refines.rows id
  show Engine.Agree _ _ (EStateM.bind (edit id _) _ sets) _
  unfold EStateM.bind edit FlowTable.edit
  rw [refines.active]
  cases active : table.active? id with
  | none => exact ⟨rfl, refines⟩
  | some flow =>
      have found := FlowTable.active?_eq_some.1 active
      refine ⟨rfl, refines.replace active ?_ rfl ?_ rfl ?_ ?_⟩
      · rintro phase ⟨⟩
        exact refines.owned id (.active flow) found
      · exact refines.completions.trans (FlowTable.completions_put ..).symm
      · intro other apart
        simp [row, TreeMap.getElem?_insert, Ne.symm apart]
      · simp_all [row, Row.ofPhase?]

theorem suspend_implements (id : FlowId) (wait : Wait) (tick : Tick) :
    Implements (σ := σ) (suspend ⟨id, wait⟩ tick) (FlowTable.suspend id wait tick) := by
  intro sets table refines
  have rows := refines.rows id
  unfold suspend FlowTable.suspend
  rw [refines.checkSuspension]
  cases checked : table.checkSuspension id wait with
  | error e => exact ⟨rfl, refines⟩
  | ok flow =>
      have active := (FlowTable.checkSuspension_eq_ok.1 checked).1
      have found := FlowTable.active?_eq_some.1 active
      refine resolve_implements tick _ _ (refines.replace active ?_ rfl ?_ rfl ?_ ?_)
      · rintro phase ⟨⟩
        exact refines.owned id (.active flow) found
      · exact refines.completions.trans (FlowTable.completions_put ..).symm
      · intro other apart
        simp [row, TreeMap.getElem?_insert, TreeMap.getElem?_erase, Ne.symm apart]
      · simp_all [row, Row.ofPhase?]

theorem complete_implements (id : FlowId) (value : Json) (lastAddress : Option Address)
    (tick : Tick) : Implements (σ := σ) (complete id value lastAddress tick)
      (FlowTable.complete id value lastAddress tick) := by
  intro sets table refines
  have rows := refines.rows id
  unfold complete FlowTable.complete
  rw [refines.active]
  cases active : table.active? id with
  | none => exact ⟨rfl, refines⟩
  | some flow =>
      have found := FlowTable.active?_eq_some.1 active
      rw [refines.completions]
      refine resolve_implements tick _ _ (refines.replace active ?_ rfl ?_ rfl ?_ ?_)
      · rintro phase ⟨⟩
        rfl
      · exact congrArg (· + 1) (FlowTable.completions_put ..).symm
      · intro other apart
        simp [row, TreeMap.getElem?_insert, TreeMap.getElem?_erase, Ne.symm apart]
      · simp_all [row, Row.ofPhase?]

theorem cancel_implements (id parent : FlowId) (caller : Option Address) (tick : Tick) :
    Implements (σ := σ) (cancel id parent caller tick) (FlowTable.cancel id parent caller tick) := by
  intro sets table refines
  cases live : table.isLive id with
  | true =>
      have agrees : Agrees none sets table := ⟨refines, fun _ impossible => by cases impossible⟩
      exact (cancel_live id parent caller tick sets table ⟨agrees, live⟩).imp
        (fun _ _ _ _ reached => ⟨reached.1, reached.2.1⟩) fun _ _ impossible => impossible.elim
  | false =>
      simp only [cancel, FlowTable.cancel, refines.isLive, live]
      exact ⟨rfl, refines⟩

end Cadence.FlowSets
