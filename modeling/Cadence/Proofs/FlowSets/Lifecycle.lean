import Cadence.Proofs.FlowSets.Refinement
/-!
The life of flows over any sequence of operations on the four sets and the table of waits, those
that fail included. A wait that cannot be resolved aborts an operation halfway, when its flow may be
out of one set and not yet in another, and what it has done by then stays done.
-/

namespace Cadence.FlowSets

open Std (TreeMap)
open FlowTable (Change)

variable {σ : Type} {sets after : FlowSets σ} {table : FlowTable σ} {id : FlowId}

def has (sets : FlowSets σ) (id : FlowId) : Standing → Bool
  | .active => sets.active.contains id
  | .suspended => sets.suspended.contains id
  | .completed => sets.completed.contains id
  | .cancelled => sets.cancelled.contains id

/-- A flow is in the set of its standing and in no other one. Without a standing it is in none. -/
def Stands (sets : FlowSets σ) (id : FlowId) (standing? : Option Standing) : Prop :=
  ∀ standing, sets.has id standing = true ↔ standing? = some standing

theorem Refines.stands (refines : Refines none sets table) (id : FlowId) :
    sets.Stands id (table.standing? id) := by
  intro standing
  unfold FlowTable.standing?
  cases standing with
  | active =>
      rw [has, TreeMap.contains_eq_isSome_getElem?, refines.active, FlowTable.active?]
      rcases table.find? id with - | (_ | _ | _ | _) <;> simp [Phase.standing]
  | suspended =>
      rw [has, TreeMap.contains_eq_isSome_getElem?, refines.suspended, FlowTable.suspended?]
      rcases table.find? id with - | (_ | _ | _ | _) <;> simp [Phase.standing]
  | completed =>
      rw [has, TreeMap.contains_eq_isSome_getElem?, refines.completed, FlowTable.completed?]
      rcases table.find? id with - | (_ | _ | _ | _) <;> simp [Phase.standing]
  | cancelled =>
      rw [has, TreeMap.contains_eq_isSome_getElem?, refines.cancelled, FlowTable.cancelled?]
      rcases table.find? id with - | (_ | _ | _ | _) <;> simp [Phase.standing]

def run : Change σ → Engine (FlowSets σ) (List Cancellation)
  | .create recipe caller isDependency tick =>
    fun sets => .ok [] (sets.create recipe caller isDependency tick).2
  | .edit id stack => do
    edit id fun flow => { flow with stack }
    return []
  | .suspend id wait tick => suspend ⟨id, wait⟩ tick
  | .complete id value lastAddress tick => complete id value lastAddress tick
  | .cancel id parent caller tick => cancel id parent caller tick

theorem run_implements (change : Change σ) : Implements (run change) change.apply := by
  cases change with
  | create recipe caller isDependency tick =>
      exact fun sets table refines => ⟨rfl, (refines.create recipe caller isDependency tick).2⟩
  | edit id stack => exact edit_implements id stack
  | suspend id wait tick => exact suspend_implements id wait tick
  | complete id value lastAddress tick => exact complete_implements id value lastAddress tick
  | cancel id parent caller tick => exact cancel_implements id parent caller tick

def attempt (change : Change σ) (sets : FlowSets σ) : FlowSets σ :=
  Engine.after (run change) sets

theorem Refines.attempt (refines : Refines none sets table) (change : Change σ) :
    Refines none (FlowSets.attempt change sets) (change.attempt table) := by
  have agree := run_implements change sets table refines
  unfold FlowSets.attempt FlowTable.Change.attempt Engine.after
  cases left : run change sets with
  | ok a sets' =>
      cases right : change.apply table with
      | ok b table' =>
          rw [left, right] at agree
          exact agree.2
      | error e table' => simp [left, right, Engine.Agree] at agree
  | error e sets' =>
      cases right : change.apply table with
      | ok b table' => simp [left, right, Engine.Agree] at agree
      | error e' table' =>
          rw [left, right] at agree
          exact agree.2

def created (change : Change σ) (sets : FlowSets σ) : List FlowId :=
  match change with
  | .create recipe caller isDependency tick => [(sets.create recipe caller isDependency tick).1]
  | _ => []

def finishing (before after : FlowSets σ) : List FlowId :=
  after.completed.keys.filter fun id => !before.completed.contains id

structure Ledger (σ : Type) where
  sets : FlowSets σ := empty
  created : List FlowId := []
  finished : List FlowId := []

def Ledger.record (ledger : Ledger σ) (change : Change σ) : Ledger σ where
  sets := attempt change ledger.sets
  created := ledger.created ++ FlowSets.created change ledger.sets
  finished := ledger.finished ++ finishing ledger.sets (attempt change ledger.sets)

def ledger (changes : List (Change σ)) : Ledger σ :=
  changes.foldl Ledger.record {}

structure Ledger.Follows (ledger : Ledger σ) (model : FlowTable.Ledger σ) : Prop where
  sets : Refines none ledger.sets model.table
  created : ledger.created = model.created
  finished : ledger.finished = model.finished

theorem Refines.created (refines : Refines none sets table) (change : Change σ) :
    FlowSets.created change sets = change.created table := by
  cases change with
  | create recipe caller isDependency tick =>
      exact congrArg (fun id => [id]) (refines.create recipe caller isDependency tick).1
  | edit | suspend | complete | cancel => rfl

theorem Refines.finishing {later : FlowTable σ} (refines : Refines none sets table)
    (refines' : Refines none after later) :
    FlowSets.finishing sets after = FlowTable.finishing table later := by
  have keys : after.completed.keys = later.listing.completed :=
    congrArg FlowListing.completed refines'.listing
  unfold FlowSets.finishing FlowTable.finishing
  rw [keys]
  simp only [TreeMap.contains_eq_isSome_getElem?, refines.completed, Option.not_isSome]

theorem Ledger.Follows.record {ledger : Ledger σ} {model : FlowTable.Ledger σ}
    (follows : ledger.Follows model) (change : Change σ) :
    (ledger.record change).Follows (model.record change) where
  sets := follows.sets.attempt change
  created := by rw [Ledger.record, FlowTable.Ledger.record, follows.created, follows.sets.created]
  finished := by
    rw [Ledger.record, FlowTable.Ledger.record, follows.finished,
      follows.sets.finishing (follows.sets.attempt change)]

theorem follows_ledger (changes : List (Change σ)) :
    (ledger changes).Follows (FlowTable.ledger changes) := by
  induction changes using List.reverseRecOn with
  | nil => exact ⟨refines_empty, rfl, rfl⟩
  | append_singleton past change ih =>
      rw [ledger, FlowTable.ledger, List.foldl_append, List.foldl_append]
      exact ih.record change

/-- Every flow is recorded under its own id, and the suspended ones are those that have a wait. -/
structure InStep (sets : FlowSets σ) : Prop where
  active : ∀ (id : FlowId) flow, sets.active[id]? = some flow → flow.id = id
  suspended : ∀ (id : FlowId) flow, sets.suspended[id]? = some flow → flow.id = id
  completed : ∀ (id : FlowId) done, sets.completed[id]? = some done → done.id = id
  cancelled : ∀ (id : FlowId) gone, sets.cancelled[id]? = some gone → gone.id = id
  waits : sets.waits.keys = sets.suspended.keys
  placed : ∀ (id : FlowId) placed, sets.waits[id]? = some placed → placed.flow = id

theorem Refines.inStep (refines : Refines none sets table) : sets.InStep where
  active id flow held := by
    rw [refines.active, FlowTable.active?_eq_some] at held
    exact refines.owned id _ held
  suspended id flow held := by
    rw [refines.suspended, Option.map_eq_some_iff] at held
    obtain ⟨⟨flow, wait⟩, waiting, rfl⟩ := held
    exact refines.owned id _ (FlowTable.suspended?_eq_some.1 waiting)
  completed id done held := by
    rw [refines.completed, FlowTable.completed?_eq_some] at held
    exact refines.owned id _ held
  cancelled id gone held := by
    rw [refines.cancelled, FlowTable.cancelled?_eq_some] at held
    exact refines.owned id _ held
  waits := refines.keys_waits.trans (congrArg FlowListing.suspended refines.listing).symm
  placed id placed held := by
    rw [refines.waits, if_neg (by simp), Option.map_eq_some_iff] at held
    obtain ⟨pair, -, rfl⟩ := held
    rfl

structure Lifecycle (changes : List (Change σ)) : Prop where
  created : (ledger changes).created = List.range' 1 (ledger changes).created.length
  partition : (ledger changes).sets.listing.ids.Perm (ledger changes).created
  inStep : (ledger changes).sets.InStep
  moves : ∀ past change rest, changes = past ++ change :: rest → ∀ id, ∃ first last,
    (ledger past).sets.Stands id first ∧ (ledger (past ++ [change])).sets.Stands id last ∧
      Standing.Next first last
  completed : ∀ past rest, changes = past ++ rest → ∀ (id : FlowId) done,
    (ledger past).sets.completed[id]? = some done →
      (ledger changes).sets.completed[id]? = some done
  cancelled : ∀ past rest, changes = past ++ rest → ∀ (id : FlowId) gone,
    (ledger past).sets.cancelled[id]? = some gone →
      (ledger changes).sets.cancelled[id]? = some gone
  finished : (ledger changes).finished.Perm (ledger changes).sets.completed.keys
  orders : (ledger changes).finished.map
      (fun id => ((ledger changes).sets.completed[id]?).map Completion.order) =
    (List.range' 1 (ledger changes).finished.length).map some

/-- The life of flows, whatever operations there are and whichever of them fail. -/
theorem flows_keep_to_lifecycle (changes : List (Change σ))
    (keeps : ∀ change ∈ changes, change.KeepsRecords) : Lifecycle changes := by
  have kept := FlowTable.kept_ledger keeps
  have follows := follows_ledger changes
  constructor
  case created => rw [follows.created, kept.created, List.length_range']
  case partition =>
    rw [follows.sets.listing, follows.created, kept.created]
    exact FlowTable.perm_ids fun id member => kept.present id (kept.created ▸ member)
  case inStep => exact follows.sets.inStep
  -- Where a flow stands in the sets is read off the table, which has one place for it.
  case moves =>
    rintro past change rest rfl id
    have earlier : ∀ change ∈ past, change.KeepsRecords :=
      fun c member => keeps c (List.mem_append_left _ member)
    refine ⟨_, _, (follows_ledger past).sets.stands id,
      (follows_ledger (past ++ [change])).sets.stands id, ?_⟩
    rw [FlowTable.ledger_concat]
    exact FlowTable.attempt_standing (FlowTable.kept_ledger earlier).upright
      (keeps change (by simp)) id
  case completed =>
    rintro past rest rfl id done held
    rw [(follows_ledger past).sets.completed, FlowTable.completed?_eq_some] at held
    rw [follows.sets.completed, FlowTable.completed?_eq_some]
    exact FlowTable.ledger_ended keeps held (.inl rfl)
  case cancelled =>
    rintro past rest rfl id gone held
    rw [(follows_ledger past).sets.cancelled, FlowTable.cancelled?_eq_some] at held
    rw [follows.sets.cancelled, FlowTable.cancelled?_eq_some]
    exact FlowTable.ledger_ended keeps held (.inr rfl)
  case finished =>
    have keys := congrArg FlowListing.completed follows.sets.listing
    rw [follows.finished]
    exact kept.finished.trans (.of_eq keys.symm)
  case orders =>
    simp only [follows.finished, follows.sets.completed]
    exact kept.orders

/--
Flow 1 races flow 2 and itself and is cancelled by its own race; flows 3 and 4 wait for each other.
Six of the operations fail, one of them halfway, when flow 1 can no longer resume.
-/
def selfRace : List (Change Unit) :=
  let start : Change Unit := .create ⟨"flow", [], ()⟩ none false 0
  let on (strategy : Strategy) (ids : List FlowId) : Wait := ⟨strategy, ⟨"object", 0⟩, true, ids, 0⟩
  [start, start, start, start, start, .suspend 1 (on .race [1, 2]) 0, .suspend 3 (on .single [4]) 0,
    .suspend 4 (on .single [3]) 0, .complete 9 .null none 0, .suspend 3 (on .single [5]) 0,
    .complete 2 (.int 7) none 1, .complete 5 .null none 1, .complete 2 .null none 1,
    .suspend 5 (on .all []) 1, .cancel 1 5 none 1, start, .suspend 6 (on .all [2, 5]) 2]

theorem selfRace_keeps_to_lifecycle :
    (∀ change ∈ selfRace, change.KeepsRecords) ∧ Lifecycle selfRace ∧
      (ledger selfRace).finished = [2, 5] ∧
      (ledger selfRace).sets.waits.keys = [3, 4] ∧
      (ledger selfRace).sets.cancelled.keys = [1] := by
  have keeps : ∀ change ∈ selfRace, change.KeepsRecords := by simp [selfRace, Change.KeepsRecords]
  exact ⟨keeps, flows_keep_to_lifecycle selfRace keeps, rfl, rfl, rfl⟩

end Cadence.FlowSets
