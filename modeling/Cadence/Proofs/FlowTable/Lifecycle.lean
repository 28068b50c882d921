import Cadence.Proofs.FlowTable.History
import Cadence.Simulation.Entities
import Mathlib.Data.List.Induction
/-!
The life of flows over any sequence of operations on a table, those that fail included. A wait
that cannot be resolved aborts an operation halfway, and what it has done by then stays done.
-/

namespace Cadence

inductive Standing where
  | active
  | suspended
  | completed
  | cancelled
  deriving DecidableEq

def Phase.standing {σ : Type} : Phase σ → Standing
  | active _ => .active
  | suspended _ _ => .suspended
  | completed _ => .completed
  | cancelled _ => .cancelled

def Phase.owner {σ : Type} : Phase σ → FlowId
  | active flow | suspended flow _ => flow.id
  | completed completion => completion.id
  | cancelled cancellation => cancellation.id

/-- How a flow may change its set; a flow that is not yet created is in none. -/
inductive Standing.Next : Option Standing → Option Standing → Prop
  | stays (standing : Option Standing) : Next standing standing
  | create : Next none (some active)
  | suspend : Next (some active) (some suspended)
  | resume : Next (some suspended) (some active)
  | complete : Next (some active) (some completed)
  | cancelActive : Next (some active) (some cancelled)
  | cancelSuspended : Next (some suspended) (some cancelled)

theorem Standing.Next.ne_none {first : Standing} {last : Option Standing}
    (next : Next (some first) last) : last ≠ none := by
  cases next <;> exact Option.some_ne_none _

def FlowListing.ids (listing : FlowListing) : List FlowId :=
  listing.active ++ (listing.suspended ++ (listing.completed ++ listing.cancelled))

namespace FlowTable

variable {σ : Type} {table before after : FlowTable σ} {tick : Tick} {id : Nat} {flow : Flow σ}
  {wait : Wait} {value : Json} {released : List Released} {change : Change σ} {e : EngineError}

def standing? (table : FlowTable σ) (id : FlowId) : Option Standing :=
  (table.find? id).map Phase.standing

/-! ## Waits that cannot be resolved -/

def Upright (table : FlowTable σ) : Prop :=
  ∀ id flow, table.live? id = some flow → flow.stack.records ≠ []

theorem Upright.settled (upright : table.Upright) (settled : Settled table tick after) :
    after.Upright := by
  intro id flow live
  obtain ⟨old, lived, same | ⟨stack, resumption, value, pushed, rfl⟩⟩ := settled.of_live live
  · exact same ▸ upright id old lived
  · obtain ⟨top, below, -, rfl⟩ := Stack.modify_top_ok pushed
    exact List.cons_ne_nil _ _

theorem resume_error (failed : resume id wait value released tick table = .error e after) :
    (table.suspended? id = none ∧ e = .resumeWithoutSuspension id ∧ after = table) ∨
      ∃ flow wait', table.find? id = some (.suspended flow wait') ∧ flow.stack.records = [] ∧
        e = .stackPeekOutOfRange flow.stack.flow 0 0 ∧ after = table.put id none := by
  cases waiting : table.suspended? id with
  | none =>
      simp only [resume, waiting] at failed
      injection failed with cause same
      exact .inl ⟨rfl, cause.symm, same.symm⟩
  | some pair =>
      obtain ⟨flow, wait'⟩ := pair
      cases records : flow.stack.records with
      | nil =>
          have unpushed : flow.stack.modify 0 (·.push (.provideGiven value)) =
              .error (.stackPeekOutOfRange flow.stack.flow 0 0) := by
            simp [Stack.modify, records]
          simp only [resume, waiting, unpushed] at failed
          injection failed with cause same
          exact .inr ⟨flow, wait', suspended?_eq_some.1 waiting, records, cause.symm, same.symm⟩
      | cons top below =>
          rw [resume_eq (suspended?_eq_some.1 waiting) (Stack.modify_top records _)] at failed
          cases failed

theorem find?_decided_of_torn (found : table.find? id = some (.suspended flow wait))
    (torn : (table.decided id wait released tick).suspended? id = none) :
    wait.strategy = .race ∧ ∃ parent caller, (table.decided id wait released tick).find? id =
      some (.cancelled (flow.cancellation parent caller tick)) := by
  unfold decided at torn ⊢
  by_cases race : wait.strategy = .race
  · rw [if_pos race] at torn ⊢
    have spares := spares_tearDownLosers (released.head?.map Released.flow) id wait.caller tick
      wait.dependencies (table.withdraw id) id
    rw [find?_withdraw found, if_pos rfl] at spares
    unfold suspended? at torn
    generalize FlowTable.find? (tearDownLosers _ _ _ _ _ _).2 id = last at spares torn ⊢
    cases spares with
    | same => cases torn
    | suspended _ _ parent caller => exact ⟨race, parent, caller, rfl⟩
  · rw [if_neg race, suspended?_eq_some.2 found] at torn
    cases torn

theorem settled_decided (found : table.find? id = some (.suspended flow wait))
    (torn : (table.decided id wait released tick).suspended? id = none) :
    Settled table tick (table.decided id wait released tick) where
  size := size_decided ..
  completions := completions_decided ..
  phases other := by
    by_cases same : other = id
    · obtain ⟨-, parent, caller, known⟩ := find?_decided_of_torn found torn
      rw [same, found, known]
      exact .spared (.suspended flow wait parent caller)
    · exact .spared (spares_decided found same)

theorem settle_error (upright : table.Upright) (failed : settle id tick table = .error e after) :
    Settled table tick after := by
  obtain ⟨flow, wait, value, released, found, -, unresumed⟩ := settle_fails failed
  rcases resume_error unresumed with ⟨torn, -, rfl⟩ | ⟨flow', wait', still, empty, -⟩
  · exact settled_decided found torn
  · obtain rfl := decided_self found still
    exact absurd empty (upright id _ (live?_eq_some.2 (.inr ⟨wait, found⟩)))

theorem settleEach_leaves (ids : List FlowId) (upright : table.Upright) :
    Engine.Triple (Settled table tick) (settleEach tick ids) (fun _ => Settled table tick)
      (fun _ => Settled table tick) := by
  induction ids with
  | nil => exact Engine.Triple.pure fun _ settled => settled
  | cons id ids ih =>
      have first : Engine.Triple (Settled table tick) (settle id tick) (fun _ => Settled table tick)
          (fun _ => Settled table tick) := by
        intro middle settled
        cases done : settle id tick middle with
        | ok cancelled after => exact settled.trans (settle_ok done).1
        | error e after => exact settled.trans (settle_error (upright.settled settled) done)
      apply first.bind
      intro cancelled
      exact ih.bind fun later => Engine.Triple.pure fun _ settled => settled

theorem settled_resolve (upright : table.Upright) (tick : Tick) :
    Settled table tick (Engine.after (resolve tick) table) := by
  have leaves := settleEach_leaves table.ready upright table (Settled.refl table tick)
  unfold Engine.after resolve
  cases done : settleEach tick table.ready table with
  | ok cancelled after => rwa [done] at leaves
  | error e after => rwa [done] at leaves

/-! ## One operation -/

/-- An edit leaves a record on the stack. The other operations leave stacks alone. -/
def Change.KeepsRecords : Change σ → Prop
  | .edit _ stack => stack.records ≠ []
  | _ => True

/-- What an operation itself makes of the phase of a flow, before waits are settled. -/
inductive Change.Marks : Change σ → FlowId → Option (Phase σ) → Option (Phase σ) → Prop
  | same (change : Change σ) (id : FlowId) (phase : Option (Phase σ)) : Marks change id phase phase
  | created (recipe : Recipe σ) (caller : Option Address) (isDependency : Bool) (tick : Tick)
      (id : FlowId) :
      Marks (.create recipe caller isDependency tick) id none
        (some (.active (Flow.ofRecipe id recipe caller isDependency tick)))
  | edited (id : FlowId) (stack : Stack) (flow : Flow σ) :
      Marks (.edit id stack) id (some (.active flow)) (some (.active { flow with stack }))
  | suspended (id : FlowId) (wait : Wait) (tick : Tick) (flow : Flow σ) :
      Marks (.suspend id wait tick) id (some (.active flow)) (some (.suspended flow wait))
  | completed (id : FlowId) (value : Json) (lastAddress : Option Address) (tick : Tick)
      (flow : Flow σ) (completion : Completion) (own : completion.id = id) :
      Marks (.complete id value lastAddress tick) id (some (.active flow))
        (some (.completed completion))

theorem marks_put {other : Nat} {phase : Option (Phase σ)}
    (active : table.find? id = some (.active flow))
    (marks : change.Marks id (some (.active flow)) phase) :
    change.Marks other (table.find? other) ((table.put id phase).find? other) := by
  rw [find?_put active]
  by_cases same : other = id
  · rw [if_pos same, same, active]
    exact marks
  · rw [if_neg same]
    exact .same ..

theorem recorded_marks (change : Change σ) (table : FlowTable σ) (other : Nat) :
    change.Marks other (table.find? other) ((change.recorded table).find? other) := by
  cases change with
  | create recipe caller isDependency tick =>
      rw [Change.recorded, find?_create]
      by_cases last : other = table.phases.size + 1
      · rw [if_pos last, find?_eq_none_of_size_lt (by omega)]
        exact .created ..
      · rw [if_neg last]
        exact .same ..
  | edit id stack =>
      cases found : table.active? id with
      | none =>
          simp only [Change.recorded, found]
          exact .same ..
      | some flow =>
          simp only [Change.recorded, found]
          exact marks_put (active?_eq_some.1 found) (.edited ..)
  | suspend id wait tick =>
      cases found : table.active? id with
      | none =>
          simp only [Change.recorded, found]
          exact .same ..
      | some flow =>
          simp only [Change.recorded, found]
          exact marks_put (active?_eq_some.1 found) (.suspended ..)
  | complete id value lastAddress tick =>
      cases found : table.active? id with
      | none =>
          simp only [Change.recorded, found]
          exact .same ..
      | some flow =>
          simp only [Change.recorded, found]
          exact marks_put (active?_eq_some.1 found) (.completed _ _ _ _ _ _ rfl)
  | cancel => exact .same ..

theorem upright_recorded (upright : table.Upright) (keeps : change.KeepsRecords) :
    (change.recorded table).Upright := by
  intro id flow live
  have marks := recorded_marks change table id
  have before := upright id
  unfold live? at live before
  generalize table.find? id = first at marks before
  generalize (change.recorded table).find? id = last at marks live
  cases marks with
  | same => exact before flow live
  | created =>
      obtain rfl := Option.some.inj live
      exact List.cons_ne_nil _ _
  | edited =>
      obtain rfl := Option.some.inj live
      exact keeps
  | suspended => exact before flow live
  | completed => cases live

def Change.attempt (change : Change σ) (table : FlowTable σ) : FlowTable σ :=
  Engine.after change.apply table

theorem attempt_settled (upright : before.Upright) (keeps : change.KeepsRecords) :
    change.attempt before = before ∨
      ∃ tick, Settled (change.recorded before) tick (change.attempt before) := by
  have upright' := upright_recorded upright keeps
  unfold Change.attempt Engine.after
  -- What fails has been refused, which changes nothing, or has failed in settling waits.
  cases done : change.apply before with
  | ok cancelled after => exact .inr (apply_settled done)
  | error e after =>
      cases change with
      | create => cases done
      | edit id stack =>
          simp only [Change.apply, edit] at done
          split at done
          next missing =>
            injection done with _ same
            exact .inl same.symm
          next => cases done
      | suspend id wait tick =>
          simp only [Change.apply, suspend] at done
          split at done
          next e refused =>
            injection done with _ same
            exact .inl same.symm
          next flow checked =>
            simp only [Change.recorded, (checkSuspension_eq_ok.1 checked).1] at upright' ⊢
            have settled := settled_resolve upright' tick
            rw [Engine.after, done] at settled
            exact .inr ⟨tick, settled⟩
      | complete id value lastAddress tick =>
          simp only [Change.apply, complete] at done
          split at done
          next missing =>
            injection done with _ same
            exact .inl same.symm
          next flow found =>
            simp only [Change.recorded, found] at upright' ⊢
            have settled := settled_resolve upright' tick
            rw [completions_put] at done
            rw [Engine.after, done] at settled
            exact .inr ⟨tick, settled⟩
      | cancel id parent caller tick =>
          simp only [Change.apply, cancel] at done
          split at done
          next live => cases done
          next dead =>
            injection done with _ same
            exact .inl same.symm

theorem upright_attempt (upright : before.Upright) (keeps : change.KeepsRecords) :
    (change.attempt before).Upright := by
  rcases attempt_settled upright keeps with same | ⟨tick, settled⟩
  · rwa [same]
  · exact (upright_recorded upright keeps).settled settled

theorem attempt_phases (upright : before.Upright) (keeps : change.KeepsRecords) (id : Nat) :
    ∃ (middle : Option (Phase σ)) (reference : FlowTable σ) (tick : Tick),
      change.Marks id (before.find? id) middle ∧
        Settles reference tick middle ((change.attempt before).find? id) ∧
        (before.find? id = none → (change.attempt before).find? id = middle) := by
  rcases attempt_settled upright keeps with same | ⟨tick, settled⟩
  · rw [same]
    exact ⟨_, before, 0, .same .., .spared (.same _), fun _ => rfl⟩
  · have marks := recorded_marks change before id
    have settles := settled.phases id
    refine ⟨_, _, tick, marks, settles, fun absent => ?_⟩
    cases change with
    | create => rfl
    | edit | suspend | complete | cancel =>
        rw [absent] at marks
        generalize (Change.recorded _ before).find? id = middle at marks settles ⊢
        generalize (Change.attempt _ before).find? id = last at settles ⊢
        cases marks with
        | same => cases settles with | spared spares => cases spares with | same => rfl

theorem attempt_standing (upright : before.Upright) (keeps : change.KeepsRecords) (id : Nat) :
    Standing.Next (before.standing? id) ((change.attempt before).standing? id) := by
  obtain ⟨middle, reference, tick, marks, settles, new⟩ := attempt_phases upright keeps id
  unfold standing?
  generalize before.find? id = first at marks new
  generalize (change.attempt before).find? id = last at settles new
  cases marks with
  | same =>
      cases settles with
      | spared spares => cases spares <;> constructor
      | resumed => constructor
  | created =>
      rw [new rfl]
      exact .create
  | edited =>
      cases settles with
      | spared spares => cases spares <;> constructor
  | suspended =>
      cases settles with
      | spared spares => cases spares <;> constructor
      | resumed => exact .stays _
  | completed =>
      cases settles with
      | spared spares => cases spares with | same => exact .complete

theorem Change.Marks.owner {first last : Option (Phase σ)} (marks : change.Marks id first last)
    (owned : ∀ phase, first = some phase → phase.owner = id) :
    ∀ phase, last = some phase → phase.owner = id := by
  rintro phase rfl
  cases marks with
  | same => exact owned phase rfl
  | created => rfl
  | edited _ _ flow => exact owned (.active flow) rfl
  | suspended _ _ _ flow => exact owned (.active flow) rfl
  | completed _ _ _ _ _ _ own => exact own

theorem attempt_owner (upright : before.Upright) (keeps : change.KeepsRecords)
    (owned : ∀ phase, before.find? id = some phase → phase.owner = id) :
    ∀ phase, (change.attempt before).find? id = some phase → phase.owner = id := by
  obtain ⟨middle, reference, tick, marks, settles, -⟩ := attempt_phases upright keeps id
  have between := marks.owner owned
  generalize (change.attempt before).find? id = last at settles
  rintro phase rfl
  cases settles with
  | spared spares =>
      cases spares with
      | same => exact between phase rfl
      | active flow => exact between (.active flow) rfl
      | suspended flow wait => exact between (.suspended flow wait) rfl
  | @resumed flow wait => exact between (.suspended flow wait) rfl

theorem attempt_ended (upright : before.Upright) (keeps : change.KeepsRecords) {phase : Phase σ}
    (found : before.find? id = some phase)
    (ended : phase.standing = .completed ∨ phase.standing = .cancelled) :
    (change.attempt before).find? id = some phase := by
  obtain ⟨middle, reference, tick, marks, settles, -⟩ := attempt_phases upright keeps id
  rw [found] at marks
  generalize (change.attempt before).find? id = last at settles
  cases phase with
  | active => rcases ended with h | h <;> cases h
  | suspended => rcases ended with h | h <;> cases h
  | completed =>
      cases marks with
      | same => cases settles with | spared spares => cases spares with | same => rfl
  | cancelled =>
      cases marks with
      | same => cases settles with | spared spares => cases spares with | same => rfl

/-! ## Completions -/

def finishing (before after : FlowTable σ) : List FlowId :=
  after.listing.completed.filter fun id => (before.completed? id).isNone

theorem mem_completed : id ∈ table.listing.completed ↔ ∃ done, table.completed? id = some done := by
  unfold listing
  rw [mem_collect]
  constructor
  · rintro ⟨id', phase, found, seen⟩
    cases phase with
    | completed done =>
        obtain rfl : id' = id := by simpa using seen
        exact ⟨done, completed?_eq_some.2 found⟩
    | active => cases seen
    | suspended => cases seen
    | cancelled => cases seen
  · rintro ⟨done, found⟩
    exact ⟨id, _, completed?_eq_some.1 found, rfl⟩

theorem mem_finishing : id ∈ finishing before after ↔
    (∃ done, after.completed? id = some done) ∧ before.completed? id = none := by
  simp [finishing, mem_completed]

theorem nodup_completed (table : FlowTable σ) : table.listing.completed.Nodup := by
  have sorted : (table.listing.completed.map fun id => id).Pairwise (· < ·) := by
    refine sorted_collect fun id phase id' seen => ?_
    cases phase with
    | completed => exact (Option.some.inj seen).symm
    | active => cases seen
    | suspended => cases seen
    | cancelled => cases seen
  rw [List.map_id'] at sorted
  exact sorted.imp Nat.ne_of_lt

theorem finishing_of_same (same : ∀ id, after.completed? id = before.completed? id) :
    finishing before after = [] := by
  rw [List.eq_nil_iff_forall_not_mem]
  intro id member
  obtain ⟨⟨done, found⟩, unfinished⟩ := mem_finishing.1 member
  rw [same, unfinished] at found
  cases found

theorem finishing_of_completion {completion : Completion} (unfinished : before.completed? id = none)
    (finished : ∀ other, after.completed? other =
      if other = id then some completion else before.completed? other) :
    finishing before after = [id] := by
  rw [← List.perm_singleton]
  apply (List.perm_ext_iff_of_nodup ((nodup_completed after).filter _) (by simp)).2
  intro other
  rw [List.mem_singleton]
  refine mem_finishing.trans ?_
  by_cases same : other = id
  · simp [finished, same, unfinished]
  · simp +contextual [finished, same]

/-- From one table to another no flow completes, or one does and takes the next place. -/
inductive Finishes (before after : FlowTable σ) : Prop
  | nothing (count : after.completions = before.completions)
      (same : ∀ id, after.completed? id = before.completed? id)
  | flow (id : Nat) (completion : Completion) (unfinished : before.completed? id = none)
      (order : completion.order = before.completions + 1)
      (count : after.completions = before.completions + 1)
      (finished : ∀ other, after.completed? other =
        if other = id then some completion else before.completed? other)

theorem finishes_recorded (change : Change σ) (table : FlowTable σ) :
    Finishes table (change.recorded table) := by
  have refl : Finishes table table := .nothing rfl fun _ => rfl
  cases change with
  | create recipe caller isDependency tick => exact .nothing rfl fun _ => completed?_create ..
  | edit id stack =>
      cases found : table.active? id with
      | none => simpa only [Change.recorded, found] using refl
      | some flow =>
          simp only [Change.recorded, found]
          exact .nothing (completions_put ..) (completed?_put (active?_eq_some.1 found) (by simp))
  | suspend id wait tick =>
      cases found : table.active? id with
      | none => simpa only [Change.recorded, found] using refl
      | some flow =>
          simp only [Change.recorded, found]
          exact .nothing (completions_put ..) (completed?_put (active?_eq_some.1 found) (by simp))
  | complete id value lastAddress tick =>
      cases found : table.active? id with
      | none => simpa only [Change.recorded, found] using refl
      | some flow =>
          simp only [Change.recorded, found]
          rw [active?_eq_some] at found
          let completion : Completion :=
            { id, name := flow.name, value, lastAddress, spawnedAt := flow.spawnedAt,
              completedAt := tick, order := table.completions + 1 }
          apply Finishes.flow id completion (by simp [completed?, found]) rfl rfl
          intro other
          unfold completed?
          rw [show ∀ (phases : FlowTable σ) n, FlowTable.find? { phases with completions := n } other =
            phases.find? other from fun _ _ => rfl, find?_put found]
          by_cases same : other = id
          · rw [if_pos same, if_pos same]
          · rw [if_neg same, if_neg same]
  | cancel => exact refl

theorem attempt_finishes (upright : before.Upright) (keeps : change.KeepsRecords) :
    Finishes before (change.attempt before) := by
  rcases attempt_settled upright keeps with same | ⟨tick, settled⟩
  · rw [same]
    exact .nothing rfl fun _ => rfl
  · have same := settled.completed?
    cases finishes_recorded change before with
    | nothing count same' =>
        exact .nothing (settled.completions.trans count) fun id => (same id).trans (same' id)
    | flow id completion unfinished order count finished =>
        exact .flow id completion unfinished order (settled.completions.trans count)
          fun other => (same other).trans (finished other)

/-! ## Sequences of operations -/

def Change.created (change : Change σ) (table : FlowTable σ) : List FlowId :=
  match change with
  | .create recipe caller isDependency tick => [(table.create recipe caller isDependency tick).1]
  | _ => []

structure Ledger (σ : Type) where
  table : FlowTable σ := empty
  created : List FlowId := []
  finished : List FlowId := []

def Ledger.record (ledger : Ledger σ) (change : Change σ) : Ledger σ where
  table := change.attempt ledger.table
  created := ledger.created ++ change.created ledger.table
  finished := ledger.finished ++ finishing ledger.table (change.attempt ledger.table)

def ledger (changes : List (Change σ)) : Ledger σ :=
  changes.foldl Ledger.record {}

theorem ledger_concat (changes : List (Change σ)) (change : Change σ) :
    ledger (changes ++ [change]) = (ledger changes).record change := by
  rw [ledger, List.foldl_append]
  rfl

structure Ledger.Kept (ledger : Ledger σ) : Prop where
  upright : ledger.table.Upright
  owned : ∀ id phase, ledger.table.find? id = some phase → phase.owner = id
  present : ∀ id ∈ ledger.created, ledger.table.find? id ≠ none
  created : ledger.created = List.range' 1 ledger.table.phases.size
  count : ledger.table.completions = ledger.finished.length
  ordered : ∀ (n : Nat) id, ledger.finished[n]? = some id →
    ∃ done, ledger.table.completed? id = some done ∧ done.order = n + 1
  listed : ∀ id done, ledger.table.completed? id = some done → id ∈ ledger.finished

theorem Ledger.kept_start : Ledger.Kept ({} : Ledger σ) where
  upright id flow live := by simp [live?] at live
  owned id phase found := by simp at found
  present id member := by simp at member
  created := rfl
  count := rfl
  ordered n id found := by simp at found
  listed id done found := by simp [completed?] at found

theorem size_recorded (change : Change σ) (table : FlowTable σ) :
    (change.recorded table).phases.size = table.phases.size + (change.created table).length := by
  cases change with
  | create => exact Array.size_push ..
  | edit id | suspend id | complete id =>
      cases found : table.active? id with
      | none => simp only [Change.recorded, found, Change.created, List.length_nil, Nat.add_zero]
      | some flow =>
          simp only [Change.recorded, found]
          exact size_put ..
  | cancel => rfl

theorem size_attempt (upright : before.Upright) (keeps : change.KeepsRecords) :
    (change.attempt before).phases.size =
      before.phases.size + (change.created before).length := by
  cases change with
  | create => exact size_recorded (.create ..) before
  | edit | suspend | complete | cancel =>
      rcases attempt_settled upright keeps with same | ⟨tick, settled⟩
      · rw [same]
        rfl
      · rw [settled.size, size_recorded]

theorem created_attempt (upright : before.Upright) (keeps : change.KeepsRecords) :
    List.range' 1 before.phases.size ++ change.created before =
      List.range' 1 (change.attempt before).phases.size := by
  rw [size_attempt upright keeps]
  cases change with
  | create =>
      rw [Change.created, List.length_singleton, List.range'_1_concat, Nat.add_comm 1]
      rfl
  | edit | suspend | complete | cancel => exact List.append_nil _

theorem attempt_present (upright : before.Upright) (keeps : change.KeepsRecords)
    (found : before.find? id ≠ none) : (change.attempt before).find? id ≠ none := by
  have next := attempt_standing upright keeps id
  unfold standing? at next
  intro absent
  rw [absent] at next
  cases present : before.find? id with
  | none => exact found present
  | some phase =>
      rw [present] at next
      exact next.ne_none rfl

theorem attempt_created (created : id ∈ change.created before) :
    (change.attempt before).find? id ≠ none := by
  cases change with
  | create recipe caller isDependency tick =>
      obtain rfl := List.mem_singleton.1 created
      have new := find?_create before recipe caller isDependency tick (before.phases.size + 1)
      rw [if_pos rfl] at new
      exact fun absent => by cases new.symm.trans absent
  | edit | suspend | complete | cancel => cases created

theorem Ledger.Kept.record {ledger : Ledger σ} (kept : ledger.Kept) (keeps : change.KeepsRecords) :
    (ledger.record change).Kept where
  upright := upright_attempt kept.upright keeps
  owned id := attempt_owner kept.upright keeps (kept.owned id)
  present id member := by
    rcases List.mem_append.1 member with old | new
    · exact attempt_present kept.upright keeps (kept.present id old)
    · exact attempt_created new
  created := by
    rw [Ledger.record, kept.created]
    exact created_attempt kept.upright keeps
  count := by
    rw [Ledger.record, List.length_append]
    cases attempt_finishes kept.upright keeps with
    | nothing count same => rw [count, finishing_of_same same, kept.count, List.length_nil]; rfl
    | flow id completion unfinished order count finished =>
        rw [count, finishing_of_completion unfinished finished, kept.count, List.length_singleton]
  ordered n id found := by
    rw [Ledger.record] at found ⊢
    cases attempt_finishes kept.upright keeps with
    | nothing count same =>
        rw [finishing_of_same same, List.append_nil] at found
        rw [same]
        exact kept.ordered n id found
    | flow id' completion unfinished order count finished =>
        rw [finishing_of_completion unfinished finished, List.getElem?_append] at found
        rw [finished]
        split at found
        -- A place taken before belongs to another flow, since this one has only just finished.
        next inside =>
          obtain ⟨done, known, place⟩ := kept.ordered n id found
          have distinct : id ≠ id' := by
            rintro rfl
            rw [unfinished] at known
            cases known
          rw [if_neg distinct]
          exact ⟨done, known, place⟩
        next outside =>
          obtain ⟨inside, rfl⟩ := List.getElem?_eq_some_iff.1 found
          rw [List.length_singleton] at inside
          rw [if_pos (by simp)]
          exact ⟨completion, rfl, by rw [order, kept.count]; omega⟩
  listed id done found := by
    rw [Ledger.record] at found ⊢
    rw [List.mem_append]
    cases attempt_finishes kept.upright keeps with
    | nothing count same => exact .inl (kept.listed id done (same id ▸ found))
    | flow id' completion unfinished order count finished =>
        rw [finishing_of_completion unfinished finished, List.mem_singleton]
        rw [finished] at found
        split at found
        next same => exact .inr same
        next distinct => exact .inl (kept.listed id done found)

theorem kept_ledger {changes : List (Change σ)} (keeps : ∀ change ∈ changes, change.KeepsRecords) :
    (ledger changes).Kept := by
  induction changes using List.reverseRecOn with
  | nil => exact Ledger.kept_start
  | append_singleton past change ih =>
      rw [ledger_concat]
      have earlier := ih fun c member => keeps c (List.mem_append_left _ member)
      exact earlier.record (keeps change (by simp))

/-! ## Listings -/

theorem map_collect {α β : Type} {view : FlowId → Phase σ → Option α}
    {view' : FlowId → Phase σ → Option β} (key : α → β)
    (same : ∀ id phase, table.find? id = some phase → (view id phase).map key = view' id phase) :
    (table.collect view).map key = table.collect view' := by
  rw [collect_eq, collect_eq, List.map_filterMap]
  apply List.filterMap_congr
  intro id _
  cases found : table.find? id with
  | none => rfl
  | some phase => exact same id phase found

theorem collect_standing {view : FlowId → Phase σ → Option FlowId} (standing : Standing)
    (sees : ∀ id phase, view id phase = if phase.standing = standing then some id else none) :
    table.collect view = (List.range' 1 table.phases.size).filter
      fun id => table.standing? id = some standing := by
  rw [collect_eq, ← List.filterMap_eq_filter]
  apply List.filterMap_congr
  intro id _
  cases found : table.find? id with
  | none => simp [standing?, found, Option.guard]
  | some phase => simp [standing?, found, Option.guard, sees]

theorem perm_by_standing (standing? : Nat → Option Standing) {ids : List Nat}
    (present : ∀ id ∈ ids, standing? id ≠ none) :
    (ids.filter (fun id => standing? id = some .active) ++
      (ids.filter (fun id => standing? id = some .suspended) ++
        (ids.filter (fun id => standing? id = some .completed) ++
          ids.filter (fun id => standing? id = some .cancelled)))).Perm ids := by
  induction ids with
  | nil => exact .nil
  | cons id ids ih =>
      have rest := ih fun other member => present other (List.mem_cons_of_mem _ member)
      cases found : standing? id with
      | none => exact absurd found (present id (List.mem_cons_self ..))
      | some standing =>
          have moved := rest.cons id
          cases standing with
          | active => simpa [found] using moved
          | suspended => simpa [found] using List.perm_middle.trans moved
          | completed =>
              rw [← List.append_assoc] at moved ⊢
              simpa [found] using List.perm_middle.trans moved
          | cancelled =>
              rw [← List.append_assoc, ← List.append_assoc] at moved ⊢
              simpa [found] using List.perm_middle.trans moved

theorem active_collect (table : FlowTable σ) : table.listing.active = table.collect fun id phase =>
    match phase with
    | .active _ => some id
    | _ => none := by
  apply map_collect
  intro id phase _
  cases phase <;> rfl

theorem active_eq (table : FlowTable σ) : table.listing.active =
    (List.range' 1 table.phases.size).filter fun id => table.standing? id = some .active := by
  rw [active_collect]
  apply collect_standing
  intro id phase
  cases phase <;> rfl

theorem suspended_eq (table : FlowTable σ) : table.listing.suspended =
    (List.range' 1 table.phases.size).filter fun id => table.standing? id = some .suspended := by
  apply collect_standing
  intro id phase
  cases phase <;> rfl

theorem completed_eq (table : FlowTable σ) : table.listing.completed =
    (List.range' 1 table.phases.size).filter fun id => table.standing? id = some .completed := by
  apply collect_standing
  intro id phase
  cases phase <;> rfl

theorem cancelled_eq (table : FlowTable σ) : table.listing.cancelled =
    (List.range' 1 table.phases.size).filter fun id => table.standing? id = some .cancelled := by
  apply collect_standing
  intro id phase
  cases phase <;> rfl

theorem perm_ids (present : ∀ id ∈ List.range' 1 table.phases.size, table.find? id ≠ none) :
    table.listing.ids.Perm (List.range' 1 table.phases.size) := by
  rw [FlowListing.ids, active_eq, suspended_eq, completed_eq, cancelled_eq]
  apply perm_by_standing
  intro id member
  unfold standing?
  simpa using present id member

def Owned (table : FlowTable σ) : Prop :=
  ∀ id phase, table.find? id = some phase → phase.owner = id

theorem Owned.ids_active (owned : table.Owned) :
    table.activeSummaries.map FlowSummary.id = table.listing.active := by
  rw [active_collect]
  apply map_collect
  intro id phase found
  have own := owned id phase found
  cases phase with
  | active => exact congrArg some own
  | suspended | completed | cancelled => rfl

theorem Owned.ids_suspended (owned : table.Owned) :
    table.suspendedSummaries.map (fun entry => entry.1.id) = table.listing.suspended := by
  apply map_collect
  intro id phase found
  have own := owned id phase found
  cases phase with
  | suspended => exact congrArg some own
  | active | completed | cancelled => rfl

theorem Owned.ids_completed (owned : table.Owned) :
    table.completedFlows.map Completion.id = table.listing.completed := by
  apply map_collect
  intro id phase found
  have own := owned id phase found
  cases phase with
  | completed => exact congrArg some own
  | active | suspended | cancelled => rfl

theorem Owned.ids_cancelled (owned : table.Owned) :
    table.cancelledFlows.map Cancellation.id = table.listing.cancelled := by
  apply map_collect
  intro id phase found
  have own := owned id phase found
  cases phase with
  | cancelled => exact congrArg some own
  | active | suspended | completed => rfl

/-! ## Records that stay -/

theorem ledger_ended {past rest : List (Change σ)}
    (keeps : ∀ change ∈ past ++ rest, change.KeepsRecords) {phase : Phase σ}
    (found : (ledger past).table.find? id = some phase)
    (ended : phase.standing = .completed ∨ phase.standing = .cancelled) :
    (ledger (past ++ rest)).table.find? id = some phase := by
  induction rest using List.reverseRecOn with
  | nil => rwa [List.append_nil]
  | append_singleton rest change ih =>
      rw [← List.append_assoc] at keeps ⊢
      have earlier : ∀ change ∈ past ++ rest, change.KeepsRecords :=
        fun c member => keeps c (List.mem_append_left _ member)
      rw [ledger_concat]
      exact attempt_ended (kept_ledger earlier).upright (keeps change (by simp)) (ih earlier) ended

theorem Ledger.Kept.orders {ledger : Ledger σ} (kept : ledger.Kept) :
    ledger.finished.map (fun id => (ledger.table.completed? id).map Completion.order) =
      (List.range' 1 ledger.finished.length).map some := by
  apply List.ext_getElem
  · simp
  · intro n inside _
    rw [List.length_map] at inside
    obtain ⟨done, known, order⟩ := kept.ordered n _ (List.getElem?_eq_getElem inside)
    simp [known, order, Nat.add_comm]

theorem Ledger.Kept.finished {ledger : Ledger σ} (kept : ledger.Kept) :
    ledger.finished.Perm ledger.table.listing.completed := by
  have distinct : ledger.finished.Nodup := by
    rw [List.Nodup, List.pairwise_iff_getElem]
    intro m n inside inside' earlier same
    obtain ⟨done, known, place⟩ := kept.ordered m _ (List.getElem?_eq_getElem inside)
    obtain ⟨done', known', place'⟩ := kept.ordered n _ (List.getElem?_eq_getElem inside')
    rw [same, known'] at known
    obtain rfl := Option.some.inj known
    omega
  apply (List.perm_ext_iff_of_nodup distinct (nodup_completed _)).2
  intro id
  rw [mem_completed]
  constructor
  · intro member
    obtain ⟨n, inside⟩ := List.mem_iff_getElem?.1 member
    obtain ⟨done, known, -⟩ := kept.ordered n id inside
    exact ⟨done, known⟩
  · rintro ⟨done, known⟩
    exact kept.listed id done known

end FlowTable

end Cadence
