import Cadence.Proofs.FlowTable.Losers
/-!
How an operation breaks off. A flow that began to wait with no record on its stack cannot take the
value of its wait, and a flow can be cancelled by the race that it runs. What was settled before
then stays settled. The flow with the empty stack is in no set any more.
-/

namespace Cadence.FlowTable

variable {σ : Type} {first table whole before after : FlowTable σ} {tick : Tick} {id x : Nat}
  {flow : Flow σ} {wait : Wait} {value : Json} {released : List Released} {lost : Option FlowId}
  {cancelled : List Cancellation} {change : Change σ} {changes : List (Change σ)} {e : EngineError}

def without (table : FlowTable σ) : Option FlowId → FlowTable σ
  | none => table
  | some id => table.put id none

theorem find?_without (table : FlowTable σ) (lost : Option FlowId) (x : Nat) :
    (table.without lost).find? x = if some x = lost then none else table.find? x := by
  cases lost with
  | none => rfl
  | some id =>
      by_cases same : x = id
      · subst same
        rw [if_pos rfl]
        cases found : table.find? x with
        | some phase => exact find?_put_self found
        | none =>
            cases x with
            | zero => rfl
            | succ n =>
                by_contra present
                obtain ⟨phase, present⟩ := Option.ne_none_iff_exists'.1 present
                have bounds := le_size_of_find? present
                have inside : n < table.phases.size := by
                  simp only [without, size_put] at bounds
                  omega
                simp [without, put, find?, inside] at present
      · rw [if_neg (fun h => same (Option.some.inj h))]
        exact find?_put_of_ne table none same

theorem live?_of_without (live : (table.without lost).live? x = some flow) :
    table.live? x = some flow := by
  unfold live? at live ⊢
  rw [find?_without] at live
  by_cases same : some x = lost
  · rw [if_pos same] at live
    cases live
  · rwa [if_neg same] at live

/-- Why waits cannot be settled, and the flow, if there is one, that is dropped on account of it. -/
inductive Cause (first : FlowTable σ) : EngineError → Option FlowId → Prop
  | torn (id : FlowId) : Cause first (.resumeWithoutSuspension id) none
  | bare (id : FlowId) (flow : Flow σ) (wait : Wait)
      (waits : first.find? id = some (.suspended flow wait)) (satisfied : first.outcome? wait ≠ none)
      (empty : flow.stack.records = []) :
      Cause first (.stackPeekOutOfRange flow.stack.flow 0 0) (some id)

theorem settled_waiting (found : table.find? id = some (.suspended flow wait)) {wait' : Wait}
    (waiting : (table.decided id wait released tick).find? id = some (.suspended flow wait')) :
    Settled table tick
      ((table.decided id wait released tick).put id (some (.suspended flow wait))) where
  size := (size_put ..).trans (size_decided ..)
  completions := (completions_put ..).trans (completions_decided ..)
  phases other := by
    rw [find?_put waiting]
    by_cases same : other = id
    · rw [if_pos same, same, found]
      exact .spared (.same _)
    · rw [if_neg same]
      exact .spared (spares_decided found same)

theorem settle_breaks (failed : settle id tick table = .error e after) :
    ∃ whole lost, Settled table tick whole ∧ Cause table e lost ∧ after = whole.without lost := by
  obtain ⟨flow, wait, value, released, found, outcome, unresumed⟩ := settle_fails failed
  rcases resume_error unresumed with ⟨torn, rfl, rfl⟩ | ⟨flow', wait', waiting, empty, rfl, rfl⟩
  · exact ⟨_, none, settled_decided found torn, .torn id, rfl⟩
  · obtain rfl := decided_self found waiting
    have satisfied : table.outcome? wait ≠ none := by simp [outcome]
    refine ⟨_, some id, settled_waiting found waiting, .bare id _ wait found satisfied empty, ?_⟩
    exact (put_put ..).symm

theorem settleEach_cons_error {ids : List FlowId} :
    settleEach tick (id :: ids) table = .error e after ↔ settle id tick table = .error e after ∨
      ∃ earlier middle, settle id tick table = .ok earlier middle ∧
        settleEach tick ids middle = .error e after := by
  have append_ok (earlier later : List Cancellation) (middle : FlowTable σ) :
      ¬ (pure (earlier ++ later) : Engine (FlowTable σ) (List Cancellation)) middle =
        .error e after := fun failed => by cases failed
  simp only [settleEach, Engine.bind_error, append_ok, and_false, exists_false, or_false]

theorem settleEach_error {ids : List FlowId} (failed : settleEach tick ids table = .error e after) :
    ∃ front id back cancelled middle, ids = front ++ id :: back ∧
      settleEach tick front table = .ok cancelled middle ∧ settle id tick middle = .error e after := by
  induction ids generalizing table with
  | nil => cases failed
  | cons id ids ih =>
      rcases settleEach_cons_error.1 failed with broken | ⟨earlier, middle, settled, rest⟩
      · exact ⟨[], id, ids, [], table, rfl, rfl, broken⟩
      · obtain ⟨front, id', back, cancelled, middle', rfl, passed, broken⟩ := ih rest
        refine ⟨id :: front, id', back, earlier ++ cancelled, middle', rfl, ?_, broken⟩
        exact settleEach_cons_ok.2 ⟨earlier, middle, cancelled, settled, passed, rfl⟩

theorem resolve_breaks (failed : resolve tick first = .error e after) :
    ∃ whole lost, Settled first tick whole ∧ Cause first e lost ∧ after = whole.without lost := by
  obtain ⟨front, id, back, cancelled, middle, -, passed, broken⟩ := settleEach_error failed
  have settled := (settleEach_ok passed).1
  obtain ⟨whole, lost, settled', cause, rfl⟩ := settle_breaks broken
  refine ⟨whole, lost, settled.trans settled', ?_, rfl⟩
  cases cause with
  | torn id => exact .torn id
  | bare id flow wait waits satisfied empty =>
      rw [settled.outcome?] at satisfied
      exact .bare id flow wait (settled.suspended waits) satisfied empty

theorem check_error {strategy : Strategy} {count : Nat}
    (refused : strategy.check id count = .error e) : ∃ reason, e = .invalidAwait id reason := by
  cases strategy with
  | single =>
      by_cases one : count = 1
      · simp [Strategy.check, one] at refused
      · simp only [Strategy.check, if_neg one, Except.error.injEq] at refused
        exact ⟨_, refused.symm⟩
  | race =>
      by_cases none : count = 0
      · simp only [Strategy.check, if_pos none, Except.error.injEq] at refused
        exact ⟨_, refused.symm⟩
      · simp [Strategy.check, none] at refused
  | all => cases refused

theorem checkSuspension_error (refused : table.checkSuspension id wait = .error e) :
    e = .alreadySuspended id ∨ e = .notActive id ∨ ∃ reason, e = .invalidAwait id reason := by
  unfold checkSuspension at refused
  by_cases suspended : (table.suspended? id).isSome
  · rw [if_pos suspended] at refused
    exact .inl (Except.error.inj refused).symm
  · rw [if_neg suspended] at refused
    cases checked : wait.strategy.check id wait.dependencies.length with
    | error e' =>
        rw [checked] at refused
        obtain rfl : e' = e := Except.error.inj refused
        exact .inr (.inr (check_error checked))
    | ok _ =>
        rw [checked] at refused
        cases active : table.active? id with
        | some flow =>
            rw [active] at refused
            cases refused
        | none =>
            rw [active] at refused
            exact .inr (.inl (Except.error.inj refused).symm)

theorem apply_error (failed : change.apply before = .error e after) :
    (after = before ∧ ∀ id depth requested, e ≠ .stackPeekOutOfRange id depth requested) ∨
      ∃ tick, resolve tick (change.recorded before) = .error e after := by
  cases change with
  | create => cases failed
  | edit id stack =>
      simp only [Change.apply, edit] at failed
      split at failed
      next =>
        injection failed with cause same
        exact .inl ⟨same.symm, by simp [← cause]⟩
      next => cases failed
  | suspend id wait tick =>
      simp only [Change.apply, suspend] at failed
      split at failed
      next e' refused =>
        injection failed with cause same
        subst cause
        rcases checkSuspension_error refused with rfl | rfl | ⟨reason, rfl⟩
        all_goals exact .inl ⟨same.symm, by simp⟩
      next flow accepted =>
        simp only [Change.recorded, (checkSuspension_eq_ok.1 accepted).1]
        exact .inr ⟨tick, failed⟩
  | complete id value last tick =>
      simp only [Change.apply, complete] at failed
      split at failed
      next =>
        injection failed with cause same
        exact .inl ⟨same.symm, by simp [← cause]⟩
      next flow active =>
        rw [completions_put] at failed
        simp only [Change.recorded, active]
        exact .inr ⟨tick, failed⟩
  | cancel id parent caller tick =>
      simp only [Change.apply, cancel] at failed
      split at failed
      next => cases failed
      next =>
        injection failed with cause same
        exact .inl ⟨same.symm, by simp [← cause]⟩

theorem attempt_breaks (change : Change σ) (before : FlowTable σ) :
    change.attempt before = before ∨ ∃ tick whole lost,
      Settled (change.recorded before) tick whole ∧ change.attempt before = whole.without lost := by
  unfold Change.attempt Engine.after
  cases done : change.apply before with
  | ok cancelled after =>
      obtain ⟨tick, settled⟩ := apply_settled done
      exact .inr ⟨tick, after, none, settled, rfl⟩
  | error e after =>
      rcases apply_error done with ⟨same, -⟩ | ⟨tick, failed⟩
      · exact .inl same
      · obtain ⟨whole, lost, settled, -, same⟩ := resolve_breaks failed
        exact .inr ⟨tick, whole, lost, settled, same⟩

section Kept

variable {P : FlowId → Flow σ → Prop}

theorem live_recorded (created : ∀ id (recipe : Recipe σ) caller isDependency tick,
      P id (Flow.ofRecipe id recipe caller isDependency tick))
    (edited : ∀ id stack flow, change = .edit id stack → P id flow → P id { flow with stack })
    (holds : ∀ id flow, before.live? id = some flow → P id flow) :
    ∀ id flow, (change.recorded before).live? id = some flow → P id flow := by
  intro id flow live
  have marks := recorded_marks change before id
  have earlier := holds id
  unfold live? at live earlier
  generalize before.find? id = old at marks earlier
  generalize (change.recorded before).find? id = new at marks live
  cases marks with
  | same => exact earlier flow live
  | created recipe caller isDependency tick =>
      obtain rfl := Option.some.inj live
      exact created id recipe caller isDependency tick
  | edited _ stack flow' =>
      obtain rfl := Option.some.inj live
      exact edited id stack flow' rfl (earlier flow' rfl)
  | suspended => exact earlier flow live
  | completed => cases live

theorem live_ledger (created : ∀ id (recipe : Recipe σ) caller isDependency tick,
      P id (Flow.ofRecipe id recipe caller isDependency tick))
    (edited : ∀ id stack flow, .edit id stack ∈ changes → P id flow → P id { flow with stack })
    (resumed : ∀ id flow value stack resumption,
      flow.stack.modify 0 (·.push (.provideGiven value)) = .ok stack →
        P id flow → P id (flow.resumed stack resumption)) :
    ∀ id flow, (ledger changes).table.live? id = some flow → P id flow := by
  induction changes using List.reverseRecOn with
  | nil =>
      intro id flow live
      have absent : (ledger ([] : List (Change σ))).table.find? id = none := find?_empty
      simp [live?, absent] at live
  | append_singleton past change ih =>
      have holds := ih fun id stack flow member =>
        edited id stack flow (List.mem_append_left _ member)
      have recorded : ∀ id flow, (change.recorded (ledger past).table).live? id = some flow →
          P id flow :=
        live_recorded created (fun id stack flow same => edited id stack flow (by simp [same])) holds
      intro id flow live
      rw [ledger_concat] at live
      rcases attempt_breaks change (ledger past).table with same | ⟨tick, whole, lost, settled, same⟩
      · refine holds id flow ?_
        rwa [Ledger.record, same] at live
      · rw [Ledger.record, same] at live
        obtain ⟨old, lived, rfl | ⟨stack, resumption, value, pushed, rfl⟩⟩ :=
          settled.of_live (live?_of_without live)
        · exact recorded id flow lived
        · exact resumed id old value stack resumption pushed (recorded id old lived)

end Kept

theorem named_ledger (changes : List (Change σ)) : (ledger changes).table.Named := by
  apply live_ledger
  case created => exact fun _ _ _ _ _ => rfl
  case edited => exact fun _ _ _ _ own => own
  case resumed => exact fun _ _ _ _ _ _ own => own

def Change.KeepsOwner (change : Change σ) : Prop :=
  ∀ id stack, change = .edit id stack → stack.flow = id

theorem count_ids (table : FlowTable σ) (id : Nat) :
    table.listing.ids.count id = if table.find? id = none then 0 else 1 := by
  let known := (List.range' 1 table.phases.size).filter fun id => (table.standing? id).isSome
  have part (standing : Standing) :
      ((List.range' 1 table.phases.size).filter fun id => table.standing? id = some standing) =
        known.filter fun id => table.standing? id = some standing := by
    rw [List.filter_filter]
    apply List.filter_congr
    intro id _
    by_cases here : table.standing? id = some standing <;> simp [here]
  have perm : table.listing.ids.Perm known := by
    rw [FlowListing.ids, active_eq, suspended_eq, completed_eq, cancelled_eq]
    simp only [part]
    apply perm_by_standing
    intro id member
    exact Option.isSome_iff_ne_none.1 (List.mem_filter.1 member).2
  have nodup : known.Nodup := List.Pairwise.filter _ List.nodup_range'
  rw [perm.count_eq, nodup.count]
  cases found : table.find? id with
  | none =>
      have absent : id ∉ known := fun member => by
        simpa [standing?, found] using (List.mem_filter.1 member).2
      rw [if_neg absent, if_pos rfl]
  | some phase =>
      have bounds := le_size_of_find? found
      have present : id ∈ known := by
        apply List.mem_filter.2
        exact ⟨List.mem_range'_1.2 (by omega), by simp [standing?, found]⟩
      rw [if_pos present, if_neg (by simp)]

theorem mem_ids : id ∈ table.listing.ids ↔ table.find? id ≠ none := by
  rw [← List.count_pos_iff, count_ids]
  by_cases absent : table.find? id = none <;> simp [absent]

/--
What a failing operation does to the sets of flows. A flow that the error says has an empty stack is
in none of them any more. Each other flow is in one.
-/
structure Forfeits (change : Change σ) (before after : FlowTable σ) (e : EngineError) : Prop where
  kept : ∀ id ∈ before.listing.ids, e ≠ .stackPeekOutOfRange id 0 0 → after.listing.ids.count id = 1
  dropped : ∀ id, e = .stackPeekOutOfRange id 0 0 →
    id ∈ before.listing.ids ∧ after.listing.ids.count id = 0
  bare : ∀ id, e = .stackPeekOutOfRange id 0 0 → ∃ flow wait,
    (change.recorded before).find? id = some (.suspended flow wait) ∧ flow.stack.records = [] ∧
      (change.recorded before).outcome? wait ≠ none

theorem Settled.present (settled : Settled first tick whole) :
    whole.find? id = none ↔ first.find? id = none := by
  have change := settled.phases id
  generalize first.find? id = old at change ⊢
  generalize whole.find? id = new at change ⊢
  cases change with
  | spared spares => cases spares <;> simp
  | resumed => simp

theorem present_recorded (failed : change.apply before = .error e after) :
    (change.recorded before).find? id = none ↔ before.find? id = none := by
  have marks := recorded_marks change before id
  generalize before.find? id = old at marks ⊢
  generalize (change.recorded before).find? id = new at marks ⊢
  cases marks with
  | created => cases failed
  | same | edited | suspended | completed => simp

theorem owned_ledger (owns : ∀ change ∈ changes, change.KeepsOwner) :
    ∀ id flow, (ledger changes).table.live? id = some flow → flow.stack.flow = id := by
  apply live_ledger
  case created => exact fun _ _ _ _ _ => rfl
  case edited => exact fun id stack _ member _ => owns _ member id stack rfl
  case resumed =>
    intro id flow value stack resumption pushed own
    obtain ⟨top, below, -, rfl⟩ := Stack.modify_top_ok pushed
    exact own

theorem owned_recorded (owns : change.KeepsOwner)
    (own : ∀ id flow, before.live? id = some flow → flow.stack.flow = id) :
    ∀ id flow, (change.recorded before).live? id = some flow → flow.stack.flow = id := by
  apply live_recorded (P := fun id flow => flow.stack.flow = id)
  case created => exact fun _ _ _ _ _ => rfl
  case edited => exact fun id stack _ same _ => owns id stack same
  case holds => exact own

theorem forfeits_refused (refused : ∀ id depth requested, e ≠ .stackPeekOutOfRange id depth requested) :
    Forfeits change before before e where
  kept id member _ := by rw [count_ids, if_neg (mem_ids.1 member)]
  dropped id same := absurd same (refused id 0 0)
  bare id same := absurd same (refused id 0 0)

theorem forfeits_settled (settled : Settled (change.recorded before) tick whole)
    (present : ∀ id, (change.recorded before).find? id = none ↔ before.find? id = none)
    (own : ∀ id flow, (change.recorded before).live? id = some flow → flow.stack.flow = id)
    (cause : Cause (change.recorded before) e lost) :
    Forfeits change before (whole.without lost) e := by
  have absent (id : Nat) : (whole.without lost).find? id = none ↔
      some id = lost ∨ before.find? id = none := by
    rw [find?_without, ← present, ← settled.present]
    by_cases same : some id = lost <;> simp [same]
  have kept : ∀ id ∈ before.listing.ids, some id ≠ lost →
      (whole.without lost).listing.ids.count id = 1 := by
    intro id member other
    have known : ¬ (whole.without lost).find? id = none := fun missing =>
      mem_ids.1 member (((absent id).1 missing).resolve_left other)
    rw [count_ids, if_neg known]
  cases cause with
  | torn torn =>
      constructor
      case kept => exact fun id member _ => kept id member (by simp)
      case dropped => exact fun _ same => by cases same
      case bare => exact fun _ same => by cases same
  | bare bare flow wait waits satisfied empty =>
      have named : flow.stack.flow = bare := own bare flow (live?_eq_some.2 (.inr ⟨wait, waits⟩))
      rw [named]
      constructor
      case kept =>
        intro id member other
        exact kept id member fun same => other (by rw [Option.some.inj same])
      case dropped =>
        intro id same
        obtain rfl : bare = id := by simpa using same
        constructor
        · rw [mem_ids, ne_eq, ← present, waits]
          simp
        · rw [count_ids, if_pos ((absent bare).2 (.inl rfl))]
      case bare =>
        intro id same
        obtain rfl : bare = id := by simpa using same
        exact ⟨flow, wait, waits, empty, satisfied⟩

/--
A failing operation loses at most one flow. Whatever operations a table has gone through, and however
records were pushed to the stacks of active flows and popped from them, an operation that fails leaves
each flow in one set, but for a flow with an empty stack whose wait it has found satisfied.
-/
theorem failing_operations_drop_bare_flows (owns : ∀ change ∈ changes, change.KeepsOwner)
    (owns' : change.KeepsOwner) (failed : change.apply (ledger changes).table = .error e after) :
    Forfeits change (ledger changes).table after e := by
  rcases apply_error failed with ⟨rfl, refused⟩ | ⟨tick, broken⟩
  · exact forfeits_refused refused
  · obtain ⟨whole, lost, settled, cause, rfl⟩ := resolve_breaks broken
    have own := owned_recorded owns' (owned_ledger owns)
    exact forfeits_settled settled (fun id => present_recorded failed) own cause

/-- Flow 1 pops its only record, the entry of its method, and then waits for flow 2. -/
def bareWaiter : List (Change Unit) :=
  let start : Change Unit := .create ⟨"flow", [], ()⟩ none false 0
  [start, start, .edit 1 ⟨1, []⟩, .suspend 1 ⟨.single, ⟨"object", 0⟩, true, [2], 0⟩ 0]

theorem bareWaiter_owns : (∀ change ∈ bareWaiter, change.KeepsOwner) ∧
    (Change.complete 2 (.int 7) none 1 : Change Unit).KeepsOwner := by
  constructor
  · simp +contextual [bareWaiter, Change.KeepsOwner]
  · intro id stack same
    cases same

theorem bareWaiter_is_dropped : ∃ after,
    (∀ change ∈ bareWaiter, change.KeepsOwner) ∧
      (Change.complete 2 (.int 7) none 1 : Change Unit).KeepsOwner ∧
      (Change.complete 2 (.int 7) none 1).apply (ledger bareWaiter).table =
        .error (.stackPeekOutOfRange 1 0 0) after ∧
      Forfeits (.complete 2 (.int 7) none 1) (ledger bareWaiter).table after
        (.stackPeekOutOfRange 1 0 0) := by
  obtain ⟨owns, owns'⟩ := bareWaiter_owns
  exact ⟨_, owns, owns', rfl, failing_operations_drop_bare_flows owns owns' rfl⟩

theorem failing_operations_can_lose_flows :
    ¬ ∀ (changes : List (Change Unit)) (change : Change Unit) e after,
      (∀ change ∈ changes, change.KeepsOwner) → change.KeepsOwner →
        change.resolvesAt? ≠ none → change.apply (ledger changes).table = .error e after →
          ∀ id ∈ (ledger changes).table.listing.ids, after.listing.ids.count id = 1 := by
  intro every
  obtain ⟨owns, owns'⟩ := bareWaiter_owns
  have kept := every bareWaiter _ _ _ owns owns' (by simp [Change.resolvesAt?]) rfl 1 (by decide)
  revert kept
  decide

end Cadence.FlowTable
