import Cadence.Proofs.FlowTable.Resolution
/-!
Runs of operations on a table of flows, and when and with what a wait is resolved in them. The
await graph is arbitrary: flows may share dependencies, and waits may begin after some of the
flows that they ask for have finished.
-/

namespace Cadence

/-- The value of a wait, read off the completions of a run in their order. -/
def Wait.value? (finished : List (FlowId × Json)) (wait : Wait) : Option Json :=
  match wait.strategy with
  | .single => wait.dependencies.head?.bind fun id => finished.lookup id
  | .all => (wait.dependencies.mapM fun id => finished.lookup id).map .arr
  | .race => (finished.find? fun done => done.1 ∈ wait.dependencies).map Prod.snd

def Wait.SatisfiedBy (finished : List (FlowId × Json)) (wait : Wait) : Prop :=
  wait.Satisfied fun id => id ∈ finished.map Prod.fst

structure Flow.GoesOn {σ : Type} (flow : Flow σ) (value : Json) (after : Flow σ) : Prop where
  activation : after.activation = flow.activation + 1
  stack : ∃ top below, flow.stack.records = top :: below ∧
    after.stack = { flow.stack with records := top.push (.provideGiven value) :: below }

namespace FlowTable

variable {σ : Type}

inductive Change (σ : Type) where
  | create (recipe : Recipe σ) (caller : Option Address) (isDependency : Bool) (tick : Tick)
  | edit (id : FlowId) (stack : Stack)
  | suspend (id : FlowId) (wait : Wait) (tick : Tick)
  | complete (id : FlowId) (value : Json) (lastAddress : Option Address) (tick : Tick)
  | cancel (id parent : FlowId) (caller : Option Address) (tick : Tick)

def edit (id : FlowId) (stack : Stack) : Engine (FlowTable σ) (List Cancellation) :=
  fun table =>
    match table.active? id with
    | none => .error (.notActive id) table
    | some flow => .ok [] (table.put id (some (.active { flow with stack })))

def Change.apply : Change σ → Engine (FlowTable σ) (List Cancellation)
  | .create recipe caller isDependency tick =>
    fun table => .ok [] (table.create recipe caller isDependency tick).2
  | .edit id stack => FlowTable.edit id stack
  | .suspend id wait tick => FlowTable.suspend id wait tick
  | .complete id value lastAddress tick => FlowTable.complete id value lastAddress tick
  | .cancel id parent caller tick => FlowTable.cancel id parent caller tick

inductive Run : List (Change σ) → FlowTable σ → Prop
  | start : Run [] empty
  | step {changes : List (Change σ)} {before after : FlowTable σ} {change : Change σ}
      {cancelled : List Cancellation} (run : Run changes before)
      (done : change.apply before = .ok cancelled after) : Run (changes ++ [change]) after

def replay : List (Change σ) → FlowTable σ → Option (FlowTable σ)
  | [], table => some table
  | change :: changes, table =>
    match change.apply table with
    | .ok _ after => replay changes after
    | .error _ _ => none

theorem Run.replay {past : List (Change σ)} {before after : FlowTable σ}
    (run : Run past before) (changes : List (Change σ))
    (replayed : FlowTable.replay changes before = some after) :
    Run (past ++ changes) after := by
  induction changes generalizing past before with
  | nil =>
      obtain rfl := Option.some.inj replayed
      simpa using run
  | cons change changes ih =>
      unfold FlowTable.replay at replayed
      cases done : change.apply before with
      | error e after => simp [done] at replayed
      | ok cancelled middle =>
          rw [done] at replayed
          simpa using ih (run.step done) replayed

def Change.completion? : Change σ → Option (FlowId × Json)
  | .complete id value _ _ => some (id, value)
  | _ => none

def completionsOf (changes : List (Change σ)) : List (FlowId × Json) :=
  changes.filterMap Change.completion?

/-- The flow is suspended when the operation comes to settle waits. -/
def Change.Pending (change : Change σ) (before : FlowTable σ) (id : FlowId) (flow : Flow σ)
    (wait : Wait) : Prop :=
  before.suspended? id = some (flow, wait) ∨
    ∃ tick, change = .suspend id wait tick ∧ before.active? id = some flow

def Change.recorded (change : Change σ) (table : FlowTable σ) : FlowTable σ :=
  match change with
  | .create recipe caller isDependency tick => (table.create recipe caller isDependency tick).2
  | .edit id stack =>
    match table.active? id with
    | none => table
    | some flow => table.put id (some (.active { flow with stack }))
  | .suspend id wait _ =>
    match table.active? id with
    | none => table
    | some flow => table.put id (some (.suspended flow wait))
  | .complete id value lastAddress tick =>
    match table.active? id with
    | none => table
    | some flow =>
      let completion : Completion :=
        { id, name := flow.name, value, lastAddress, spawnedAt := flow.spawnedAt,
          completedAt := tick, order := table.completions + 1 }
      { table.put id (some (.completed completion)) with completions := table.completions + 1 }
  | .cancel _ _ _ _ => table

variable {table before after : FlowTable σ} {change : Change σ} {id : Nat} {flow : Flow σ}
  {wait : Wait} {tick : Tick} {cancelled : List Cancellation}

theorem settled_of_spares (size : after.phases.size = table.phases.size)
    (completions : after.completions = table.completions)
    (spares : ∀ id, Spares tick (table.find? id) (after.find? id)) : Settled table tick after :=
  ⟨size, completions, fun id => .spared (spares id)⟩

theorem apply_settled (done : change.apply before = .ok cancelled after) :
    ∃ tick, Settled (change.recorded before) tick after := by
  cases change with
  | create recipe caller isDependency tick =>
      injection done with _ same
      exact ⟨tick, same ▸ .refl ..⟩
  | edit id stack =>
      simp only [Change.apply, edit] at done
      split at done
      next missing => cases done
      next flow found =>
        injection done with _ same
        refine ⟨0, ?_⟩
        simp only [Change.recorded, found]
        exact same ▸ .refl ..
  | suspend id wait tick =>
      simp only [Change.apply, suspend] at done
      split at done
      next e refused => cases done
      next flow checked =>
        refine ⟨tick, ?_⟩
        simp only [Change.recorded, (checkSuspension_eq_ok.1 checked).1]
        exact (resolve_ok done).1
  | complete id value lastAddress tick =>
      simp only [Change.apply, complete] at done
      split at done
      next missing => cases done
      next flow found =>
        refine ⟨tick, ?_⟩
        rw [completions_put] at done
        simp only [Change.recorded, found]
        exact (resolve_ok done).1
  | cancel id parent caller tick =>
      simp only [Change.apply, cancel] at done
      split at done
      next live =>
        injection done with _ same
        subst same
        exact ⟨tick, settled_of_spares (size_tearDown ..) (completions_tearDown ..)
          fun id => spares_tearDown ..⟩
      next dead => cases done

structure Consistent (table : FlowTable σ) (finished : List (FlowId × Json)) : Prop where
  count : table.completions = finished.length
  kept : ∀ id completion, table.completed? id = some completion →
    ∃ n, completion.order = n + 1 ∧ finished[n]? = some (id, completion.value)
  listed : ∀ (n : Nat) id value, finished[n]? = some (id, value) →
    ∃ completion, table.completed? id = some completion ∧ completion.value = value ∧
      completion.order = n + 1
  shapely : ∀ id flow wait, table.find? id = some (.suspended flow wait) →
    wait.strategy.check id wait.dependencies.length = .ok ()

theorem consistent_empty : Consistent (empty : FlowTable σ) [] where
  count := rfl
  kept id completion found := by simp [completed?] at found
  listed n id value found := by simp at found
  shapely id flow wait found := by simp at found

variable {finished : List (FlowId × Json)}

theorem Consistent.settled (consistent : Consistent table finished)
    (settled : Settled table tick after) : Consistent after finished where
  count := settled.completions.trans consistent.count
  kept id completion found := consistent.kept id completion (settled.completed? id ▸ found)
  listed n id value found := by
    obtain ⟨completion, kept, rest⟩ := consistent.listed n id value found
    exact ⟨completion, (settled.completed? id).trans kept, rest⟩
  shapely id flow wait found := consistent.shapely id flow wait (settled.suspended found)

theorem Consistent.put (consistent : Consistent table finished)
    (active : table.find? id = some (.active flow)) {phase : Phase σ}
    (unfinished : ∀ completion, phase ≠ .completed completion)
    (shapely : ∀ flow wait, phase = .suspended flow wait →
      wait.strategy.check id wait.dependencies.length = .ok ()) :
    Consistent (table.put id (some phase)) finished := by
  have completed := completed?_put active unfinished
  refine ⟨(completions_put ..).trans consistent.count, fun other completion found => ?_,
    fun n other value found => ?_, fun other flow wait found => ?_⟩
  · exact consistent.kept other completion (completed other ▸ found)
  · obtain ⟨completion, kept, rest⟩ := consistent.listed n other value found
    exact ⟨completion, (completed other).trans kept, rest⟩
  · rw [find?_put active] at found
    by_cases same : other = id
    · rw [if_pos same] at found
      rw [same]
      exact shapely flow wait (Option.some.inj found)
    · rw [if_neg same] at found
      exact consistent.shapely other flow wait found

theorem Consistent.create (consistent : Consistent table finished) (recipe : Recipe σ)
    (caller : Option Address) (isDependency : Bool) (tick : Tick) :
    Consistent (table.create recipe caller isDependency tick).2 finished := by
  have completed := completed?_create table recipe caller isDependency tick
  refine ⟨consistent.count, fun id completion found => ?_, fun n id value found => ?_,
    fun id flow wait found => ?_⟩
  · exact consistent.kept id completion (completed id ▸ found)
  · obtain ⟨completion, kept, rest⟩ := consistent.listed n id value found
    exact ⟨completion, (completed id).trans kept, rest⟩
  · rw [find?_create] at found
    split at found
    · simp at found
    · exact consistent.shapely id flow wait found

theorem Consistent.finish (consistent : Consistent table finished)
    (active : table.find? id = some (.active flow)) {completion : Completion}
    (order : completion.order = table.completions + 1) :
    Consistent { table.put id (some (.completed completion)) with
      completions := table.completions + 1 } (finished ++ [(id, completion.value)]) := by
  have find (other : Nat) : FlowTable.find? { table.put id (some (.completed completion)) with
      completions := table.completions + 1 } other =
        if other = id then some (.completed completion) else table.find? other :=
    find?_put active other
  refine ⟨by simp [consistent.count], fun other completion' found => ?_,
    fun n other value found => ?_, fun other flow wait found => ?_⟩
  · rw [completed?_eq_some, find] at found
    split at found
    next same =>
      obtain rfl : completion = completion' := by simpa using found
      exact ⟨finished.length, by rw [order, consistent.count], by simp [same]⟩
    next distinct =>
      obtain ⟨n, place, entry⟩ := consistent.kept other completion' (completed?_eq_some.2 found)
      exact ⟨n, place, by rw [List.getElem?_append_left (List.getElem?_eq_some_iff.1 entry).1, entry]⟩
  · rw [List.getElem?_append] at found
    split at found
    next inside =>
      obtain ⟨completion', kept, rest⟩ := consistent.listed n other value found
      refine ⟨completion', completed?_eq_some.2 ?_, rest⟩
      rw [completed?_eq_some] at kept
      rw [find, if_neg (fun same => by simp [same, active] at kept), kept]
    next outside =>
      have last : n = finished.length := by
        have := (List.getElem?_eq_some_iff.1 found).1
        simp at this
        omega
      obtain ⟨rfl, rfl⟩ : id = other ∧ completion.value = value := by simpa [last] using found
      refine ⟨completion, completed?_eq_some.2 (by rw [find, if_pos rfl]), rfl, ?_⟩
      rw [order, consistent.count, last]
  · rw [find] at found
    split at found
    · simp at found
    · exact consistent.shapely other flow wait found

theorem Consistent.recorded (consistent : Consistent before finished)
    (done : change.apply before = .ok cancelled after) :
    Consistent (change.recorded before) (finished ++ change.completion?.toList) := by
  cases change with
  | create recipe caller isDependency tick =>
      simpa [Change.completion?] using! consistent.create recipe caller isDependency tick
  | edit id stack =>
      simp only [Change.completion?, Option.toList_none, List.append_nil, Change.recorded]
      cases found : before.active? id with
      | none => exact consistent
      | some flow => exact consistent.put (active?_eq_some.1 found) (by simp) (by simp)
  | suspend id wait tick =>
      simp only [Change.completion?, Option.toList_none, List.append_nil, Change.recorded]
      simp only [Change.apply, suspend] at done
      split at done
      next e refused => cases done
      next flow checked =>
        obtain ⟨found, shape⟩ := checkSuspension_eq_ok.1 checked
        simp only [found]
        refine consistent.put (active?_eq_some.1 found) (by simp) fun flow' wait' same => ?_
        injection same with _ same
        rw [← same]
        exact shape
  | complete id value lastAddress tick =>
      simp only [Change.completion?, Option.toList_some, Change.recorded]
      cases found : before.active? id with
      | none => simp [Change.apply, complete, found] at done
      | some flow => exact consistent.finish (active?_eq_some.1 found) rfl
  | cancel id parent caller tick =>
      simpa [Change.completion?] using! consistent

theorem Consistent.mem_iff (consistent : Consistent table finished) :
    id ∈ finished.map Prod.fst ↔ ∃ done, table.completed? id = some done := by
  rw [List.mem_map]
  constructor
  · rintro ⟨⟨id, value⟩, member, rfl⟩
    obtain ⟨n, entry⟩ := List.mem_iff_getElem?.1 member
    obtain ⟨completion, kept, -⟩ := consistent.listed n id value entry
    exact ⟨completion, kept⟩
  · rintro ⟨completion, kept⟩
    obtain ⟨n, -, entry⟩ := consistent.kept id completion kept
    exact ⟨(id, completion.value), List.mem_of_getElem? entry, rfl⟩

theorem Consistent.lookup (consistent : Consistent table finished) (id : FlowId) :
    finished.lookup id = (table.completed? id).map Completion.value := by
  cases found : finished.lookup id with
  | none =>
      cases kept : table.completed? id with
      | none => rfl
      | some completion =>
          obtain ⟨n, -, entry⟩ := consistent.kept id completion kept
          have absent := List.lookup_eq_none_iff.1 found _ (List.mem_of_getElem? entry)
          simp at absent
  | some value =>
      obtain ⟨front, back, split, -⟩ := List.lookup_eq_some_iff.1 found
      have entry : finished[front.length]? = some (id, value) := by simp [split]
      obtain ⟨completion, kept, same, -⟩ := consistent.listed _ id value entry
      simp [kept, same]

theorem Consistent.find?_first (consistent : Consistent table finished) {ids : List FlowId}
    {winner : Completion} (first : table.firstCompleted? ids = some winner) :
    (finished.find? fun done => done.1 ∈ ids).map Prod.snd = some winner.value := by
  obtain ⟨⟨id, listed, won⟩, least⟩ := firstCompleted?_eq_some first
  obtain ⟨n, place, entry⟩ := consistent.kept id winner won
  obtain ⟨inside, entry⟩ := List.getElem?_eq_some_iff.1 entry
  have earlier : finished.find? (fun done => done.1 ∈ ids) = some (id, winner.value) := by
    refine List.find?_eq_some_iff_getElem.2 ⟨by simpa using listed, n, inside, entry, ?_⟩
    intro m before
    rw [Bool.not_eq_true', decide_eq_false_iff_not]
    intro awaited
    obtain ⟨completion, kept, -, order⟩ := consistent.listed m _ _
      (List.getElem?_eq_getElem (Nat.lt_trans before inside))
    have := least _ awaited completion kept
    omega
  rw [earlier]
  rfl

theorem Consistent.value?_of_outcome? (consistent : Consistent table finished) {value : Json}
    {released : List Released} (outcome : table.outcome? wait = some (value, released)) :
    wait.value? finished = some value := by
  unfold Wait.value?
  cases resolves_of_outcome? outcome with
  | single kind only finished => simp [kind, only, consistent.lookup, finished]
  | @all released kind collected =>
      have values : wait.dependencies.mapM (fun id => finished.lookup id) =
          some (released.map Released.value) := by
        rw [mapM_eq_some, List.forall₂_map_right_iff]
        refine collected.imp fun id one found => ?_
        obtain ⟨done, kept, rfl⟩ := released?_eq_some found
        simp [consistent.lookup, kept]
      simp [kind, values]
  | race kind first => simpa [kind] using consistent.find?_first first

theorem Consistent.outcome?_eq_none (consistent : Consistent table finished)
    (shapely : wait.strategy.check id wait.dependencies.length = .ok ()) :
    table.outcome? wait = none ↔ ¬ wait.SatisfiedBy finished := by
  rw [FlowTable.outcome?_eq_none shapely]
  unfold Wait.SatisfiedBy
  simp only [consistent.mem_iff]

theorem unsettled_apply (unsettled : before.Unsettled)
    (done : change.apply before = .ok cancelled after) : after.Unsettled := by
  cases change with
  | create recipe caller isDependency tick =>
      injection done with _ same
      exact same ▸ unsettled.create recipe caller isDependency tick
  | edit id stack =>
      simp only [Change.apply, edit] at done
      split at done
      next missing => cases done
      next flow active =>
        injection done with _ same
        exact same ▸ unsettled.put_active (active?_eq_some.1 active) _
  | suspend id wait tick =>
      simp only [Change.apply, suspend] at done
      split at done
      next e refused => cases done
      next flow checked => exact (resolve_ok done).2
  | complete id value lastAddress tick =>
      simp only [Change.apply, complete] at done
      split at done
      next missing => cases done
      next flow found => exact (resolve_ok done).2
  | cancel id parent caller tick =>
      obtain ⟨tick, settled⟩ := apply_settled done
      exact settled.unsettled unsettled

theorem Run.consistent {changes : List (Change σ)} (run : Run changes table) :
    Consistent table (completionsOf changes) ∧ table.Unsettled := by
  induction run with
  | start => exact ⟨consistent_empty, by simp [Unsettled]⟩
  | @step changes before after change cancelled run done ih =>
      obtain ⟨tick, settled⟩ := apply_settled done
      have finished : completionsOf (changes ++ [change]) =
          completionsOf changes ++ change.completion?.toList := by
        rw [completionsOf, List.filterMap_append]
        cases found : change.completion? <;> simp [completionsOf, found]
      rw [finished]
      exact ⟨(ih.1.recorded done).settled settled, unsettled_apply ih.2 done⟩

theorem Change.Pending.recorded (pending : change.Pending before id flow wait)
    (done : change.apply before = .ok cancelled after) :
    (change.recorded before).find? id = some (.suspended flow wait) := by
  rcases pending with waiting | ⟨tick, rfl, active⟩
  · rw [suspended?_eq_some] at waiting
    have other (id' : Nat) (flow' : Flow σ) (active : before.active? id' = some flow') :
        before.find? id' = some (.active flow') ∧ id ≠ id' := by
      rw [active?_eq_some] at active
      exact ⟨active, fun same => by simp [same, active] at waiting⟩
    cases change with
    | create recipe caller isDependency tick =>
        have bounds := le_size_of_find? waiting
        rw [Change.recorded, find?_create, if_neg (by omega), waiting]
    | edit id' stack =>
        cases found : before.active? id' with
        | none => simpa [Change.recorded, found] using waiting
        | some flow' =>
            obtain ⟨active, distinct⟩ := other id' flow' found
            simp only [Change.recorded, found, find?_put active, if_neg distinct, waiting]
    | suspend id' wait' tick =>
        cases found : before.active? id' with
        | none => simpa [Change.recorded, found] using waiting
        | some flow' =>
            obtain ⟨active, distinct⟩ := other id' flow' found
            simp only [Change.recorded, found, find?_put active, if_neg distinct, waiting]
    | complete id' value lastAddress tick =>
        cases found : before.active? id' with
        | none => simpa [Change.recorded, found] using waiting
        | some flow' =>
            obtain ⟨active, distinct⟩ := other id' flow' found
            simp only [Change.recorded, found]
            exact (find?_put active id).trans (by rw [if_neg distinct, waiting])
    | cancel id' parent caller tick => exact waiting
  · simp only [Change.recorded, active]
    exact find?_put_self (active?_eq_some.1 active)

/-- What an operation does about the waits of suspended flows, given the run before it. -/
structure ResolvesExactly (changes : List (Change σ)) (change : Change σ)
    (before after : FlowTable σ) : Prop where
  unsatisfied : ∀ id flow wait, before.suspended? id = some (flow, wait) →
    ¬ wait.SatisfiedBy (completionsOf changes)
  settled : ∀ id flow wait, after.suspended? id = some (flow, wait) →
    ¬ wait.SatisfiedBy (completionsOf (changes ++ [change]))
  resumed : ∀ id flow wait, change.Pending before id flow wait → after.cancelled? id = none →
    wait.SatisfiedBy (completionsOf (changes ++ [change])) →
      ∃ value resumed, wait.value? (completionsOf (changes ++ [change])) = some value ∧
        after.active? id = some resumed ∧ flow.GoesOn value resumed
  waiting : ∀ id flow wait, change.Pending before id flow wait → after.cancelled? id = none →
    ¬ wait.SatisfiedBy (completionsOf (changes ++ [change])) →
      after.suspended? id = some (flow, wait)

/-- No wait is resolved too early, too late or not at all, and each resolves to its value. -/
theorem awaits_resolve_exactly {changes : List (Change σ)} (run : Run changes before)
    (done : change.apply before = .ok cancelled after) :
    ResolvesExactly changes change before after := by
  obtain ⟨consistent, unsettled⟩ := run.consistent
  obtain ⟨consistent', unsettled'⟩ := (run.step done).consistent
  obtain ⟨tick, settled⟩ := apply_settled done
  have shapely (id : Nat) (flow : Flow σ) (wait : Wait)
      (pending : change.Pending before id flow wait) :
      after.outcome? wait = none ↔ ¬ wait.SatisfiedBy (completionsOf (changes ++ [change])) :=
    consistent'.outcome?_eq_none
      ((consistent.recorded done).shapely id flow wait (pending.recorded done))
  have later (id : Nat) (flow : Flow σ) (wait : Wait)
      (pending : change.Pending before id flow wait) :
      Settles (change.recorded before) tick (some (.suspended flow wait)) (after.find? id) :=
    pending.recorded done ▸ settled.phases id
  -- Between operations nothing is left to settle, so that a wait on record is not satisfied.
  constructor
  case unsatisfied =>
    intro id flow wait waiting
    rw [suspended?_eq_some] at waiting
    exact (consistent.outcome?_eq_none (consistent.shapely id flow wait waiting)).1
      (unsettled id flow wait waiting)
  case settled =>
    intro id flow wait waiting
    rw [suspended?_eq_some] at waiting
    exact (consistent'.outcome?_eq_none (consistent'.shapely id flow wait waiting)).1
      (unsettled' id flow wait waiting)
  case resumed =>
    intro id flow wait pending spared satisfied
    rcases (later id flow wait pending).of_suspended with still | ⟨cancellation, torn⟩ |
      ⟨value, released, stack, outcome, pushed, active⟩
    · exact ((shapely id flow wait pending).1 (unsettled' id flow wait still) satisfied).elim
    · simp [cancelled?_eq_some.2 torn] at spared
    · rw [← settled.outcome? wait] at outcome
      obtain ⟨top, below, records, rfl⟩ := Stack.modify_top_ok pushed
      exact ⟨value, _, consistent'.value?_of_outcome? outcome, active?_eq_some.2 active,
        rfl, top, below, records, rfl⟩
  case waiting =>
    intro id flow wait pending spared unsatisfied
    rcases (later id flow wait pending).of_suspended with still | ⟨cancellation, torn⟩ |
      ⟨value, released, stack, outcome, pushed, active⟩
    · exact suspended?_eq_some.2 still
    · simp [cancelled?_eq_some.2 torn] at spared
    · rw [← settled.outcome? wait, (shapely id flow wait pending).2 unsatisfied] at outcome
      cases outcome

/-- Flow 1 races flows 3 and 2, flow 3 waits for flow 4, and flow 5 for all of flow 2. -/
def raceBegun : List (Change Unit) :=
  let start : Change Unit := .create ⟨"flow", [], ()⟩ none false 0
  let on (strategy : Strategy) (ids : List FlowId) : Wait := ⟨strategy, ⟨"object", 0⟩, true, ids, 0⟩
  [start, start, start, start, start, .suspend 3 (on .single [4]) 0,
    .suspend 1 (on .race [3, 2]) 0, .suspend 5 (on .all [2]) 0]

theorem race_resolves_exactly : ∃ before after cancelled,
    Run raceBegun before ∧ (Change.complete 2 (.int 7) none 1).apply before = .ok cancelled after ∧
      cancelled.map Cancellation.id = [3, 4] ∧
      ResolvesExactly raceBegun (.complete 2 (.int 7) none 1) before after := by
  have run := (Run.start (σ := Unit)).replay raceBegun rfl
  exact ⟨_, _, _, run, rfl, rfl, awaits_resolve_exactly run rfl⟩

end FlowTable

end Cadence
