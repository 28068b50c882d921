import Cadence.Proofs.Engine
import Cadence.Proofs.Flow.Stack
import Cadence.Proofs.FlowTable.Teardown
import Mathlib.Data.List.Sort
/-!
Settling waits. Every flow is left as it was, is cancelled, or resumes with what its wait resolves
to, and no wait that is satisfied is passed over.
-/

namespace Cadence

/-- A wait is satisfied when the flow, all flows or one flow that it asks for has finished. -/
def Wait.Satisfied (finished : FlowId → Prop) (wait : Wait) : Prop :=
  match wait.strategy with
  | .single => ∃ id, wait.dependencies = [id] ∧ finished id
  | .all => ∀ id ∈ wait.dependencies, finished id
  | .race => ∃ id ∈ wait.dependencies, finished id

theorem Wait.unfinished {finished : FlowId → Prop} {wait : Wait} {id : FlowId}
    (shapely : wait.strategy.check id wait.dependencies.length = .ok ())
    (unsatisfied : ¬ wait.Satisfied finished) :
    (∃ child ∈ wait.dependencies, ¬ finished child) ∧
      (wait.strategy ≠ .all → ∀ child ∈ wait.dependencies, ¬ finished child) := by
  unfold Satisfied at unsatisfied
  cases kind : wait.strategy with
  | single =>
      rw [kind] at unsatisfied shapely
      obtain ⟨only, single⟩ : ∃ only, wait.dependencies = [only] := by
        rw [← List.length_eq_one_iff]
        simpa [Strategy.check] using shapely
      have nothing : ¬ finished only := fun done => unsatisfied ⟨only, single, done⟩
      simpa [single] using nothing
  | all =>
      rw [kind] at unsatisfied
      exact ⟨by simpa using unsatisfied, fun other => absurd rfl other⟩
  | race =>
      rw [kind] at unsatisfied shapely
      have nothing : ∀ child ∈ wait.dependencies, ¬ finished child := fun child member done =>
        unsatisfied ⟨child, member, done⟩
      obtain ⟨child, member⟩ : ∃ child, child ∈ wait.dependencies := by
        refine List.exists_mem_of_ne_nil _ fun empty => ?_
        simp [Strategy.check, empty] at shapely
      exact ⟨⟨child, member, nothing child member⟩, fun _ => nothing⟩

def Flow.resumed {σ : Type} (flow : Flow σ) (stack : Stack) (resumption : Resumption) : Flow σ :=
  { flow with stack, activation := flow.activation + 1, resumption := some resumption }

namespace FlowTable

variable {σ : Type} {table mid after : FlowTable σ} {tick : Tick} {id other : Nat} {wait : Wait}
  {flow : Flow σ} {value : Json} {released : List Released} {e : EngineError}

/-! ## Outcomes -/

def earliest (first? : Option Completion) (done : Completion) : Option Completion :=
  match first? with
  | none => some done
  | some first => if done.order < first.order then some done else some first

private theorem foldl_earliest (rest : List Completion) (first : Completion) :
    ∃ winner ∈ first :: rest, rest.foldl earliest (some first) = some winner ∧
      ∀ done ∈ first :: rest, winner.order ≤ done.order := by
  induction rest generalizing first with
  | nil => exact ⟨first, by simp, rfl, by simp⟩
  | cons next rest ih =>
      by_cases sooner : next.order < first.order
      · obtain ⟨winner, member, folded, least⟩ := ih next
        refine ⟨winner, List.mem_cons_of_mem _ member, ?_, ?_⟩
        · simpa [List.foldl_cons, earliest, sooner] using folded
        · intro done h
          rcases List.mem_cons.1 h with rfl | h
          · have := least next (List.mem_cons_self ..)
            omega
          · exact least done h
      · obtain ⟨winner, member, folded, least⟩ := ih first
        refine ⟨winner, ?_, ?_, ?_⟩
        · rcases List.mem_cons.1 member with rfl | member
          · exact List.mem_cons_self ..
          · exact List.mem_cons_of_mem _ (List.mem_cons_of_mem _ member)
        · simpa [List.foldl_cons, earliest, sooner] using folded
        · intro done h
          rcases List.mem_cons.1 h with rfl | h
          · exact least done (List.mem_cons_self ..)
          · rcases List.mem_cons.1 h with rfl | h
            · have := least first (List.mem_cons_self ..)
              omega
            · exact least done (List.mem_cons_of_mem _ h)

theorem firstCompleted?_eq_none {ids : List FlowId} :
    table.firstCompleted? ids = none ↔ ∀ id ∈ ids, table.completed? id = none := by
  have cases : table.firstCompleted? ids = none ↔ ids.filterMap table.completed? = [] := by
    show (ids.filterMap table.completed?).foldl earliest none = none ↔ _
    cases ids.filterMap table.completed? with
    | nil => simp
    | cons first rest =>
        obtain ⟨winner, -, folded, -⟩ := foldl_earliest rest first
        simp [earliest, folded]
  rw [cases, List.filterMap_eq_nil_iff]

theorem firstCompleted?_eq_some {ids : List FlowId} {winner : Completion}
    (found : table.firstCompleted? ids = some winner) :
    (∃ id ∈ ids, table.completed? id = some winner) ∧
      ∀ id ∈ ids, ∀ done, table.completed? id = some done → winner.order ≤ done.order := by
  change (ids.filterMap table.completed?).foldl earliest none = some winner at found
  cases finished : ids.filterMap table.completed? with
  | nil => simp [finished] at found
  | cons first rest =>
      obtain ⟨winner', member, folded, least⟩ := foldl_earliest rest first
      obtain rfl : winner' = winner := by
        rw [finished] at found
        exact Option.some.inj (folded.symm.trans found)
      rw [← finished] at member least
      refine ⟨List.mem_filterMap.1 member, fun id listed done h => ?_⟩
      exact least done (List.mem_filterMap.2 ⟨id, listed, h⟩)

private theorem mapM_congr {α β : Type} {f g : α → Option β} {items : List α}
    (same : ∀ a ∈ items, f a = g a) : items.mapM f = items.mapM g := by
  induction items with
  | nil => rfl
  | cons a items ih =>
      rw [List.mapM_cons, List.mapM_cons, same a (List.mem_cons_self ..),
        ih fun b member => same b (List.mem_cons_of_mem _ member)]

theorem outcome?_local (same : ∀ id ∈ wait.dependencies, mid.completed? id = table.completed? id) :
    mid.outcome? wait = table.outcome? wait := by
  have finished : ∀ id ∈ wait.dependencies, mid.released? id = table.released? id :=
    fun id member => by rw [released?, released?, same id member]
  unfold outcome? firstCompleted?
  cases wait.strategy with
  | single =>
      cases first : wait.dependencies.head? with
      | none => rfl
      | some id =>
          simp only [Option.bind_eq_bind, Option.bind_some, finished id (List.mem_of_head? first)]
  | all => simp only [mapM_congr finished]
  | race => simp only [List.filterMap_congr same]

theorem outcome?_congr (same : ∀ id, mid.completed? id = table.completed? id) (wait : Wait) :
    mid.outcome? wait = table.outcome? wait :=
  outcome?_local fun id _ => same id

private theorem mapM_eq_none {α β : Type} {f : α → Option β} {items : List α} :
    items.mapM f = none ↔ ∃ a ∈ items, f a = none := by
  induction items with
  | nil => simp
  | cons a items ih =>
      cases head : f a with
      | none => simp [List.mapM_cons, head]
      | some b =>
          cases tail : items.mapM f with
          | none => simpa [List.mapM_cons, head, tail] using ih.1 tail
          | some bs =>
              have none_missing : ¬ ∃ a ∈ items, f a = none := fun h => by simp [ih.2 h] at tail
              simpa [List.mapM_cons, head, tail] using none_missing

theorem mapM_eq_some {α β : Type} {f : α → Option β} {items : List α} {results : List β} :
    items.mapM f = some results ↔ List.Forall₂ (fun a b => f a = some b) items results := by
  induction items generalizing results with
  | nil => cases results <;> simp
  | cons a items ih =>
      cases results with
      | nil =>
          cases head : f a <;> cases tail : items.mapM f <;> simp [List.mapM_cons, head, tail]
      | cons b results =>
          rw [List.forall₂_cons, ← ih]
          cases head : f a <;> cases tail : items.mapM f <;> simp [List.mapM_cons, head, tail]

theorem outcome?_eq_none (shapely : wait.strategy.check id wait.dependencies.length = .ok ()) :
    table.outcome? wait = none ↔
      ¬ wait.Satisfied fun id => ∃ done, table.completed? id = some done := by
  unfold outcome? Wait.Satisfied
  cases kind : wait.strategy with
  | single =>
      obtain ⟨only, single⟩ : ∃ only, wait.dependencies = [only] := by
        rw [← List.length_eq_one_iff]
        simpa [kind, Strategy.check] using shapely
      cases finished : table.completed? only <;> simp [single, released?, finished]
  | all =>
      have missing : wait.dependencies.mapM table.released? = none ↔
          ∃ id ∈ wait.dependencies, table.completed? id = none := by
        simp [mapM_eq_none, released?]
      cases found : wait.dependencies.mapM table.released? with
      | none =>
          obtain ⟨id, listed, unfinished⟩ := missing.1 found
          simpa using ⟨id, listed, by simp [unfinished]⟩
      | some released =>
          have complete : ∀ id ∈ wait.dependencies, ∃ done, table.completed? id = some done := by
            intro id listed
            by_contra unfinished
            have none : table.completed? id = none := by
              simpa [Option.eq_none_iff_forall_ne_some] using unfinished
            simp [missing.2 ⟨id, listed, none⟩] at found
          simpa using complete
  | race =>
      cases found : table.firstCompleted? wait.dependencies with
      | none =>
          have unfinished := firstCompleted?_eq_none.1 found
          simpa using fun id listed done finished => by simp [unfinished id listed] at finished
      | some winner =>
          obtain ⟨⟨id, listed, finished⟩, -⟩ := firstCompleted?_eq_some found
          simpa using ⟨id, listed, winner, finished⟩

inductive Resolves (table : FlowTable σ) (wait : Wait) : Json → List Released → Prop
  | single {id : FlowId} {done : Completion} (kind : wait.strategy = .single)
      (only : wait.dependencies.head? = some id) (finished : table.completed? id = some done) :
      Resolves table wait done.value [⟨id, done.lastAddress, done.value⟩]
  | all {released : List Released} (kind : wait.strategy = .all)
      (collected : List.Forall₂ (fun id one => table.released? id = some one)
        wait.dependencies released) :
      Resolves table wait (.arr (released.map Released.value)) released
  | race {winner : Completion} (kind : wait.strategy = .race)
      (first : table.firstCompleted? wait.dependencies = some winner) :
      Resolves table wait winner.value [⟨winner.id, winner.lastAddress, winner.value⟩]

theorem released?_eq_some {one : Released} (found : table.released? id = some one) :
    ∃ done, table.completed? id = some done ∧ one = ⟨id, done.lastAddress, done.value⟩ := by
  cases finished : table.completed? id with
  | none => simp [released?, finished] at found
  | some done => exact ⟨done, rfl, by simpa [released?, finished] using found.symm⟩

theorem resolves_of_outcome? (outcome : table.outcome? wait = some (value, released)) :
    Resolves table wait value released := by
  unfold outcome? at outcome
  cases kind : wait.strategy with
  | single =>
      rw [kind] at outcome
      cases only : wait.dependencies.head? with
      | none => simp [only] at outcome
      | some id =>
          cases finished : table.completed? id with
          | none => simp [only, released?, finished] at outcome
          | some done =>
              obtain ⟨rfl, rfl⟩ : done.value = value ∧
                  [⟨id, done.lastAddress, done.value⟩] = released := by
                simpa [only, released?, finished] using outcome
              exact .single kind only finished
  | all =>
      rw [kind] at outcome
      cases collected : wait.dependencies.mapM table.released? with
      | none => simp [collected] at outcome
      | some all =>
          obtain ⟨rfl, rfl⟩ : Json.arr (all.map Released.value) = value ∧ all = released := by
            simpa [collected] using outcome
          exact .all kind (mapM_eq_some.1 collected)
  | race =>
      rw [kind] at outcome
      cases first : table.firstCompleted? wait.dependencies with
      | none => simp [first] at outcome
      | some winner =>
          obtain ⟨rfl, rfl⟩ : winner.value = value ∧
              [⟨winner.id, winner.lastAddress, winner.value⟩] = released := by
            simpa [first] using outcome
          exact .race kind first

theorem Resolves.completed (resolves : Resolves table wait value released) :
    ∀ one ∈ released, ∃ place done, table.completed? place = some done ∧
      one = ⟨one.flow, done.lastAddress, done.value⟩ := by
  cases resolves with
  | single kind only finished => simpa using ⟨_, _, finished, rfl, rfl⟩
  | all kind collected =>
      generalize wait.dependencies = ids at collected
      induction collected with
      | nil => simp
      | cons found _ ih =>
          intro one member
          rcases List.mem_cons.1 member with rfl | member
          · obtain ⟨done, finished, same⟩ := released?_eq_some found
            exact ⟨_, done, finished, by rw [same]⟩
          · exact ih one member
  | race kind first =>
      obtain ⟨⟨place, -, finished⟩, -⟩ := firstCompleted?_eq_some first
      simpa using ⟨place, _, finished, rfl, rfl⟩

/-! ## Resuming -/

theorem cancellation_resumed {stack : Stack} {resumption : Resumption} {value : Json}
    (pushed : flow.stack.modify 0 (·.push (.provideGiven value)) = .ok stack)
    (parent : FlowId) (caller : Option Address) (tick : Tick) :
    (flow.resumed stack resumption).cancellation parent caller tick =
      flow.cancellation parent caller tick := by
  obtain ⟨top, below, records, rfl⟩ := Stack.modify_top_ok pushed
  unfold Flow.cancellation Flow.resumed Stack.openFrames
  cases below with
  | nil => simp [records, List.filterMap_cons]
  | cons next rest => simp [records, List.filterMap_cons]

inductive Settles (table : FlowTable σ) (tick : Tick) :
    Option (Phase σ) → Option (Phase σ) → Prop
  | spared {before after : Option (Phase σ)} (spares : Spares tick before after) :
      Settles table tick before after
  | resumed {flow : Flow σ} {wait : Wait} {value : Json} {released : List Released}
      {stack : Stack} (outcome : table.outcome? wait = some (value, released))
      (pushed : flow.stack.modify 0 (·.push (.provideGiven value)) = .ok stack) :
      Settles table tick (some (.suspended flow wait))
        (some (.active (flow.resumed stack ⟨tick, wait.caller, wait.isDependency, released⟩)))

theorem Settles.trans {first second third : Option (Phase σ)}
    (h : Settles table tick first second) (h' : Settles table tick second third) :
    Settles table tick first third := by
  cases h with
  | spared spares =>
      cases h' with
      | spared spares' => exact .spared (spares.trans spares')
      | resumed outcome pushed =>
          cases spares with | same => exact .resumed outcome pushed
  | @resumed flow wait value released stack outcome pushed =>
      cases h' with
      | spared spares' =>
          cases spares' with
          | same => exact .resumed outcome pushed
          | active _ parent caller =>
              rw [cancellation_resumed pushed]
              exact .spared (.suspended flow wait parent caller)

theorem Settles.of_suspended {later : Option (Phase σ)}
    (h : Settles table tick (some (.suspended flow wait)) later) :
    later = some (.suspended flow wait) ∨ (∃ cancellation, later = some (.cancelled cancellation)) ∨
      ∃ value released stack, table.outcome? wait = some (value, released) ∧
        flow.stack.modify 0 (·.push (.provideGiven value)) = .ok stack ∧
        later = some (.active
          (flow.resumed stack ⟨tick, wait.caller, wait.isDependency, released⟩)) := by
  cases h with
  | spared spares =>
      cases spares with
      | same => exact .inl rfl
      | suspended => exact .inr (.inl ⟨_, rfl⟩)
  | resumed outcome pushed => exact .inr (.inr ⟨_, _, _, outcome, pushed, rfl⟩)

structure Settled (table : FlowTable σ) (tick : Tick) (after : FlowTable σ) : Prop where
  size : after.phases.size = table.phases.size
  completions : after.completions = table.completions
  phases : ∀ id, Settles table tick (table.find? id) (after.find? id)

theorem Settled.refl (table : FlowTable σ) (tick : Tick) : Settled table tick table :=
  ⟨rfl, rfl, fun _ => .spared (.same _)⟩

theorem Settled.completed? (settled : Settled table tick after) (id : FlowId) :
    after.completed? id = table.completed? id := by
  have change := settled.phases id
  unfold FlowTable.completed?
  generalize table.find? id = before at change
  generalize after.find? id = later at change
  cases change with
  | spared spares => cases spares <;> rfl
  | resumed => rfl

theorem Settled.outcome? (settled : Settled table tick after) (wait : Wait) :
    after.outcome? wait = table.outcome? wait :=
  outcome?_congr settled.completed? wait

theorem Settled.trans (earlier : Settled table tick mid) (later : Settled mid tick after) :
    Settled table tick after where
  size := later.size.trans earlier.size
  completions := later.completions.trans earlier.completions
  phases id := by
    refine (earlier.phases id).trans ?_
    have change := later.phases id
    generalize mid.find? id = before at change ⊢
    generalize after.find? id = last at change ⊢
    cases change with
    | spared spares => exact .spared spares
    | resumed outcome pushed => exact .resumed ((earlier.outcome? _).symm.trans outcome) pushed

theorem Settled.suspended (settled : Settled table tick after)
    (found : after.find? id = some (.suspended flow wait)) :
    table.find? id = some (.suspended flow wait) := by
  have change := settled.phases id
  rw [found] at change
  generalize table.find? id = before at change ⊢
  cases change with
  | spared spares => cases spares with | same => rfl

theorem Settled.of_live (settled : Settled table tick after) (live : after.live? id = some flow) :
    ∃ old, table.live? id = some old ∧ (flow = old ∨ ∃ stack resumption value,
      old.stack.modify 0 (·.push (.provideGiven value)) = .ok stack ∧
        flow = old.resumed stack resumption) := by
  have change := settled.phases id
  unfold live? at live ⊢
  generalize table.find? id = before at change ⊢
  generalize after.find? id = last at change live
  cases change with
  | spared spares =>
      cases spares with
      | same => exact ⟨flow, live, .inl rfl⟩
      | active => cases live
      | suspended => cases live
  | @resumed old _ value _ _ outcome pushed =>
      obtain rfl := Option.some.inj live
      exact ⟨old, rfl, .inr ⟨_, _, value, pushed, rfl⟩⟩

/-- What holds of all phases holds of them once waits are settled, if it goes on to hold of the flows
that are cancelled and of those that are resumed. -/
theorem Settled.forall_phases {holds : FlowId → Phase σ → Prop} (settled : Settled table tick after)
    (before : ∀ id phase, table.find? id = some phase → holds id phase)
    (cancelled : ∀ id flow parent caller, table.live? id = some flow →
      holds id (.cancelled (flow.cancellation parent caller tick)))
    (resumed : ∀ id flow wait value released stack, table.find? id = some (.suspended flow wait) →
      table.outcome? wait = some (value, released) →
      flow.stack.modify 0 (·.push (.provideGiven value)) = .ok stack →
      let flow' := flow.resumed stack ⟨tick, wait.caller, wait.isDependency, released⟩
      after.find? id = some (.active flow') → holds id (.active flow'))
    (id : FlowId) (phase : Phase σ) (found : after.find? id = some phase) : holds id phase := by
  have change := settled.phases id
  rw [found] at change
  generalize earlier : table.find? id = old at change
  cases change with
  | spared spares =>
      cases spares with
      | same => exact before id phase earlier
      | active flow parent caller =>
          exact cancelled id flow parent caller (live?_eq_some.2 (.inl earlier))
      | suspended flow wait parent caller =>
          exact cancelled id flow parent caller (live?_eq_some.2 (.inr ⟨wait, earlier⟩))
  | resumed outcome pushed => exact resumed id _ _ _ _ _ earlier outcome pushed found

theorem resume_eq {stack : Stack} {wait' : Wait}
    (found : table.find? id = some (.suspended flow wait'))
    (pushed : flow.stack.modify 0 (·.push (.provideGiven value)) = .ok stack) :
    resume id wait value released tick table = .ok () (table.put id (some (.active
      (flow.resumed stack ⟨tick, wait.caller, wait.isDependency, released⟩)))) := by
  simp only [resume, suspended?_eq_some.2 found, pushed]
  rfl

theorem resume_ok (done : resume id wait value released tick table = .ok () after) :
    ∃ flow wait' stack, table.find? id = some (.suspended flow wait') ∧
      flow.stack.modify 0 (·.push (.provideGiven value)) = .ok stack ∧
      after = table.put id (some (.active
        (flow.resumed stack ⟨tick, wait.caller, wait.isDependency, released⟩))) := by
  cases waiting : table.suspended? id with
  | none => simp [resume, waiting] at done
  | some pair =>
      obtain ⟨flow, wait'⟩ := pair
      cases pushed : flow.stack.modify 0 (·.push (.provideGiven value)) with
      | error e => simp [resume, waiting, pushed] at done
      | ok stack =>
          rw [resume_eq (suspended?_eq_some.1 waiting) pushed] at done
          injection done with _ same
          exact ⟨flow, wait', stack, suspended?_eq_some.1 waiting, pushed, same.symm⟩

/-! ## Settling one wait -/

def decided (table : FlowTable σ) (id : FlowId) (wait : Wait) (released : List Released)
    (tick : Tick) : FlowTable σ :=
  if wait.strategy = .race then
    (tearDownLosers (released.head?.map Released.flow) id wait.caller tick wait.dependencies
      (table.withdraw id)).2
  else table

theorem settle_of_unsatisfied (unsatisfied : ∀ flow wait,
    table.find? id = some (.suspended flow wait) → table.outcome? wait = none) :
    settle id tick table = .ok [] table := by
  unfold settle
  cases found : table.suspended? id with
  | none => rfl
  | some pair =>
      obtain ⟨flow, wait⟩ := pair
      simp [unsatisfied flow wait (suspended?_eq_some.1 found)]

def contest (table : FlowTable σ) (id : FlowId) (wait : Wait) (released : List Released)
    (tick : Tick) : List Cancellation × FlowTable σ :=
  if wait.strategy = .race then
    tearDownLosers (released.head?.map Released.flow) id wait.caller tick wait.dependencies
      (table.withdraw id)
  else ([], table)

theorem snd_contest (table : FlowTable σ) (id : FlowId) (wait : Wait) (released : List Released)
    (tick : Tick) : (table.contest id wait released tick).2 = table.decided id wait released tick := by
  unfold contest decided
  split <;> rfl

theorem release_eq (table : FlowTable σ) (id : FlowId) (wait : Wait) (value : Json)
    (released : List Released) (tick : Tick) :
    release id wait value released tick table =
      match resume id wait value released tick (table.contest id wait released tick).2 with
      | .ok () after => .ok (table.contest id wait released tick).1 after
      | .error e after => .error e after := by
  have decides : dropLosers id wait released tick table =
      .ok (table.contest id wait released tick).1 (table.contest id wait released tick).2 := by
    unfold dropLosers contest
    split
    · exact cancelLosers_eq ..
    · rfl
  rw [release, Engine.bind_of_ok decides]
  show EStateM.bind (resume id wait value released tick) _ _ = _
  unfold EStateM.bind
  cases resume id wait value released tick (table.contest id wait released tick).2 with
  | ok _ after => rfl
  | error e after => rfl

theorem settle_eq (found : table.find? id = some (.suspended flow wait))
    (outcome : table.outcome? wait = some (value, released)) (tick : Tick) :
    settle id tick table =
      match resume id wait value released tick (table.contest id wait released tick).2 with
      | .ok () after => .ok (table.contest id wait released tick).1 after
      | .error e after => .error e after := by
  simp only [settle, suspended?_eq_some.2 found, outcome]
  exact release_eq ..

theorem settle_of_satisfied (found : table.find? id = some (.suspended flow wait))
    (outcome : table.outcome? wait = some (value, released)) (tick : Tick) :
    ∃ cancelled, settle id tick table =
      match resume id wait value released tick (table.decided id wait released tick) with
      | .ok () after => .ok cancelled after
      | .error e after => .error e after := by
  rw [settle_eq found outcome, snd_contest]
  exact ⟨_, rfl⟩

theorem find?_withdraw (found : table.find? id = some (.suspended flow wait)) (other : Nat) :
    (table.withdraw id).find? other =
      if other = id then some (.suspended flow { wait with dependencies := [] })
      else table.find? other := by
  simp only [withdraw, suspended?_eq_some.2 found]
  exact find?_put found other

@[simp] theorem size_withdraw (table : FlowTable σ) (id : FlowId) :
    (table.withdraw id).phases.size = table.phases.size := by
  unfold withdraw
  split
  · exact size_put ..
  · rfl

@[simp] theorem completions_withdraw (table : FlowTable σ) (id : FlowId) :
    (table.withdraw id).completions = table.completions := by
  unfold withdraw
  split
  · exact completions_put ..
  · rfl

@[simp] theorem size_decided (table : FlowTable σ) (id : FlowId) (wait : Wait)
    (released : List Released) (tick : Tick) :
    (table.decided id wait released tick).phases.size = table.phases.size := by
  unfold decided
  split
  · exact (size_tearDownLosers ..).trans (size_withdraw ..)
  · rfl

@[simp] theorem completions_decided (table : FlowTable σ) (id : FlowId) (wait : Wait)
    (released : List Released) (tick : Tick) :
    (table.decided id wait released tick).completions = table.completions := by
  unfold decided
  split
  · exact (completions_tearDownLosers ..).trans (completions_withdraw ..)
  · rfl

theorem spares_decided (found : table.find? id = some (.suspended flow wait))
    (distinct : other ≠ id) :
    Spares tick (table.find? other) ((table.decided id wait released tick).find? other) := by
  unfold decided
  split
  · have spares := spares_tearDownLosers (released.head?.map Released.flow) id wait.caller tick
      wait.dependencies (table.withdraw id) other
    rwa [find?_withdraw found, if_neg distinct] at spares
  · exact .same _

theorem decided_self (found : table.find? id = some (.suspended flow wait))
    {flow' : Flow σ} {wait' : Wait}
    (waiting : (table.decided id wait released tick).find? id = some (.suspended flow' wait')) :
    flow' = flow := by
  unfold decided at waiting
  split at waiting
  · have spares := spares_tearDownLosers (released.head?.map Released.flow) id wait.caller tick
      wait.dependencies (table.withdraw id) id
    rw [find?_withdraw found, if_pos rfl, waiting] at spares
    cases spares with | same => rfl
  · rw [found] at waiting
    injection waiting with same
    injection same with same
    exact same.symm

theorem settled_put (found : table.find? id = some (.suspended flow wait))
    (outcome : table.outcome? wait = some (value, released)) {wait' : Wait} {stack : Stack}
    (waiting : (table.decided id wait released tick).find? id = some (.suspended flow wait'))
    (pushed : flow.stack.modify 0 (·.push (.provideGiven value)) = .ok stack) :
    Settled table tick ((table.decided id wait released tick).put id (some (.active
      (flow.resumed stack ⟨tick, wait.caller, wait.isDependency, released⟩)))) where
  size := (size_put ..).trans (size_decided ..)
  completions := (completions_put ..).trans (completions_decided ..)
  phases other := by
    rw [find?_put waiting]
    by_cases same : other = id
    · rw [if_pos same, same, found]
      exact .resumed outcome pushed
    · rw [if_neg same]
      exact .spared (spares_decided found same)

/-- A flow whose wait is satisfied has its turn. Settling that of any other does nothing. -/
theorem settle_turn (table : FlowTable σ) (id : Nat) (tick : Tick) :
    (∃ flow wait value released, table.find? id = some (.suspended flow wait) ∧
      table.outcome? wait = some (value, released)) ∨
    ((∀ flow wait, table.find? id = some (.suspended flow wait) → table.outcome? wait = none) ∧
      settle id tick table = .ok [] table) := by
  by_cases ready : ∃ flow wait value released,
      table.find? id = some (.suspended flow wait) ∧ table.outcome? wait = some (value, released)
  · exact .inl ready
  · have unsatisfied : ∀ flow wait,
        table.find? id = some (.suspended flow wait) → table.outcome? wait = none := by
      intro flow wait found
      by_contra satisfied
      obtain ⟨⟨value, released⟩, outcome⟩ := Option.ne_none_iff_exists'.1 satisfied
      exact ready ⟨flow, wait, value, released, found, outcome⟩
    exact .inr ⟨unsatisfied, settle_of_unsatisfied unsatisfied⟩

theorem settle_ok {cancelled : List Cancellation}
    (done : settle id tick table = .ok cancelled after) :
    Settled table tick after ∧ ∀ flow wait,
      after.find? id = some (.suspended flow wait) → table.outcome? wait = none := by
  rcases settle_turn table id tick with
    ⟨flow, wait, value, released, found, outcome⟩ | ⟨unsatisfied, still⟩
  · obtain ⟨cancelled', settled⟩ := settle_of_satisfied found outcome tick
    rw [settled] at done
    cases resumed : resume id wait value released tick (table.decided id wait released tick) with
    | error e last => simp [resumed] at done
    | ok _ last =>
        simp only [resumed] at done
        injection done with _ same
        subst same
        obtain ⟨flow', wait', stack, waiting, pushed, rfl⟩ := resume_ok resumed
        obtain rfl := decided_self found waiting
        refine ⟨settled_put found outcome waiting pushed, fun flow wait still => ?_⟩
        simp [find?_put_self waiting] at still
  · rw [still] at done
    injection done with _ same
    subst same
    exact ⟨.refl .., unsatisfied⟩

theorem settle_fails (failed : settle id tick table = .error e after) :
    ∃ flow wait value released, table.find? id = some (.suspended flow wait) ∧
      table.outcome? wait = some (value, released) ∧
      resume id wait value released tick (table.decided id wait released tick) =
        .error e after := by
  rcases settle_turn table id tick with
    ⟨flow, wait, value, released, found, outcome⟩ | ⟨-, still⟩
  · obtain ⟨cancelled, settled⟩ := settle_of_satisfied found outcome tick
    rw [settled] at failed
    cases resumed : resume id wait value released tick (table.decided id wait released tick) with
    | ok _ last => simp [resumed] at failed
    | error e' last =>
        simp only [resumed] at failed
        injection failed with cause same
        subst cause same
        exact ⟨flow, wait, value, released, found, outcome, resumed⟩
  · rw [still] at failed
    cases failed

/-! ## Settling all waits -/

theorem settleEach_cons_ok {ids : List FlowId} {cancelled : List Cancellation} :
    settleEach tick (id :: ids) table = .ok cancelled after ↔ ∃ earlier mid later,
      settle id tick table = .ok earlier mid ∧ settleEach tick ids mid = .ok later after ∧
        earlier ++ later = cancelled := by
  simp only [settleEach, Engine.bind_ok, Engine.pure_ok]
  constructor
  · rintro ⟨earlier, mid, first, later, last, rest, rfl, rfl⟩
    exact ⟨earlier, mid, later, first, rest, rfl⟩
  · rintro ⟨earlier, mid, later, first, rest, rfl⟩
    exact ⟨earlier, mid, first, later, after, rest, rfl, rfl⟩

theorem settleEach_ok {ids : List FlowId} {cancelled : List Cancellation}
    (done : settleEach tick ids table = .ok cancelled after) :
    Settled table tick after ∧ ∀ id ∈ ids, ∀ flow wait,
      after.find? id = some (.suspended flow wait) → table.outcome? wait = none := by
  induction ids generalizing table cancelled with
  | nil =>
      injection done with _ same
      subst same
      exact ⟨.refl .., by simp⟩
  | cons id ids ih =>
      obtain ⟨earlier, mid, later, first, rest, -⟩ := settleEach_cons_ok.1 done
      obtain ⟨settled, unsatisfied⟩ := settle_ok first
      obtain ⟨settled', unsatisfied'⟩ := ih rest
      refine ⟨settled.trans settled', fun x member flow wait waiting => ?_⟩
      rcases List.mem_cons.1 member with rfl | member
      · exact unsatisfied flow wait (settled'.suspended waiting)
      · exact (settled.outcome? wait).symm.trans (unsatisfied' x member flow wait waiting)

def Unsettled (table : FlowTable σ) : Prop :=
  ∀ id flow wait, table.find? id = some (.suspended flow wait) → table.outcome? wait = none

theorem Settled.unsettled (settled : Settled table tick after) (unsettled : table.Unsettled) :
    after.Unsettled := fun id flow wait found =>
  (settled.outcome? wait).trans (unsettled id flow wait (settled.suspended found))

theorem Unsettled.put_active (unsettled : table.Unsettled)
    (active : table.find? id = some (.active flow)) (flow' : Flow σ) :
    (table.put id (some (.active flow'))).Unsettled := by
  intro other flow'' wait found
  rw [outcome?_congr (completed?_put active (by simp))]
  rw [find?_put active] at found
  split at found
  · simp at found
  · exact unsettled other flow'' wait found

theorem Unsettled.create (unsettled : table.Unsettled) (recipe : Recipe σ)
    (caller : Option Address) (isDependency : Bool) (tick : Tick) :
    (table.create recipe caller isDependency tick).2.Unsettled := by
  intro other flow wait found
  rw [outcome?_congr (completed?_create table recipe caller isDependency tick)]
  rw [find?_create] at found
  split at found
  · simp at found
  · exact unsettled other flow wait found

theorem mem_ready :
    id ∈ table.ready ↔ ∃ flow wait, table.find? id = some (.suspended flow wait) ∧
      table.outcome? wait ≠ none := by
  unfold ready
  rw [mem_collect]
  constructor
  · rintro ⟨x, phase, found, seen⟩
    cases phase with
    | suspended flow wait =>
        obtain ⟨satisfied, rfl⟩ : (table.outcome? wait).isSome = true ∧ x = id := by
          simpa using seen
        exact ⟨flow, wait, found, by simpa [Option.isSome_iff_ne_none] using satisfied⟩
    | active => simp at seen
    | completed => simp at seen
    | cancelled => simp at seen
  · rintro ⟨flow, wait, found, satisfied⟩
    exact ⟨id, _, found, by simp [Option.isSome_iff_ne_none, satisfied]⟩

theorem sorted_ready (table : FlowTable σ) : table.ready.Pairwise (· < ·) := by
  have sorted : (table.ready.map fun id => id).Pairwise (· < ·) := by
    apply sorted_collect
    intro id phase id' seen
    cases phase with
    | suspended flow wait =>
        obtain ⟨-, rfl⟩ : (table.outcome? wait).isSome = true ∧ id = id' := by simpa using seen
        rfl
    | active => cases seen
    | completed => cases seen
    | cancelled => cases seen
  rwa [List.map_id'] at sorted

theorem Unsettled.resolve (unsettled : table.Unsettled) (tick : Tick) :
    resolve tick table = .ok [] table := by
  have nothing : table.ready = [] := by
    rw [List.eq_nil_iff_forall_not_mem]
    intro id member
    obtain ⟨flow, wait, found, satisfied⟩ := mem_ready.1 member
    exact satisfied (unsettled id flow wait found)
  rw [FlowTable.resolve, nothing]
  rfl

theorem resolve_one {stack : Stack} (found : table.find? id = some (.suspended flow wait))
    (outcome : table.outcome? wait = some (value, released)) (plain : wait.strategy ≠ .race)
    (pushed : flow.stack.modify 0 (·.push (.provideGiven value)) = .ok stack)
    (alone : ∀ other flow' wait', table.find? other = some (.suspended flow' wait') →
      table.outcome? wait' ≠ none → other = id) :
    resolve tick table = .ok [] (table.put id (some (.active
      (flow.resumed stack ⟨tick, wait.caller, wait.isDependency, released⟩)))) := by
  have satisfied : table.outcome? wait ≠ none := by simp [outcome]
  have member (other : Nat) : other ∈ table.ready ↔ other ∈ [id] := by
    rw [List.mem_singleton, mem_ready]
    constructor
    · rintro ⟨flow', wait', waiting, ready⟩
      exact alone other flow' wait' waiting ready
    · rintro rfl
      exact ⟨flow, wait, found, satisfied⟩
  have distinct : table.ready.Nodup := (sorted_ready table).imp Nat.ne_of_lt
  have first : table.ready = [id] :=
    List.perm_singleton.1 ((List.perm_ext_iff_of_nodup distinct (List.pairwise_singleton _ id)).2 member)
  have uncontested : table.contest id wait released tick = ([], table) := if_neg plain
  rw [resolve, first, settleEach_cons_ok]
  refine ⟨[], _, [], ?_, rfl, rfl⟩
  rw [settle_eq found outcome, uncontested]
  simp only [resume_eq found pushed]

theorem resolve_ok {cancelled : List Cancellation}
    (done : resolve tick table = .ok cancelled after) :
    Settled table tick after ∧ after.Unsettled := by
  obtain ⟨settled, unsatisfied⟩ := settleEach_ok done
  refine ⟨settled, fun id flow wait waiting => ?_⟩
  rw [settled.outcome? wait]
  by_contra satisfied
  have member : id ∈ table.ready := mem_ready.2 ⟨flow, wait, settled.suspended waiting, satisfied⟩
  exact satisfied (unsatisfied id member flow wait waiting)

theorem settleEach_filter_ready (ids : List FlowId) (settled : Settled table tick mid) :
    settleEach tick (ids.filter (· ∈ table.ready)) mid = settleEach tick ids mid := by
  induction ids generalizing mid with
  | nil => rfl
  | cons id ids ih =>
      -- No wait becomes satisfied along the way, as settling completes no flow.
      by_cases ready : id ∈ table.ready
      · rw [List.filter_cons_of_pos (by simpa using ready)]
        show EStateM.bind (settle id tick) _ mid = EStateM.bind (settle id tick) _ mid
        unfold EStateM.bind
        cases done : settle id tick mid with
        | error e after => rfl
        | ok cancelled after =>
            have rest := ih (settled.trans (settle_ok done).1)
            show EStateM.bind (settleEach tick _) _ after = EStateM.bind (settleEach tick ids) _ after
            unfold EStateM.bind
            rw [rest]
      · have unsatisfied : ∀ flow wait,
            mid.find? id = some (.suspended flow wait) → mid.outcome? wait = none := by
          intro flow wait found
          by_contra satisfied
          rw [settled.outcome?] at satisfied
          exact ready (mem_ready.2 ⟨flow, wait, settled.suspended found, satisfied⟩)
        rw [List.filter_cons_of_neg (by simpa using ready), ih settled, settleEach,
          Engine.bind_of_ok (settle_of_unsatisfied unsatisfied)]
        exact (congrFun (bind_pure (settleEach tick ids)) mid).symm

theorem sorted_waiting (table : FlowTable σ) : table.waiting.Pairwise (· < ·) := by
  have sorted : (table.waiting.map fun id => id).Pairwise (· < ·) := by
    apply sorted_collect
    intro id phase id' seen
    cases phase with
    | suspended => exact (Option.some.inj seen).symm
    | active | completed | cancelled => cases seen
  rwa [List.map_id'] at sorted

theorem filter_waiting (table : FlowTable σ) : table.waiting.filter (· ∈ table.ready) = table.ready := by
  refine ((sorted_waiting table).filter _).eq_of_mem_iff (sorted_ready table) fun id => ?_
  rw [List.mem_filter, decide_eq_true_iff, and_iff_right_iff_imp]
  intro ready
  obtain ⟨flow, wait, found, -⟩ := mem_ready.1 ready
  unfold waiting
  exact mem_collect.2 ⟨id, _, found, rfl⟩

theorem resolve_eq (table : FlowTable σ) (tick : Tick) :
    resolve tick table = settleEach tick table.waiting table := by
  rw [resolve, ← settleEach_filter_ready table.waiting (.refl table tick), filter_waiting]

/-! ## What may be suspended -/

theorem checkSuspension_eq_ok :
    table.checkSuspension id wait = .ok flow ↔
      table.active? id = some flow ∧
        wait.strategy.check id wait.dependencies.length = .ok () := by
  unfold checkSuspension
  cases found : table.find? id with
  | none =>
      cases wait.strategy.check id wait.dependencies.length <;>
        simp [suspended?, active?, found, bind, Except.bind, throw, throwThe, MonadExceptOf.throw]
  | some phase =>
      cases phase <;> cases wait.strategy.check id wait.dependencies.length <;>
        simp [suspended?, active?, found, bind, Except.bind, throw, throwThe, MonadExceptOf.throw,
          pure, Except.pure]

theorem suspend_eq (active : table.find? id = some (.active flow))
    (shapely : wait.strategy.check id wait.dependencies.length = .ok ()) (tick : Tick) :
    suspend id wait tick table = resolve tick (table.put id (some (.suspended flow wait))) := by
  unfold suspend
  rw [checkSuspension_eq_ok.2 ⟨active?_eq_some.2 active, shapely⟩]

end FlowTable

end Cadence
