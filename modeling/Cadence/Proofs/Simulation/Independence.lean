import Cadence.Proofs.Simulation.Lockstep
/-!
Flows of different trees do not interfere. A session in which only some of its root flows are spawned
goes through the same ticks as one with all of them, as far as the trees of these flows go.
-/

namespace Cadence

open Contract Engine FlowTable

variable {σ : Type} {s : Selection}

namespace Tracked

variable [Coroutine σ] {whole part before : Tracked σ}

theorem follow_spawn (holds : (any σ).Holds before) (recipe : Recipe σ) :
    (Simulation.Operation.spawn recipe).follow before =
      ⟨(before.sim.spawn recipe).2, before.lineage ++ List.replicate 1 none⟩ := by
  obtain ⟨sim, lineage⟩ := before
  refine follow_eq none ?_
  rw [← holds.orders.forest.size]
  simp [Simulation.Operation.apply, Simulation.spawn, FlowTable.create]

theorem Beside.spawn_kept (beside : Beside s whole part)
    (kept : s.kept (whole.sim.flows.phases.size + 1) = true) (recipe : Recipe σ) :
    Beside s ((Simulation.Operation.spawn recipe).follow whole)
      ((Simulation.Operation.spawn recipe).follow part) := by
  have size := beside.holds.orders.forest.size
  have size' := beside.holds'.orders.forest.size
  have now := beside.now
  obtain ⟨next, made⟩ := beside.flows.create kept recipe none false whole.sim.now
  rw [follow_spawn beside.holds, follow_spawn beside.holds']
  refine ⟨beside.holds.spawn trivial, beside.holds'.spawn trivial, ?_, ?_, beside.within,
    beside.effects, beside.tasks, beside.idle, beside.limits, beside.now, ?_⟩
  · simpa only [Simulation.spawn, now] using made
  · exact beside.aligned.congr (fun id _ => completed?_create ..) (fun id _ => completed?_create ..)
      (Nat.le_refl _) (Nat.le_refl _)
  · refine beside.spawned.append ?_ ?_ none
    · rw [← size, ← size']
      exact beside.flows.size
    · rw [← size, ← size']
      exact next

theorem Beside.spawn_other (beside : Beside s whole part)
    (other : s.kept (whole.sim.flows.phases.size + 1) = false) (recipe : Recipe σ) :
    Beside s ((Simulation.Operation.spawn recipe).follow whole) part := by
  have size := beside.holds.orders.forest.size
  rw [follow_spawn beside.holds]
  have grown : (whole.sim.spawn recipe).2.flows.phases.size = whole.sim.flows.phases.size + 1 := by
    simp [Simulation.spawn, FlowTable.create]
  have excerpt : Excerpt s (whole.sim.spawn recipe).2.flows part.sim.flows := by
    refine beside.flows.outside (by omega) (fun id kept => ?_) fun id above within => ?_
    · refine (find?_create ..).trans (if_neg ?_)
      rintro rfl
      rw [kept] at other
      cases other
    · obtain rfl : id = whole.sim.flows.phases.size + 1 := by omega
      exact other
  refine ⟨beside.holds.spawn trivial, beside.holds', excerpt, ?_, beside.within, beside.effects,
    beside.tasks, beside.idle, beside.limits, beside.now, ?_⟩
  · exact beside.aligned.congr (fun id _ => completed?_create ..) (fun _ _ => rfl) (Nat.le_refl _)
      (Nat.le_refl _)
  · refine beside.spawned.append_other (fun child above within => ?_) none
    obtain rfl : child = whole.sim.flows.phases.size + 1 := by omega
    exact other

def perform (operations : List (Simulation.Operation σ)) (tracked : Tracked σ) : Tracked σ :=
  operations.foldl (fun tracked operation => operation.follow tracked) tracked

theorem Beside.spawnAll (beside : Beside s whole part) {choices : List (Recipe σ × Bool)}
    (chosen : ∀ j recipe choice, choices[j]? = some (recipe, choice) →
      s.kept (whole.sim.flows.phases.size + j + 1) = choice) :
    Beside s (perform ((choices.map Prod.fst).map .spawn) whole)
      (perform (((choices.filter Prod.snd).map Prod.fst).map .spawn) part) := by
  induction choices generalizing whole part with
  | nil => exact beside
  | cons choice choices ih =>
      obtain ⟨recipe, choice⟩ := choice
      have first := chosen 0 recipe choice rfl
      have grown : ((Simulation.Operation.spawn recipe).follow whole).sim.flows.phases.size =
          whole.sim.flows.phases.size + 1 := by
        rw [follow_spawn beside.holds]
        simp [Simulation.spawn, FlowTable.create]
      have later : ∀ j recipe' choice', choices[j]? = some (recipe', choice') →
          s.kept (((Simulation.Operation.spawn recipe).follow whole).sim.flows.phases.size + j + 1) =
            choice' := fun j recipe' choice' found => by
        rw [grown, Nat.add_assoc _ 1 j, Nat.add_comm 1 j]
        exact chosen (j + 1) recipe' choice' found
      cases choice with
      | true => exact ih (beside.spawn_kept first recipe) later
      | false => exact ih (beside.spawn_other first recipe) later

end Tracked

/-- The tree of a flow: the flow itself and all that flows of the tree have spawned. -/
def Lineage.Under (lineage : Lineage) (root id : FlowId) : Prop :=
  Relation.ReflTransGen (fun parent child => lineage.spawner child = some parent) root id

section Choice

variable {lineage : Lineage} {base : Nat} {choices : List (Recipe σ × Bool)}

theorem Lineage.exists_selection
    (earlier : ∀ child parent : Nat, lineage.spawner child = some parent → parent < child)
    (rootless : ∀ j < choices.length, lineage.spawner (base + j + 1) = none) :
    ∃ s : Selection, s.base = base ∧ lineage.Respects s.kept ∧ ∀ id : FlowId, s.kept id = true ↔
      ∃ j recipe, choices[j]? = some (recipe, true) ∧ lineage.Under (base + j + 1) id := by
  classical
  let Chosen (id : FlowId) : Prop :=
    ∃ j recipe, choices[j]? = some (recipe, true) ∧ lineage.Under (base + j + 1) id
  have above (id : Nat) (chosen : Chosen id) : base < id := by
    obtain ⟨j, -, -, under⟩ := chosen
    have le : base + j + 1 ≤ id := by
      induction under with
      | refl => exact Nat.le_refl _
      | tail _ spawned ih => exact Nat.le_of_lt (Nat.lt_of_le_of_lt ih (earlier _ _ spawned))
    omega
  have respects (child parent : FlowId) (spawned : lineage.spawner child = some parent) :
      Chosen child ↔ Chosen parent := by
    constructor
    · rintro ⟨j, recipe, listed, under⟩
      refine ⟨j, recipe, listed, ?_⟩
      cases under with
      | refl =>
          rw [rootless j (List.getElem?_eq_some_iff.1 listed).1] at spawned
          cases spawned
      | tail under spawned' =>
          rw [spawned] at spawned'
          obtain rfl := Option.some.inj spawned'
          exact under
    · rintro ⟨j, recipe, listed, under⟩
      exact ⟨j, recipe, listed, under.tail spawned⟩
  refine ⟨⟨base, fun id => decide (Chosen id), fun id kept => above id (of_decide_eq_true kept)⟩,
    rfl, fun child parent spawned => decide_eq_decide.2 (respects child parent spawned),
    fun id => decide_eq_true_iff⟩

theorem Selection.kept_root {s : Selection}
    (rootless : ∀ j < choices.length, lineage.spawner (s.base + j + 1) = none)
    (trees : ∀ id : FlowId, s.kept id = true ↔
      ∃ j recipe, choices[j]? = some (recipe, true) ∧ lineage.Under (s.base + j + 1) id)
    {j : Nat} {recipe : Recipe σ} {choice : Bool} (listed : choices[j]? = some (recipe, choice)) :
    s.kept (s.base + j + 1) = choice := by
  cases choice with
  | true => exact (trees _).2 ⟨j, recipe, listed, .refl⟩
  | false =>
      rw [Bool.eq_false_iff]
      intro kept
      obtain ⟨i, recipe', listed', under⟩ := (trees _).1 kept
      rcases under.cases_tail with same | ⟨parent, -, spawned⟩
      · obtain rfl : j = i := by
          have same : s.base + j + 1 = s.base + i + 1 := same
          omega
        rw [listed] at listed'
        simp at listed'
      · rw [rootless j (List.getElem?_eq_some_iff.1 listed).1] at spawned
        cases spawned

theorem Selection.number_root {s : Selection}
    (chosen : ∀ j recipe choice, choices[j]? = some (recipe, choice) →
      s.kept (s.base + j + 1) = choice) {j : Nat} (inside : j ≤ choices.length) :
    s.number (s.base + j) = s.base + (choices.take j).countP Prod.snd := by
  induction j with
  | zero => exact number_of_le (Nat.le_refl _)
  | succ j ih =>
      have listed : choices[j]? = some choices[j] := List.getElem?_eq_getElem (by omega)
      rw [← Nat.add_assoc, number_succ, chosen j choices[j].1 choices[j].2 listed, ih (by omega),
        List.take_add_one, listed, List.countP_append]
      cases choice : choices[j].2 with
      | true => simp [choice, Nat.add_assoc]
      | false => simp [choice]

end Choice

namespace Tracked

variable [Coroutine σ] {tracked : Tracked σ} {limits : Limits}
  {operations : List (Simulation.Operation σ)}

theorem session_append (limits : Limits) (operations more : List (Simulation.Operation σ)) :
    session limits (operations ++ more) = perform more (session limits operations) :=
  List.foldl_append ..

theorem lineage_spawnAll (holds : (any σ).Holds tracked) (recipes : List (Recipe σ)) :
    (perform (recipes.map .spawn) tracked).lineage =
      tracked.lineage ++ List.replicate recipes.length none := by
  induction recipes generalizing tracked with
  | nil => simp [perform]
  | cons recipe recipes ih =>
      refine (ih (Simulation.Operation.follow_holds (.spawn recipe) holds)).trans ?_
      rw [follow_spawn holds, List.append_assoc, ← List.replicate_add, Nat.add_comm]
      rfl

theorem beside_self (holds : (any σ).Holds tracked) (idle : tracked.sim.isIdle = true)
    (base : s.base = tracked.sim.flows.phases.size) : Beside s tracked tracked := by
  have quiet : (∀ id, tracked.sim.flows.isLive id = false) ∧ tracked.sim.tasks.scheduled = [] := by
    simpa [Simulation.isIdle, hasLive_eq_false] using idle
  have dead := quiet.1
  have absent (id : Nat) (kept : s.kept id = true) : tracked.sim.flows.find? id = none :=
    find?_eq_none_of_size_lt (base ▸ s.above id kept)
  have absent' (id : Nat) (kept : s.kept id = true) :
      tracked.sim.flows.find? (s.number id) = none :=
    find?_eq_none_of_size_lt (base ▸ Selection.base_lt_number kept)
  have unfinished (id : Nat) (kept : s.kept id = true) :
      tracked.sim.flows.completed? id = none := by
    simp only [completed?, absent id kept]
  have unfinished' (id : Nat) (kept : s.kept id = true) :
      tracked.sim.flows.completed? (s.number id) = none := by
    simp only [completed?, absent' id kept]
  refine ⟨holds, holds, ⟨?_, fun id kept => ?_, fun id _ => dead id⟩, ⟨?_, ?_, ?_, ?_⟩, .refl _, rfl,
    rfl, quiet.2, rfl, rfl, fun id kept => ?_⟩
  · rw [← base, Selection.number_of_le (Nat.le_refl _)]
  · rw [absent id kept, absent' id kept]
    exact .none
  · exact fun id done kept finished => by simp [unfinished id kept] at finished
  · exact fun id done kept finished => by simp [unfinished id kept] at finished
  · exact fun id done kept finished => by simp [unfinished' id kept] at finished
  · exact fun id other done last done' last' kept kept' finished => by
      simp [unfinished id kept] at finished
  · have size := holds.orders.forest.size
    rw [Lineage.spawner_eq_none (size ▸ base ▸ Selection.base_lt_number kept),
      Lineage.spawner_eq_none (size ▸ base ▸ s.above id kept)]
    rfl

end Tracked

namespace Simulation

def launch (operations : List (Simulation.Operation σ)) (recipes : List (Recipe σ)) (n : Nat) :
    List (Simulation.Operation σ) :=
  operations ++ recipes.map .spawn ++ List.replicate n .tick

/--
Two sessions, `whole` and `part`, up to their `n`th tick. The kept flows of the first one are those of
the trees of the chosen root flows, and they are the flows of the second one, under other ids.
-/
structure Independent [Coroutine σ] (limits : Limits) (choices : List (Recipe σ × Bool))
    (whole part : Nat → List (Simulation.Operation σ)) (n : Nat) (s : Selection) : Prop where
  trees : ∀ id : FlowId, s.kept id = true ↔ ∃ j recipe, choices[j]? = some (recipe, true) ∧
    (Lineage.ofSession limits (whole n)).Under (s.base + j + 1) id
  roots : ∀ j recipe, choices[j]? = some (recipe, true) →
    s.number (s.base + j + 1) = s.base + (choices.take j).countP Prod.snd + 1
  rising : ∀ id other : FlowId, s.kept id = true → s.kept other = true →
    (s.number id < s.number other ↔ id < other)
  onto : ∀ id : FlowId, s.base < id → id ≤ (session limits (part n)).flows.phases.size →
    ∃ old : FlowId, s.kept old = true ∧ s.number old = id
  spawned : ∀ id : FlowId, s.kept id = true →
    (Lineage.ofSession limits (part n)).spawner (s.number id) =
      ((Lineage.ofSession limits (whole n)).spawner id).map s.number
  ticks : ∀ k < n, ∃ report,
    Simulation.tick (session limits (whole k)) = .ok report (session limits (whole (k + 1))) ∧
    Simulation.tick (session limits (part k)) =
      .ok ⟨report.tick, s.reports report.reports⟩ (session limits (part (k + 1))) ∧
    s.Held report.tick (session limits (whole k)).replay (session limits (part k)).replay
      (session limits (whole (k + 1))).replay (session limits (part (k + 1))).replay
  phases : ∀ k ≤ n, ∀ id : FlowId, s.kept id = true →
    Option.Rel (Phase.Like s.number) ((session limits (whole k)).flows.find? id)
      ((session limits (part k)).flows.find? (s.number id))
  orders : ∀ (id other : FlowId) done last done' last', s.kept id = true → s.kept other = true →
    (session limits (whole n)).flows.completed? id = some done →
    (session limits (whole n)).flows.completed? other = some last →
    (session limits (part n)).flows.completed? (s.number id) = some done' →
    (session limits (part n)).flows.completed? (s.number other) = some last' →
      (done.order < last.order ↔ done'.order < last'.order)

end Simulation

namespace Tracked

open Simulation (launch)

variable [Coroutine σ] {limits : Limits} {operations : List (Simulation.Operation σ)}
  {recipes : List (Recipe σ)} {choices : List (Recipe σ × Bool)} {n k : Nat}

theorem session_launch_succ (limits : Limits) (operations : List (Simulation.Operation σ))
    (recipes : List (Recipe σ)) (n : Nat) :
    session limits (launch operations recipes (n + 1)) =
      Simulation.Operation.tick.follow (session limits (launch operations recipes n)) := by
  rw [launch, List.replicate_succ', ← List.append_assoc, session_append]
  rfl

theorem sim_of_tick {report : TickReport} {before after : Tracked σ}
    (done : Tracked.tick before = .ok report after) :
    Simulation.tick before.sim = .ok report after.sim := by
  rw [mirrors_tick before, done]

theorem launch_of_tick {report : TickReport} {after : Tracked σ}
    (done : Tracked.tick (session limits (launch operations recipes k)) = .ok report after) :
    session limits (launch operations recipes (k + 1)) = after := by
  rw [session_launch_succ]
  simp only [Simulation.Operation.follow, Engine.after, done]

theorem tick_launch {report : TickReport} {after : Simulation σ}
    (done : Simulation.tick (Simulation.session limits (launch operations recipes k)) =
      .ok report after) :
    Tracked.tick (session limits (launch operations recipes k)) =
      .ok report (session limits (launch operations recipes (k + 1))) := by
  rw [← sim_session, mirrors_tick] at done
  cases ticked : Tracked.tick (session limits (launch operations recipes k)) with
  | ok report' after' =>
      simp only [ticked] at done
      injection done with same _
      rw [launch_of_tick ticked, same]
  | error e after' => simp [ticked] at done

theorem prefix_launch (succeed : ∀ k < n, ∃ report after,
      Simulation.tick (Simulation.session limits (launch operations recipes k)) = .ok report after)
    (within : k ≤ n) : (session limits (launch operations recipes k)).lineage <+:
      (session limits (launch operations recipes n)).lineage := by
  induction n, within using Nat.le_induction with
  | base => exact List.prefix_rfl
  | succ n within ih =>
      obtain ⟨report, after, done⟩ := succeed n (Nat.lt_succ_self n)
      refine (ih fun k below => succeed k (Nat.lt_succ_of_lt below)).trans ?_
      exact prefix_tick (tick_launch done)

theorem lineage_launch (limits : Limits) (operations : List (Simulation.Operation σ))
    (recipes : List (Recipe σ)) :
    (session limits (launch operations recipes 0)).lineage =
      (session limits operations).lineage ++ List.replicate recipes.length none := by
  rw [launch, List.replicate_zero, List.append_nil, session_append]
  exact lineage_spawnAll (session_holds limits operations) recipes

theorem beside_launch (idle : (Simulation.session limits operations).isIdle = true)
    (base : s.base = (Simulation.session limits operations).flows.phases.size)
    (chosen : ∀ j recipe choice, choices[j]? = some (recipe, choice) →
      s.kept (s.base + j + 1) = choice) :
    Beside s (session limits (launch operations (choices.map Prod.fst) 0))
      (session limits (launch operations ((choices.filter Prod.snd).map Prod.fst) 0)) := by
  rw [← sim_session] at idle base
  simp only [launch, List.replicate_zero, List.append_nil, session_append]
  refine (beside_self (session_holds limits operations) idle base).spawnAll ?_
  rw [← base]
  exact chosen

theorem Beside.launched
    (beside : Beside s (session limits (launch operations (choices.map Prod.fst) 0))
      (session limits (launch operations ((choices.filter Prod.snd).map Prod.fst) 0)))
    (succeed : ∀ k < n, ∃ report after,
      Simulation.tick (Simulation.session limits (launch operations (choices.map Prod.fst) k)) =
        .ok report after)
    (respects : (session limits (launch operations (choices.map Prod.fst) n)).lineage.Respects s.kept)
    (within : k ≤ n) :
    Beside s (session limits (launch operations (choices.map Prod.fst) k))
      (session limits (launch operations ((choices.filter Prod.snd).map Prod.fst) k)) := by
  induction k with
  | zero => exact beside
  | succ k ih =>
      obtain ⟨report, after, done⟩ := succeed k within
      obtain ⟨after', done', related, -⟩ := (ih (Nat.le_of_lt within)).ticked (tick_launch done)
        (respects.of_extends (prefix_launch succeed within))
      rw [launch_of_tick done']
      exact related

end Tracked

/--
Independent root flows do not interfere. Where no flow and no task is live, spawn any flows; as long as
ticks succeed, the trees of some of these flows go through the same without the others.
-/
theorem Simulation.independent_roots_do_not_interfere [Coroutine σ] (limits : Limits)
    (operations : List (Simulation.Operation σ)) (choices : List (Recipe σ × Bool)) (n : Nat)
    (idle : (session limits operations).isIdle = true)
    (succeed : ∀ k < n, ∃ report after,
      Simulation.tick (session limits (launch operations (choices.map Prod.fst) k)) =
        .ok report after) :
    ∃ s : Selection, s.base = (session limits operations).flows.phases.size ∧
      Independent limits choices (launch operations (choices.map Prod.fst))
        (launch operations ((choices.filter Prod.snd).map Prod.fst)) n s := by
  let whole := launch operations (choices.map Prod.fst)
  have holds := Tracked.session_holds limits (whole n)
  have grown := Tracked.prefix_launch succeed (Nat.zero_le n)
  have start := Tracked.lineage_launch limits operations (choices.map Prod.fst)
  have size := (Tracked.session_holds limits operations).orders.forest.size
  rw [Tracked.sim_session] at size
  have rootless : ∀ j < choices.length, (Lineage.ofSession limits (whole n)).spawner
      ((session limits operations).flows.phases.size + j + 1) = none := by
    intro j inside
    rw [size]
    refine (Lineage.spawner_of_extends grown ?_).trans ?_
    · rw [start]
      simp
      omega
    · rw [start]
      exact Lineage.spawner_append_replicate (by omega) (by simp; omega)
  -- The longest run decides which flows are in the chosen trees, and shorter runs agree with it.
  obtain ⟨s, base, respects, trees⟩ :=
    Lineage.exists_selection holds.orders.forest.earlier rootless
  rw [← base] at rootless trees
  have chosen : ∀ j recipe choice, choices[j]? = some (recipe, choice) →
      s.kept (s.base + j + 1) = choice := fun j recipe choice =>
    Selection.kept_root rootless trees
  have beside {k : Nat} (within : k ≤ n) :=
    (Tracked.beside_launch idle base chosen).launched succeed respects within
  refine ⟨s, base, trees, fun j recipe listed => ?_, fun id other kept kept' => ?_,
    fun id above within => ?_, (beside (Nat.le_refl n)).spawned, fun k below => ?_,
    fun k within id kept => ?_, ?_⟩
  · have inside := (List.getElem?_eq_some_iff.1 listed).1
    rw [Selection.number_succ, chosen j recipe true listed, if_pos rfl,
      Selection.number_root chosen (Nat.le_of_lt inside)]
  · refine ⟨fun less => ?_, Selection.number_lt_number kept'⟩
    by_contra greater
    exact absurd less (Nat.not_lt_of_le (s.number_mono (Nat.le_of_not_lt greater)))
  · have excerpt := (beside (Nat.le_refl n)).flows
    rw [← Tracked.sim_session, excerpt.size] at within
    exact Selection.exists_number above within
  · obtain ⟨report, after, done⟩ := succeed k below
    have ticked := Tracked.tick_launch done
    obtain ⟨after', ticked', -, held⟩ := (beside (Nat.le_of_lt below)).ticked ticked
      (respects.of_extends (Tracked.prefix_launch succeed below))
    obtain rfl := Tracked.launch_of_tick ticked'
    simp only [← Tracked.sim_session]
    exact ⟨report, Tracked.sim_of_tick ticked, Tracked.sim_of_tick ticked', held⟩
  · have excerpt := (beside within).flows
    rw [Tracked.sim_session, Tracked.sim_session] at excerpt
    exact excerpt.phases id kept
  · have aligned := (beside (Nat.le_refl n)).aligned
    rw [Tracked.sim_session, Tracked.sim_session] at aligned
    exact aligned.orders

def racer : Recipe Playback :=
  let here : Address := ⟨"2b2a14d215455d3ce50cfc5c2ae1d125_1", 0⟩
  let worker : List PlaybackMove := [.load here [] false, .halt here 1 1, .unload here .null]
  let calls := [("left", [], worker), ("right", [], worker)]
  Playback.recipe "main" []
    [.load here [] false, .await here .race true calls, .unload here .null]

theorem Simulation.second_race_runs_alone :
    let operations := [.register { className := "Worker", fields := [] }]
    let choices := [(racer, false), (racer, true)]
    (session {} operations).isIdle = true ∧
      (∀ k < 2, ∃ report after,
        Simulation.tick (session {} (launch operations (choices.map Prod.fst) k)) =
          .ok report after) ∧
      ∃ s : Selection, s.base = (session {} operations).flows.phases.size ∧
        Independent {} choices (launch operations (choices.map Prod.fst))
          (launch operations ((choices.filter Prod.snd).map Prod.fst)) 2 s := by
  intro operations choices
  have idle : (session {} operations).isIdle = true := by decide +kernel
  have succeed : ∀ k < 2, Engine.succeeds Simulation.tick
      (session {} (launch operations (choices.map Prod.fst) k)) = true := by decide +kernel
  have succeed : ∀ k < 2, ∃ report after,
      Simulation.tick (session {} (launch operations (choices.map Prod.fst) k)) =
        .ok report after := fun k below => Engine.succeeds_iff.1 (succeed k below)
  exact ⟨idle, succeed,
    independent_roots_do_not_interfere {} operations choices 2 idle succeed⟩

end Cadence
