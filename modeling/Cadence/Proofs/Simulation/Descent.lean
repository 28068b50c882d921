import Cadence.Proofs.FlowTable.Lifecycle
import Cadence.Proofs.Simulation.Chain
/-!
How many rounds a chain of awaits takes. Every round has one flow take its turn: on the way down
the newest flow, which begins to wait for the next, and on the way up the one that waits last.
-/

namespace Cadence

open Engine Stage Cadence.Flow

variable {σ : Type} [Coroutine σ] {recipe next : Recipe σ} {flow : Flow σ} {tick : Tick} {id : Nat}

/-! ## Tables in the middle of a chain -/

namespace FlowTable

variable {table : FlowTable σ} {turn : Nat}

structure Hanging (table : FlowTable σ) (tick : Tick) (turn : Nat) : Prop where
  inside : turn ≤ table.phases.size
  waiting : ∀ id : Nat, 0 < id → id < turn → ∃ flow wait,
    table.find? id = some (.suspended flow wait) ∧ Rests id flow ∧
      wait.strategy = .single ∧ wait.dependencies = [id + 1]
  completed : ∀ id : Nat, turn < id → id ≤ table.phases.size → ∃ done,
    table.find? id = some (.completed done) ∧ done.completedAt = tick

theorem Hanging.of_active (hanging : table.Hanging tick turn)
    (found : table.find? id = some (.active flow)) : id = turn := by
  obtain ⟨positive, inside⟩ := le_size_of_find? found
  rcases Nat.lt_trichotomy id turn with before | same | after
  · obtain ⟨flow', wait, known, -⟩ := hanging.waiting id positive before
    cases found.symm.trans known
  · exact same
  · obtain ⟨done, known, -⟩ := hanging.completed id after inside
    cases found.symm.trans known

theorem Hanging.activations (hanging : table.Hanging tick turn)
    (found : table.find? turn = some (.active flow)) :
    table.activations = [(turn, flow.activation)] := by
  have member (key : Nat × Nat) : key ∈ table.activations ↔ key ∈ [(turn, flow.activation)] := by
    obtain ⟨id, activation⟩ := key
    rw [mem_activations, List.mem_singleton, Prod.mk.injEq]
    constructor
    · rintro ⟨other, known, same⟩
      obtain rfl := hanging.of_active known
      cases found.symm.trans known
      exact ⟨rfl, same.symm⟩
    · rintro ⟨rfl, rfl⟩
      exact ⟨flow, found, rfl⟩
  have distinct : table.activations.Nodup :=
    .of_map Prod.fst ((sorted_activations table).imp Nat.ne_of_lt)
  exact List.perm_singleton.1
    ((List.perm_ext_iff_of_nodup distinct (List.nodup_singleton _)).2 member)

theorem Hanging.activations_nil (hanging : table.Hanging tick 0) : table.activations = [] := by
  rw [List.eq_nil_iff_forall_not_mem]
  rintro ⟨id, activation⟩ member
  obtain ⟨flow, found, -⟩ := mem_activations.1 member
  have positive := (le_size_of_find? found).1
  exact absurd (hanging.of_active found) (Nat.ne_of_gt positive)

theorem Hanging.le_turn {wait : Wait} (hanging : table.Hanging tick turn)
    (found : table.find? id = some (.suspended flow wait)) : id ≤ turn := by
  by_contra beyond
  obtain ⟨done, known, -⟩ :=
    hanging.completed id (Nat.lt_of_not_le beyond) (le_size_of_find? found).2
  cases found.symm.trans known

theorem Hanging.unsatisfied {wait : Wait} (hanging : table.Hanging tick turn)
    (unfinished : table.completed? turn = none) (before : id < turn)
    (found : table.find? id = some (.suspended flow wait)) : table.outcome? wait = none := by
  obtain ⟨flow', wait', known, -, kind, only⟩ :=
    hanging.waiting id (le_size_of_find? found).1 before
  cases found.symm.trans known
  -- The flow that it waits for waits in turn, or it is the one whose turn it is.
  have pending : table.completed? (id + 1) = none := by
    rcases Nat.lt_or_eq_of_le (Nat.succ_le_of_lt before) with earlier | rfl
    · obtain ⟨other, wait', known, -⟩ := hanging.waiting (id + 1) id.succ_pos earlier
      simp [completed?, known]
    · exact unfinished
  simp [outcome?, kind, only, released?, pending]

theorem Hanging.put_turn (hanging : table.Hanging tick turn) (phase : Phase σ) :
    (table.put turn (some phase)).Hanging tick turn where
  inside := by rw [size_put]; exact hanging.inside
  waiting id positive before := by
    rw [find?_put_of_ne _ _ (Nat.ne_of_lt before)]
    exact hanging.waiting id positive before
  completed id after inside := by
    rw [size_put] at inside
    rw [find?_put_of_ne _ _ (Nat.ne_of_gt after)]
    exact hanging.completed id after inside

theorem Hanging.listing (hanging : table.Hanging tick 0) :
    table.listing = ⟨[], [], List.range' 1 table.phases.size, []⟩ := by
  have ended : ∀ id ∈ List.range' 1 table.phases.size, table.standing? id = some .completed := by
    intro id member
    have bounds := List.mem_range'_1.1 member
    obtain ⟨done, known, -⟩ := hanging.completed id (by omega) (by omega)
    simp [standing?, known, Phase.standing]
  have all : table.listing.completed = List.range' 1 table.phases.size := by
    rw [completed_eq, List.filter_eq_self]
    intro id member
    simp [ended id member]
  have none (standing : Standing) (other : standing ≠ .completed) :
      (List.range' 1 table.phases.size).filter (fun id => table.standing? id = some standing) = [] := by
    rw [List.filter_eq_nil_iff]
    intro id member
    simp [ended id member, other.symm]
  show FlowListing.mk table.listing.active table.listing.suspended table.listing.completed
    table.listing.cancelled = _
  rw [all, active_eq, suspended_eq, cancelled_eq, none .active (by simp), none .suspended (by simp),
    none .cancelled (by simp)]

theorem Hanging.ended {phase : Phase σ} (hanging : table.Hanging tick 0)
    (found : table.find? id = some phase) :
    ∃ done, phase = .completed done ∧ done.completedAt = tick := by
  obtain ⟨positive, inside⟩ := le_size_of_find? found
  obtain ⟨done, known, now⟩ := hanging.completed id positive inside
  rw [found] at known
  exact ⟨done, Option.some.inj known, now⟩

theorem Hanging.completedAt {done : Completion} (hanging : table.Hanging tick 0)
    (completed : table.completed? id = some done) : done.completedAt = tick := by
  obtain ⟨done', same, now⟩ := hanging.ended (completed?_eq_some.1 completed)
  cases same
  exact now

theorem Hanging.isLive (hanging : table.Hanging tick 0) (id : Nat) : table.isLive id = false := by
  rw [Bool.eq_false_iff]
  intro live
  obtain ⟨phase, found⟩ := exists_of_isLive live
  obtain ⟨done, rfl, -⟩ := hanging.ended found
  simp [FlowTable.isLive, live?, found] at live

/-- The way down: the flow whose turn it is comes last, and it is new. -/
structure Diving (table : FlowTable σ) (tick : Tick) (recipe : Recipe σ) (turn : Nat) : Prop
    extends table.Hanging tick turn where
  size : table.phases.size = turn
  fresh : ∃ caller isDependency born, table.find? turn =
    some (.active (ofRecipe turn recipe caller isDependency born))

structure Climbing (table : FlowTable σ) (tick : Tick) (turn : Nat) : Prop
    extends table.Hanging tick turn where
  recalled : 0 < turn → ∃ flow, table.find? turn = some (.active flow) ∧ Recalled turn flow

theorem Diving.awaits {later : Flow σ} (diving : table.Diving tick recipe turn)
    (rests : Rests turn later) (consumes : Bool) (address : Address) :
    (table.awaiting turn later ⟨.single, consumes, [next]⟩ address tick).Diving tick next
        (turn + 1) ∧
      resolve tick (table.awaiting turn later ⟨.single, consumes, [next]⟩ address tick) =
        .ok [] (table.awaiting turn later ⟨.single, consumes, [next]⟩ address tick) := by
  obtain ⟨caller, isDependency, born, found⟩ := diving.fresh
  obtain ⟨size, others, -, ids, here, made⟩ :=
    awaiting_spec found later ⟨.single, consumes, [next]⟩ address tick
  generalize table.awaiting turn later ⟨.single, consumes, [next]⟩ address tick = after at *
  rw [diving.size] at size others made
  obtain ⟨child, rfl, beyond, new⟩ : ∃ child, ids = [child] ∧ turn < child ∧ after.find? child =
      some (.active (ofRecipe child next (some address) consumes tick)) := by
    cases made with
    | cons first rest =>
        cases rest
        exact ⟨_, rfl, first⟩
  obtain rfl : child = turn + 1 := by
    have inside := (le_size_of_find? new).2
    rw [size] at inside
    exact Nat.le_antisymm inside beyond
  have hanging : after.Hanging tick (turn + 1) := by
    constructor
    case inside => exact Nat.le_of_eq size.symm
    case waiting =>
      intro id positive before
      rcases Nat.lt_succ_iff_lt_or_eq.1 before with earlier | rfl
      · rw [others id (Nat.ne_of_lt earlier) (Nat.le_of_lt earlier)]
        exact diving.waiting id positive earlier
      · exact ⟨later, _, here, rests, rfl, rfl⟩
    case completed =>
      intro id late inside
      rw [size] at inside
      exact absurd inside (Nat.not_le_of_lt late)
  have unsettled : after.Unsettled := by
    intro id flow wait waits
    apply hanging.unsatisfied (by simp [completed?, new]) _ waits
    apply Nat.lt_of_le_of_ne (hanging.le_turn waits)
    rintro rfl
    cases new.symm.trans waits
  exact ⟨⟨hanging, size, _, _, _, new⟩, unsettled.resolve tick⟩

theorem Hanging.completing (hanging : table.Hanging tick (turn + 1))
    (found : table.find? (turn + 1) = some (.active flow)) (done : Completion)
    (now : done.completedAt = tick) : (table.completing (turn + 1) done).Hanging tick turn := by
  have phases := find?_completing found done
  have size : (table.completing (turn + 1) done).phases.size = table.phases.size := size_put ..
  constructor
  case inside => exact size ▸ Nat.le_of_succ_le hanging.inside
  case waiting =>
    intro id positive before
    rw [phases, if_neg (by omega)]
    exact hanging.waiting id positive (by omega)
  case completed =>
    intro id late inside
    rw [phases]
    rcases Nat.lt_or_eq_of_le (Nat.succ_le_of_lt late) with later | rfl
    · rw [if_neg (Nat.ne_of_gt later)]
      exact hanging.completed id later (size ▸ inside)
    · exact ⟨done, if_pos rfl, now⟩

theorem Hanging.recalls {wait : Wait} {value : Json} {released : List Released}
    (hanging : table.Hanging tick turn) (waits : table.find? turn = some (.suspended flow wait))
    (rests : Rests turn flow) (outcome : table.outcome? wait = some (value, released))
    (plain : wait.strategy ≠ .race) : ∃ after, resolve tick table = .ok [] after ∧
      after.phases.size = table.phases.size ∧ after.Climbing tick turn := by
  obtain ⟨top, bottom, address, records, -⟩ := rests.leaves
  have pushed := Stack.modify_top records (·.push (.provideGiven value))
  have alone : ∀ other flow' wait', table.find? other = some (.suspended flow' wait') →
      table.outcome? wait' ≠ none → other = turn := by
    intro other flow' wait' waits' satisfied
    by_contra distinct
    have before := Nat.lt_of_le_of_ne (hanging.le_turn waits') distinct
    exact satisfied (hanging.unsatisfied (by simp [completed?, waits]) before waits')
  refine ⟨_, resolve_one waits outcome plain pushed alone, size_put .., hanging.put_turn _, ?_⟩
  intro _
  exact ⟨_, find?_put_self waits, flow, _, value, _, rests, pushed, rfl⟩

theorem Hanging.completes (hanging : table.Hanging tick (turn + 1))
    (found : table.find? (turn + 1) = some (.active flow)) (done : Completion)
    (now : done.completedAt = tick) :
    ∃ after, resolve tick (table.completing (turn + 1) done) = .ok [] after ∧
      after.phases.size = table.phases.size ∧ after.Climbing tick turn := by
  have hanging' := hanging.completing found done now
  have phases := find?_completing found done
  have size : (table.completing (turn + 1) done).phases.size = table.phases.size := size_put ..
  rcases Nat.eq_zero_or_pos turn with rfl | positive
  · have unsettled : (table.completing 1 done).Unsettled := by
      intro id flow wait waits
      obtain ⟨done', same, -⟩ := hanging'.ended waits
      cases same
    exact ⟨_, unsettled.resolve tick, size, hanging', fun above => absurd above (Nat.lt_irrefl 0)⟩
  · obtain ⟨waiter, wait, known, rests, kind, only⟩ := hanging.waiting turn positive turn.lt_succ_self
    have waits : (table.completing (turn + 1) done).find? turn = some (.suspended waiter wait) := by
      rw [phases, if_neg (Nat.ne_of_lt turn.lt_succ_self), known]
    have finished : (table.completing (turn + 1) done).completed? (turn + 1) = some done := by
      rw [completed?_eq_some, phases, if_pos rfl]
    have outcome : (table.completing (turn + 1) done).outcome? wait =
        some (done.value, [⟨turn + 1, done.lastAddress, done.value⟩]) := by
      simp [outcome?, kind, only, released?, finished]
    obtain ⟨after, resolved, same, climbing⟩ :=
      hanging'.recalls waits rests outcome (by simp [kind])
    exact ⟨after, resolved, same.trans size, climbing⟩

end FlowTable

namespace Simulation

variable {sim after : Simulation σ} {levels : Nat → Recipe σ} {last? : Option Nat} {turn n : Nat}
  {memory : Heap} {covered : Coverage} {limit remaining : Nat} {reports : List Report}

structure Underway (sim : Simulation σ) (levels : Nat → Recipe σ) (last? : Option Nat)
    (tick : Tick) : Prop where
  effects : sim.effects = {}
  tasks : sim.tasks = {}
  steps : 3 ≤ sim.limits.steps
  now : sim.now = tick
  chain : Chain sim.heap levels last?

theorem Underway.turned (underway : sim.Underway levels last? tick) (grows : sim.heap.Grows memory)
    (flows : FlowTable σ) (journal : List (Exchange σ)) :
    Simulation.Underway { sim with flows, heap := memory, journal } levels last? tick where
  effects := underway.effects
  tasks := underway.tasks
  steps := underway.steps
  now := underway.now
  chain n inside := (underway.chain n inside).grows grows

/-! ## Turns -/

theorem Underway.descends (underway : sim.Underway levels last? tick)
    (diving : sim.flows.Diving tick (levels n) turn)
    (link : Link sim.heap (levels n) (some (levels (n + 1)))) :
    ∃ reports after, Simulation.process turn tick sim = .ok reports after ∧
      after.Underway levels last? tick ∧ after.flows.Diving tick (levels (n + 1)) (turn + 1) := by
  obtain ⟨caller, isDependency, born, found⟩ := diving.fresh
  obtain ⟨consumes, address, later, memory, reaches, rests, grows⟩ :=
    reaches_next turn caller isDependency born tick link
  have arrives := arrives_of_reaches underway.effects rfl reaches
    (Nat.le_trans (by decide) underway.steps)
  obtain ⟨diving', resolved⟩ := diving.awaits rests consumes address
  obtain ⟨reports, journal, processed⟩ := arrives.awaits found rests.named rfl resolved
  exact ⟨reports, _, processed, underway.turned grows _ journal, diving'⟩

theorem Underway.completes {value : Json} {last : Option Address} {later : Flow σ}
    (underway : sim.Underway levels last? tick) (hanging : sim.flows.Hanging tick (turn + 1))
    (found : sim.flows.find? (turn + 1) = some (.active flow))
    (arrives : sim.Arrives tick flow (.complete value last) later memory)
    (named : later.id = turn + 1) (grows : sim.heap.Grows memory) :
    ∃ reports after, Simulation.process (turn + 1) tick sim = .ok reports after ∧
      after.Underway levels last? tick ∧ after.flows.phases.size = sim.flows.phases.size ∧
        after.flows.Climbing tick turn := by
  obtain ⟨flows, resolved, size, climbing⟩ := hanging.completes found
    ⟨turn + 1, later.name, value, last, later.spawnedAt, tick, sim.flows.completions + 1⟩ rfl
  obtain ⟨reports, journal, processed⟩ := arrives.completes found named resolved
  exact ⟨reports, _, processed, underway.turned grows flows journal, size, climbing⟩

theorem Underway.turnsBack (underway : sim.Underway levels last? tick)
    (diving : sim.flows.Diving tick recipe (turn + 1)) (link : Link sim.heap recipe none) :
    ∃ reports after, Simulation.process (turn + 1) tick sim = .ok reports after ∧
      after.Underway levels last? tick ∧ after.flows.phases.size = turn + 1 ∧
        after.flows.Climbing tick turn := by
  obtain ⟨caller, isDependency, born, found⟩ := diving.fresh
  obtain ⟨value, address, later, memory, reaches, named, grows⟩ :=
    reaches_last (turn + 1) caller isDependency born tick link
  have arrives := arrives_of_reaches underway.effects rfl reaches underway.steps
  obtain ⟨reports, after, processed, underway', size, climbing⟩ :=
    underway.completes diving.toHanging found arrives named grows
  exact ⟨reports, after, processed, underway', size.trans diving.size, climbing⟩

theorem Underway.ascends (underway : sim.Underway levels last? tick)
    (hanging : sim.flows.Hanging tick (turn + 1))
    (found : sim.flows.find? (turn + 1) = some (.active flow)) (recalled : Recalled (turn + 1) flow) :
    ∃ reports after, Simulation.process (turn + 1) tick sim = .ok reports after ∧
      after.Underway levels last? tick ∧ after.flows.phases.size = sim.flows.phases.size ∧
        after.flows.Climbing tick turn := by
  obtain ⟨value, address, later, arrives, named⟩ := arrives_of_recalled underway.effects recalled
    (Nat.le_trans (by decide) underway.steps)
  exact underway.completes hanging found arrives named (.refl sim.heap)

/-! ## Rounds -/

def EndsIff (levels : Nat → Recipe σ) (last? : Option Nat) (tick : Tick) (limit : Nat)
    (enough : Prop) : EStateM.Result EngineError (Simulation σ) (List Report) → Prop
  | .ok _ after => enough ∧ after.Underway levels last? tick ∧ after.flows.Hanging tick 0 ∧
      ∃ last, last? = some last ∧ after.flows.phases.size = last + 1
  | .error e after => ¬ enough ∧ e = .tickBudgetExceeded tick (limit + 1) ∧ after.now = tick

theorem EndsIff.of_iff {enough enough' : Prop}
    {result : EStateM.Result EngineError (Simulation σ) (List Report)}
    (ends : EndsIff levels last? tick limit enough result) (same : enough ↔ enough') :
    EndsIff levels last? tick limit enough' result :=
  propext same ▸ ends

theorem pendingFlows_turn (hanging : sim.flows.Hanging tick turn)
    (found : sim.flows.find? turn = some (.active flow))
    (uncovered : Coverage.latest covered.flows turn ≠ some flow.activation) :
    sim.pendingFlows covered = [(turn, flow.activation)] := by
  have fresh : covered.covers (turn, flow.activation) = false := by
    rw [Bool.eq_false_iff, ne_eq, Coverage.covers_iff]
    exact uncovered
  rw [pendingFlows, hanging.activations found, List.filter_cons_of_pos (by simp [fresh]),
    List.filter_nil]

theorem Underway.spent (underway : sim.Underway levels last? tick)
    (hanging : sim.flows.Hanging tick turn) (found : sim.flows.find? turn = some (.active flow))
    (uncovered : Coverage.latest covered.flows turn ≠ some flow.activation) :
    EndsIff levels last? tick limit False (runRounds tick limit 0 covered reports sim) := by
  rw [runRounds_spent (by simp [pendingFlows_turn hanging found uncovered])]
  exact ⟨False.elim, rfl, underway.now⟩

theorem Underway.round {fresh : List Report} (underway : sim.Underway levels last? tick)
    (hanging : sim.flows.Hanging tick turn) (found : sim.flows.find? turn = some (.active flow))
    (uncovered : Coverage.latest covered.flows turn ≠ some flow.activation)
    (processed : Simulation.process turn tick sim = .ok fresh after) :
    runRounds tick limit (remaining + 1) covered reports sim =
      runRounds tick limit remaining (covered.add [] [(turn, flow.activation)]) (reports ++ fresh)
        after := by
  have active : (sim.flows.active? turn).map Flow.activation = some flow.activation := by
    rw [FlowTable.active?_eq_some.2 found, Option.map_some]
  exact runRounds_turn underway.tasks (pendingFlows_turn hanging found uncovered) active processed

theorem latest_turn {key : FlowId × Nat} (positive : 0 < key.1) (other : Nat) :
    Coverage.latest (covered.add [] [key]).flows other =
      if other = key.1 then some key.2 else Coverage.latest covered.flows other := by
  have single : ∀ one ∈ [key], 0 < one.1 := by simpa using positive
  rw [Coverage.latest_add single, List.foldl_cons, List.foldl_nil, Coverage.note,
    Function.update_apply]

theorem Underway.climbs {last : Nat} (limit remaining : Nat) (covered : Coverage)
    (reports : List Report) (underway : sim.Underway levels (some last) tick)
    (climbing : sim.flows.Climbing tick turn) (size : sim.flows.phases.size = last + 1)
    (begun : ∀ id : Nat, 0 < id → id ≤ turn → Coverage.latest covered.flows id = some 0) :
    EndsIff levels (some last) tick limit (turn ≤ remaining)
      (runRounds tick limit remaining covered reports sim) := by
  induction turn generalizing sim covered remaining reports with
  | zero =>
      rw [runRounds_rest underway.tasks climbing.activations_nil]
      exact ⟨Nat.zero_le remaining, underway, climbing.toHanging, last, rfl, size⟩
  | succ turn ih =>
      obtain ⟨flow, found, recalled⟩ := climbing.recalled turn.succ_pos
      -- The flow was stepped on the way down, in the activation before this one.
      have again : Coverage.latest covered.flows (turn + 1) ≠ some flow.activation := by
        simp [begun (turn + 1) turn.succ_pos (Nat.le_refl _), recalled.activation]
      cases remaining with
      | zero =>
          apply (underway.spent climbing.toHanging found again).of_iff
          simp
      | succ remaining =>
          obtain ⟨fresh, after, processed, underway', size', climbing'⟩ :=
            underway.ascends climbing.toHanging found recalled
          rw [underway.round climbing.toHanging found again processed]
          apply (ih remaining _ _ underway' climbing' (size'.trans size) _).of_iff
            Nat.succ_le_succ_iff.symm
          intro id positive inside
          rw [latest_turn turn.succ_pos, if_neg (by omega)]
          exact begun id positive (Nat.le_succ_of_le inside)

theorem Underway.dives (limit remaining : Nat) (covered : Coverage) (reports : List Report)
    (underway : sim.Underway levels last? tick)
    (diving : sim.flows.Diving tick (levels n) (n + 1)) (inside : ∀ last, last? = some last → n ≤ last)
    (begun : ∀ id : Nat, 0 < id → id ≤ n → Coverage.latest covered.flows id = some 0)
    (unseen : ∀ id : Nat, n < id → Coverage.latest covered.flows id = none) :
    EndsIff levels last? tick limit
      (∃ last, last? = some last ∧ (last - n + 1) + last ≤ remaining)
      (runRounds tick limit remaining covered reports sim) := by
  -- There may be no last level, so the induction is on the rounds that are left.
  induction remaining generalizing sim n covered reports with
  | zero =>
      obtain ⟨caller, isDependency, born, found⟩ := diving.fresh
      apply (underway.spent diving.toHanging found (by simp [unseen])).of_iff
      simp
  | succ remaining ih =>
      obtain ⟨caller, isDependency, born, found⟩ := diving.fresh
      have first : Coverage.latest covered.flows (n + 1) ≠ some 0 := by simp [unseen]
      have begun' : ∀ id : Nat, 0 < id → id ≤ n + 1 →
          Coverage.latest (covered.add [] [(n + 1, 0)]).flows id = some 0 := by
        intro id positive inside
        rw [latest_turn n.succ_pos]
        split
        next => rfl
        next other => exact begun id positive (by omega)
      have link := underway.chain n inside
      by_cases bottom : last? = some n
      · subst bottom
        rw [if_pos rfl] at link
        obtain ⟨fresh, after, processed, underway', size, climbing⟩ := underway.turnsBack diving link
        rw [underway.round diving.toHanging found first processed]
        have climbs := underway'.climbs limit remaining _ (reports ++ fresh) climbing size
          fun id positive inside => begun' id positive (Nat.le_succ_of_le inside)
        apply climbs.of_iff
        constructor
        · exact fun enough => ⟨n, rfl, by omega⟩
        · rintro ⟨last, same, enough⟩
          cases same
          omega
      · rw [if_neg bottom] at link
        obtain ⟨fresh, after, processed, underway', diving'⟩ := underway.descends diving link
        have inside' : ∀ last, last? = some last → n + 1 ≤ last := by
          rintro last rfl
          have distinct : n ≠ last := fun same => bottom (congrArg some same.symm)
          exact Nat.succ_le_of_lt (Nat.lt_of_le_of_ne (inside last rfl) distinct)
        have unseen' : ∀ id : Nat, n + 1 < id →
            Coverage.latest (covered.add [] [(n + 1, 0)]).flows id = none := by
          intro id beyond
          rw [latest_turn n.succ_pos, if_neg (Nat.ne_of_gt beyond)]
          exact unseen id (by omega)
        rw [underway.round diving.toHanging found first processed]
        apply (ih _ _ underway' diving' inside' begun' unseen').of_iff
        apply exists_congr
        intro last
        apply and_congr_right
        intro found
        have := inside' last found
        omega

/-! ## The whole chain -/

theorem underway_spawn (tasks : sim.tasks = {}) (effects : sim.effects = {})
    (steps : 3 ≤ sim.limits.steps) (chain : Chain sim.heap levels last?) :
    Simulation.Underway { (sim.spawn (levels 0)).2 with journal := [] } levels last? sim.now :=
  ⟨effects, tasks, steps, rfl, chain⟩

theorem diving_spawn (flows : sim.flows = {}) (recipe : Recipe σ) :
    (sim.spawn recipe).2.flows.Diving sim.now recipe 1 := by
  have new : (sim.spawn recipe).2.flows = (FlowTable.create {} recipe none false sim.now).2 := by
    rw [← flows]
    rfl
  rw [new]
  have hanging : (FlowTable.create {} recipe none false sim.now).2.Hanging sim.now 1 := by
    constructor
    case inside => exact Nat.le_refl 1
    case waiting => exact fun id positive before => absurd positive (Nat.not_lt_of_le (by omega))
    case completed => exact fun id late inside => absurd inside (Nat.not_le_of_lt late)
  exact ⟨hanging, rfl, none, false, sim.now, rfl⟩

theorem spawn_ends (flows : sim.flows = {}) (tasks : sim.tasks = {}) (effects : sim.effects = {})
    (steps : 3 ≤ sim.limits.steps) (chain : Chain sim.heap levels last?) :
    EndsIff levels last? sim.now sim.limits.rounds
      (∃ last, last? = some last ∧ 2 * last + 1 ≤ sim.limits.rounds)
      (runRounds sim.now sim.limits.rounds sim.limits.rounds {} []
        { (sim.spawn (levels 0)).2 with journal := [] }) := by
  have unseen : ∀ id : Nat, 0 < id → Coverage.latest (Coverage.flows {}) id = none :=
    fun id _ => by cases id <;> rfl
  have dives := (underway_spawn tasks effects steps chain).dives sim.limits.rounds sim.limits.rounds
    {} [] (diving_spawn flows (levels 0)) (fun last _ => last.zero_le) (by omega) unseen
  apply dives.of_iff
  apply exists_congr
  intro last
  apply and_congr_right
  intro _
  omega

/--
The rounds that a chain of awaits takes are exact. In an otherwise empty simulation a flow enters its
method, waits for the next flow of the chain, and so on down to the last level, if there is one. One
tick runs the whole chain if it may take a round for every level on the way down and for every level
but the last on the way up. Otherwise the tick fails and the clock stays where it was.
-/
theorem await_chains_take_exact_rounds (sim : Simulation σ) (levels : Nat → Recipe σ)
    (last? : Option Nat) (flows : sim.flows = {}) (tasks : sim.tasks = {}) (effects : sim.effects = {})
    (steps : 3 ≤ sim.limits.steps) (chain : Chain sim.heap levels last?) :
    ((∃ report after, Simulation.tick (sim.spawn (levels 0)).2 = .ok report after) ↔
      ∃ last, last? = some last ∧ 2 * last + 1 ≤ sim.limits.rounds) ∧
    (∀ report after, Simulation.tick (sim.spawn (levels 0)).2 = .ok report after →
      ∃ last, last? = some last ∧
        after.flows.listing = ⟨[], [], List.range' 1 (last + 1), []⟩ ∧
        (∀ id done, after.flows.completed? id = some done → done.completedAt = sim.now) ∧
        after.isIdle = true ∧ after.now = sim.now + 1) ∧
    ∀ e after, Simulation.tick (sim.spawn (levels 0)).2 = .error e after →
      e = .tickBudgetExceeded sim.now (sim.limits.rounds + 1) ∧ after.now = sim.now := by
  have ends := spawn_ends flows tasks effects steps chain
  cases ran : runRounds sim.now sim.limits.rounds sim.limits.rounds {} []
      { (sim.spawn (levels 0)).2 with journal := [] } with
  | ok reports after =>
      rw [ran] at ends
      obtain ⟨enough, underway, hanging, last, same, size⟩ := ends
      have idle : after.isIdle = true := isIdle_iff.2 ⟨hanging.isLive, by rw [underway.tasks]; rfl⟩
      have ticked : Simulation.tick (sim.spawn (levels 0)).2 =
        .ok ⟨sim.now, reports⟩ { after with now := after.now + 1 } := tick_of_ok ran
      rw [ticked]
      refine ⟨⟨fun _ => enough, fun _ => ⟨_, _, rfl⟩⟩, ?_, ?_⟩
      · intro report after' done
        cases done
        exact ⟨last, same, size ▸ hanging.listing, fun id done => hanging.completedAt, idle,
          congrArg (· + 1) underway.now⟩
      · intro e after' failed
        cases failed
  | error e after =>
      rw [ran] at ends
      obtain ⟨short, budget, now⟩ := ends
      have ticked : Simulation.tick (sim.spawn (levels 0)).2 = .error e after := tick_of_error ran
      rw [ticked]
      refine ⟨⟨?_, fun enough => absurd enough short⟩, ?_, ?_⟩
      · rintro ⟨report, after', done⟩
        cases done
      · intro report after' done
        cases done
      · intro e' after' failed
        cases failed
        exact ⟨budget, now⟩

end Simulation

/-! ## Divers -/

def pool : String × Heap :=
  Heap.register {} ⟨"Pool", []⟩

/-- A method that waits for a copy of itself one level deeper, until none is left below it. -/
inductive Diver where
  | start (below? : Option Nat)
  | loaded (below? : Option Nat)
  | waiting
  | leaving
  | gone

namespace Diver

def dive (below? : Option Nat) : Recipe Diver :=
  ⟨"dive", [], .start below?⟩

def resume : Diver → Input → Except String (Signal Diver) × Diver
  | start below?, .params _ => (.ok (.yielded ⟨⟨pool.1, 0⟩, .load [] true⟩), loaded below?)
  | loaded (some 0), .proceed => (.ok (.yielded ⟨⟨pool.1, 0⟩, .unload .null⟩), leaving)
  | loaded below?, .proceed =>
    (.ok (.yielded ⟨⟨pool.1, 0⟩, .await ⟨.single, true, [dive (below?.map (· - 1))]⟩⟩), waiting)
  | waiting, .given value => (.ok (.yielded ⟨⟨pool.1, 0⟩, .unload value⟩), leaving)
  | leaving, .returned value => (.ok (.complete value), gone)
  | state, _ => (.error "out of turn", state)

instance : Coroutine Diver where
  resume := resume

theorem chain (depth? : Option Nat) :
    Chain pool.2 (fun n => dive (depth?.map (· - n))) depth? := by
  intro n inside
  have registered : (pool.2.get? pool.1).isSome = true := by
    rw [pool, Heap.get?_register]
    rfl
  have leaves (value : Json) : Leaves ⟨pool.1, 0⟩ Diver.waiting (.given value) :=
    ⟨value, _, value, _, rfl, rfl⟩
  cases depth? with
  | none => exact .next registered rfl rfl leaves
  | some depth =>
      rcases Nat.lt_or_eq_of_le (inside depth rfl) with above | rfl
      · obtain ⟨below, rfl⟩ := Nat.exists_eq_add_of_lt above
        have here : n + below + 1 - n = below + 1 := by omega
        have next : n + below + 1 - (n + 1) = below := by omega
        have deeper : n + below + 1 ≠ n := by omega
        rw [if_neg fun same => deeper (Option.some.inj same)]
        simp only [Option.map_some, here, next]
        exact .next registered rfl rfl leaves
      · rw [if_pos rfl]
        simp only [Option.map_some, Nat.sub_self]
        exact .last registered rfl ⟨.null, _, .null, _, rfl, rfl⟩

def session (rounds : Nat) : Simulation Diver :=
  { heap := pool.2, limits := ⟨rounds, 3⟩ }

theorem three_divers_take_five_rounds :
    (∃ report after, Simulation.tick ((session 5).spawn (dive (some 2))).2 = .ok report after ∧
      after.flows.listing = ⟨[], [], [1, 2, 3], []⟩ ∧ after.isIdle = true ∧ after.now = 1) ∧
    (∃ after, Simulation.tick ((session 4).spawn (dive (some 2))).2 =
      .error (.tickBudgetExceeded 0 5) after ∧ after.now = 0) ∧
    ∃ after, Simulation.tick ((session 4).spawn (dive none)).2 =
      .error (.tickBudgetExceeded 0 5) after ∧ after.now = 0 := by
  have three (rounds : Nat) := Simulation.await_chains_take_exact_rounds (session rounds) _ _ rfl rfl
    rfl (by simp [session]) (Diver.chain (some 2))
  have endless := Simulation.await_chains_take_exact_rounds (session 4) _ _ rfl rfl rfl
    (by simp [session]) (Diver.chain none)
  refine ⟨?_, ?_, ?_⟩
  · obtain ⟨enough, ends, -⟩ := three 5
    obtain ⟨report, after, done⟩ := enough.2 ⟨2, rfl, by decide⟩
    obtain ⟨last, same, listing, -, idle, now⟩ := ends report after done
    cases same
    exact ⟨report, after, done, listing, idle, now⟩
  · obtain ⟨enough, -, fails⟩ := three 4
    cases ended : Simulation.tick ((session 4).spawn (dive (some 2))).2 with
    | ok report after =>
        obtain ⟨last, same, inside⟩ := enough.1 ⟨report, after, ended⟩
        cases same
        cases (by decide : ¬ 2 * 2 + 1 ≤ 4) inside
    | error e after =>
        obtain ⟨rfl, now⟩ := fails e after ended
        exact ⟨after, rfl, now⟩
  · obtain ⟨enough, -, fails⟩ := endless
    cases ended : Simulation.tick ((session 4).spawn (dive none)).2 with
    | ok report after =>
        obtain ⟨last, same, -⟩ := enough.1 ⟨report, after, ended⟩
        cases same
    | error e after =>
        obtain ⟨rfl, now⟩ := fails e after ended
        exact ⟨after, rfl, now⟩

end Diver

end Cadence
