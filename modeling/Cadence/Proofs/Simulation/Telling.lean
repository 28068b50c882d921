import Cadence.Proofs.Simulation.Edges
import Cadence.Proofs.Simulation.Evidence
/-!
Every turn of a flow, and so every tick, keeps up what the turns so far tell of edges.
-/

namespace Cadence

open FlowTable Cadence.Flow

variable {σ : Type} {table middle : FlowTable σ} {stints : List Stint} {new : Stint} {id : Nat}
  {tick : Tick} {flow later : Flow σ} {boundary : Boundary σ} {origin? : Option Wait}
  {turns : List Stint}

theorem draw_nil (table : FlowTable σ) (origin? : Option Wait) : Draw table origin? [] where
  balanced := by
    have nowhere : Leading [] = fun _ => False := by
      funext place
      exact propext ⟨not_leading_nil, False.elim⟩
    rw [nowhere]
    exact balanced_nil
  entrance := by simp
  linked before next after split := by simp at split

theorem tells_nil (unstepped : ∀ id phase, table.find? id = some phase →
    ∃ recipe, phase = .active (.ofRecipe id recipe none false tick)) : Tells [] table where
  inside := by simp
  created := by simp
  nodup := List.nodup_nil
  shapely := by simp
  draws _ := draw_nil ..
  fits id phase found := by
    obtain ⟨recipe, rfl⟩ := unstepped id phase found
    exact .inl ⟨rfl, ⟨_, rfl⟩, rfl, rfl⟩

theorem Drawn.draw [Coroutine σ] (drawn : Drawn table origin? turns new later boundary)
    (draw : Draw table origin? turns) (keeps : table.KeepsEnded middle) :
    Draw middle origin? (turns ++ [new]) where
  balanced := drawn.balanced
  entrance _ := drawn.entrance
  linked before next after split := by
    rcases split_concat split with ⟨rfl, rfl⟩ | ⟨rest, split⟩
    · exact drawn.linked.keeps keeps
    · exact (draw.linked before next rest split).keeps keeps

namespace Tells

theorem nodup_concat (tells : Tells stints table)
    (children : ∀ child : Nat, child ∈ new.dependencies → table.phases.size < child)
    (apart : new.dependencies.Nodup) : ((stints ++ [new]).flatMap Stint.dependencies).Nodup := by
  rw [List.flatMap_append, List.flatMap_singleton, List.nodup_append]
  refine ⟨tells.nodup, apart, fun child old child' fresh same => ?_⟩
  have within : child' ≤ table.phases.size := tells.created child' (same ▸ old)
  exact Nat.lt_irrefl _ (Nat.lt_of_lt_of_le (children child' fresh) within)

variable [Coroutine σ]

theorem concat (tells : Tells stints table) (own : new.flow = id) (inside : id ≤ table.phases.size)
    (drawn : Drawn table (origin stints id) (turnsOf stints id) new later boundary)
    (keeps : table.KeepsEnded middle)
    (children : ∀ child : Nat, child ∈ new.dependencies →
      table.phases.size < child ∧ child ≤ middle.phases.size)
    (apart : new.dependencies.Nodup)
    (shapely : ∀ wait, new.wait? = some wait →
      wait.strategy.check id wait.dependencies.length = .ok ())
    (here : ∀ phase, middle.find? id = some phase →
      Fits middle (origin stints id) (turnsOf stints id ++ [new]) phase)
    (others : ∀ other : Nat, other ≠ id → other ≤ table.phases.size →
      middle.find? other = table.find? other)
    (fresh : ∀ (other : Nat) phase, table.phases.size < other → middle.find? other = some phase →
      Fits middle (origin (stints ++ [new]) other) [] phase) : Tells (stints ++ [new]) middle := by
  -- Only what this turn has spawned has a new origin.
  have old {other : Nat} (within : other ≤ table.phases.size) :
      origin (stints ++ [new]) other = origin stints other := by
    refine origin_concat_old stints new fun member => ?_
    have := (children other member).1
    omega
  have turned : turnsOf (stints ++ [new]) id = turnsOf stints id ++ [new] := by
    rw [turnsOf_concat, if_pos own]
  have unturned {other : Nat} (distinct : other ≠ id) :
      turnsOf (stints ++ [new]) other = turnsOf stints other := by
    rw [turnsOf_concat, own, if_neg distinct.symm, List.append_nil]
  constructor
  case inside =>
    refine List.forall_mem_append.2 ⟨fun stint member => ?_, List.forall_mem_singleton.2 ?_⟩
    · exact Nat.le_trans (tells.inside stint member) keeps.size
    · exact own ▸ Nat.le_trans inside keeps.size
  case created =>
    intro child member
    rw [List.flatMap_append, List.flatMap_singleton] at member
    rcases List.mem_append.1 member with old | new
    · exact Nat.le_trans (tells.created child old) keeps.size
    · exact (children child new).2
  case nodup => exact tells.nodup_concat (fun child member => (children child member).1) apart
  case shapely =>
    exact List.forall_mem_append.2 ⟨tells.shapely, List.forall_mem_singleton.2 (own ▸ shapely)⟩
  case draws =>
    intro other
    by_cases same : other = id
    · subst same
      rw [turned, old inside]
      exact drawn.draw (tells.draws _) keeps
    · rw [unturned same]
      rcases Nat.lt_or_ge table.phases.size other with past | within
      · rw [tells.turnsOf_of_lt past]
        exact draw_nil ..
      · rw [old within]
        exact (tells.draws other).keeps keeps
  case fits =>
    intro other phase found
    by_cases same : other = id
    · subst same
      rw [turned, old inside]
      exact here phase found
    · rw [unturned same]
      rcases Nat.lt_or_ge table.phases.size other with past | within
      · rw [tells.turnsOf_of_lt past]
        exact fresh other phase past found
      · rw [old within]
        rw [others other same within] at found
        exact (tells.fits other phase found).keeps keeps

theorem halt (tells : Tells stints table) (found : table.find? id = some (.active flow))
    (own : new.flow = id) (waited : new.wait? = none)
    (drawn : Drawn table (origin stints id) (turnsOf stints id) new later .halt)
    (stepped : later.stepsTaken ≠ 0) (resumed : later.resumption = none) :
    Tells (stints ++ [new]) (table.put id (some (.active later))) := by
  have childless : new.dependencies = [] := by simp [Stint.dependencies, waited]
  refine tells.concat own (le_size_of_find? found).2 drawn (keepsEnded_put found _)
    (by simp [childless]) (by simp [childless]) (by simp [waited]) (fun phase known => ?_)
    (fun other distinct _ => find?_put_of_ne table _ distinct) fun other phase past known => ?_
  · rw [find?_put_self found] at known
    obtain rfl := Option.some.inj known
    refine .inr ⟨⟨stepped, drawn.draws⟩, ?_⟩
    rw [List.getLast?_concat, Option.bind_some, waited, resumed]
    trivial
  · have := (le_size_of_find? known).2
    rw [size_put] at this
    omega

theorem complete (tells : Tells stints table) (found : table.find? id = some (.active flow))
    (own : new.flow = id) (waited : new.wait? = none) {value : Json} {last : Option Address}
    (drawn : Drawn table (origin stints id) (turnsOf stints id) new later (.complete value last))
    {done : Completion} (left : done.lastAddress = last) :
    Tells (stints ++ [new]) (table.completing id done) := by
  have childless : new.dependencies = [] := by simp [Stint.dependencies, waited]
  refine tells.concat own (le_size_of_find? found).2 drawn (keepsEnded_completing found done)
    (by simp [childless]) (by simp [childless]) (by simp [waited]) (fun phase known => ?_)
    (fun other distinct _ => ?_) fun other phase past known => ?_
  · rw [find?_completing found, if_pos rfl] at known
    obtain rfl := Option.some.inj known
    obtain ⟨address, params, loaded, same⟩ := drawn.draws
    exact ⟨address, params, left.trans same, loaded⟩
  · rw [find?_completing found, if_neg distinct]
  · have inside := (le_size_of_find? found).2
    rw [find?_completing found, if_neg (by omega), find?_eq_none_of_size_lt past] at known
    cases known

theorem await (tells : Tells stints table) (found : table.find? id = some (.active flow))
    (own : new.flow = id) {request : Request σ} {caller : Address}
    (shapely : request.strategy.check id request.recipes.length = .ok ())
    (waited : new.wait? = some (request.wait caller table.phases.size tick))
    (drawn : Drawn table (origin stints id) (turnsOf stints id) new later (.await request caller))
    (stepped : later.stepsTaken ≠ 0) :
    Tells (stints ++ [new]) (table.awaiting id later request caller tick) := by
  obtain ⟨size, others, made, -⟩ := awaiting_spec found later request caller tick
  have children : new.dependencies = List.range' (table.phases.size + 1) request.recipes.length := by
    simp [Stint.dependencies, waited, Request.wait]
  have apart : new.dependencies.Nodup := by
    rw [children]
    exact List.nodup_range'
  have newer (child : Nat) (member : child ∈ new.dependencies) : table.phases.size < child := by
    rw [children, List.mem_range'_1] at member
    omega
  refine tells.concat own (le_size_of_find? found).2 drawn (keepsEnded_awaiting found ..)
    (fun child member => ⟨newer child member, ?_⟩) apart (fun wait known => ?_)
    (fun phase known => ?_) others fun other phase past known => ?_
  · rw [children, List.mem_range'_1] at member
    omega
  · obtain rfl := Option.some.inj (waited.symm.trans known)
    simpa [Request.wait] using shapely
  · have inside := le_size_of_find? found
    rw [awaiting_eq, find?_put_self (find?_createAll_put found ..)] at known
    obtain rfl := Option.some.inj known
    refine ⟨⟨stepped, drawn.draws⟩, ?_⟩
    rw [List.getLast?_concat, Option.bind_some, waited]
  · obtain ⟨recipe, -, rfl⟩ := made other phase past known
    have within := (le_size_of_find? known).2
    have listed : other ∈ (request.wait caller table.phases.size tick).dependencies := by
      rw [Request.wait, List.mem_range'_1]
      omega
    rw [origin_of_mem (tells.nodup_concat newer apart) (List.mem_append_right _ (List.mem_singleton_self _))
      waited listed]
    exact .inl ⟨rfl, ⟨_, rfl⟩, rfl, rfl⟩

end Tells

section Turns

open Contract Simulation

variable [Coroutine σ] {contract : Contract σ} {sim after : Simulation σ} {lineage : Lineage}
  {reports : List Report}

theorem Contract.Holds.any (holds : contract.Holds ⟨sim, lineage⟩) :
    (any σ).Holds ⟨sim, lineage⟩ where
  orders := by
    refine ⟨holds.orders.forest, fun id phase found => ?_⟩
    have admits := holds.orders.admits id phase found
    cases phase with
    | active flow => exact { admits with running := trivial }
    | suspended flow wait => exact { admits with parked := trivial }
    | completed done => exact admits
    | cancelled cancellation => trivial
  unsettled := holds.unsettled
  heap := trivial
  tasks := ⟨holds.tasks.numbered, fun _ _ => trivial⟩

theorem process_tells (ends : contract.EndsWithEntry) (holds : contract.Holds ⟨sim, lineage⟩)
    (tells : Tells stints sim.flows) (found : sim.flows.find? id = some (.active flow))
    (done : process id tick sim = .ok reports after) :
    Tells (stints ++ [sim.stint id tick]) after.flows := by
  obtain ⟨boundary, later, memory, produces⟩ := process_produces holds.any found done
  have active : contract.Active sim.heap id flow := holds.orders.admits id _ found
  obtain ⟨stepped, resumed⟩ := produces.steps.begun active.sound.unresumed
  have drawn : Drawn sim.flows (origin stints id) (turnsOf stints id) (sim.stint id tick) later
      boundary := by
    rcases tells.fits id _ found with ⟨unturned, fresh⟩ | ⟨begun, resumes⟩
    · rw [unturned]
      exact drawn_first ends holds.heap active.sound active.running fresh produces.steps
    · exact drawn_later ends holds.heap active.sound active.running (tells.draws id) begun resumes
        produces.steps
  have forest := holds.orders.forest
  have followed := process_spec id tick ⟨sim, lineage⟩ ⟨holds, flow, found⟩
  simp only [Tracked.track, done] at followed
  have forest' := followed.orders.forest
  have counted : sim.flows.phases.size = lineage.length := forest.size
  simp only [Tracked.follow] at forest'
  have waited := produces.wait
  have reached := produces.ends
  generalize after.flows = flows at reached forest' ⊢
  cases reached with
  | halt => exact tells.halt found rfl waited drawn stepped resumed
  | @await request caller cancelled flows shapely resolved =>
      obtain ⟨settled, -⟩ := resolve_ok resolved
      obtain ⟨size, -⟩ := awaiting_spec found later request caller tick
      have awaited : FlowTable.Forest (sim.flows.awaiting id later request caller tick)
          (lineage ++ List.replicate request.recipes.length (some id)) [] :=
        (forest.put_active found later).await (find?_put_self found) ..
      rw [settled.size, size, counted, Nat.add_sub_cancel_left] at forest'
      exact (tells.await found rfl shapely waited drawn stepped).settled awaited forest' settled
  | @complete value last cancelled flows resolved =>
      obtain ⟨settled, -⟩ := resolve_ok resolved
      have completed : FlowTable.Forest (sim.flows.completing id ⟨id, flow.name, value, last,
          flow.spawnedAt, tick, sim.flows.completions + 1⟩) lineage [] :=
        (forest.put_idle (isLive_of_active found) (by simp) (by rintro _ ⟨⟩; rfl) rfl
          fun _ => forest.not_live_of_idle (dependencies_of_active found)).count _
      rw [settled.size, completed.size, Nat.sub_self, List.replicate_zero, List.append_nil] at forest'
      exact (tells.complete found rfl waited drawn rfl).settled completed forest' settled

omit [Coroutine σ] in
theorem stepTasks_tells {ids : List TaskId} (tells : Tells stints sim.flows)
    (done : stepTasks tick ids sim = .ok () after) : Tells stints after.flows := by
  induction ids generalizing sim with
  | nil =>
      obtain rfl := (Engine.pure_ok.1 done).2
      exact tells
  | cons id ids ih =>
      obtain ⟨_, middle, first, rest⟩ := Engine.bind_ok.1 done
      refine ih ?_ rest
      unfold stepTasks.stepTask at first
      split at first
      · cases first
      · injection first with _ same
        subst same
        exact tells
      · injection first with _ same
        subst same
        exact tells.create ..

end Turns

namespace Engine

variable {S T α : Type} {view : T → S} {fails : EngineError → T → Prop}

def times (operation : Engine S α) : Nat → Engine S (List α)
  | 0 => return []
  | n + 1 => do
    let first ← operation
    let rest ← times operation n
    return first :: rest

theorem Mimics.times {operation : Engine T α} {plain : Engine S α} {keeps : List α → T → Prop}
    (each : ∀ past, Mimics view (keeps past) operation plain (fun a => keeps (past ++ [a])) fails)
    (n : Nat) (past : List α) :
    Mimics view (keeps past) (times operation n) (times plain n) (fun all => keeps (past ++ all))
      fails := by
  induction n generalizing past with
  | zero => exact Mimics.pure fun _ kept => by rwa [List.append_nil]
  | succ n ih =>
      refine (each past).bind fun first => (ih (past ++ [first])).bind fun rest => ?_
      exact Mimics.pure fun _ kept => by rwa [List.append_cons]

end Engine

namespace Watched

open Contract Simulation

variable [Coroutine σ] {contract : Contract σ} {before : ReplayStore} {watched : Watched σ}

structure Recorded (contract : Contract σ) (before : ReplayStore) (surfaced : List Report)
    (watched : Watched σ) : Prop where
  kept : contract.Kept watched.sim
  tells : Tells watched.stints watched.sim.flows
  divided : ∃ held, watched.sim.replay.results.map Report.unmark =
      before.results.map Report.unmark ++ held ∧
    Split (watched.stints.flatMap Stint.reports) surfaced held

theorem Recorded.turn {surfaced fresh : List Report} {after : Watched σ}
    (ends : contract.EndsWithEntry) (recorded : Recorded contract before surfaced watched)
    (found : watched.sim.flows.find? id = some (.active flow))
    (done : Simulation.process id tick watched.sim = .ok fresh after.sim)
    (stints : after.stints = watched.stints ++ [watched.sim.stint id tick]) :
    Recorded contract before (surfaced ++ fresh) after where
  kept := by
    have kept := process_kept id tick watched.sim ⟨recorded.kept, flow, found⟩
    rwa [done] at kept
  tells := by
    obtain ⟨lineage, holds⟩ := recorded.kept
    rw [stints]
    exact process_tells ends holds recorded.tells found done
  divided := by
    obtain ⟨lineage, holds⟩ := recorded.kept
    obtain ⟨_, _, _, produces⟩ := process_produces holds.any found done
    obtain ⟨held, stored, split⟩ := recorded.divided
    obtain ⟨more, stored', split'⟩ := produces.divided
    refine ⟨held ++ more.map Report.unmark, ?_, ?_⟩
    · rw [stored', ReplayStore.results_foldl_hold, stored, List.append_assoc]
    · rw [stints, List.flatMap_append, List.flatMap_singleton]
      exact split.append split'

theorem recording (ends : contract.EndsWithEntry) (before : ReplayStore) (surfaced : List Report)
    (tick : Tick) : (probe (σ := σ)).Faithful tick
      (fun fresh => Recorded contract before (surfaced ++ fresh)) fun _ _ => True where
  change _ _ := rfl
  tasks fresh covered watched recorded := by
    refine (pendingTasks_mimics recorded.kept covered tick).imp fun _ after known => ?_
    obtain ⟨done, kept, stints, -⟩ := known
    refine ⟨kept, ?_, ?_⟩
    · rw [stints]
      exact stepTasks_tells recorded.tells done
    · rw [stints, (stepTasks_launches done).replay]
      exact recorded.divided
  process fresh id := by
    rintro state ⟨recorded, flow, found⟩
    refine (process_mimics id tick state).imp (fun more after known => ?_) state rfl
    obtain ⟨done, stints, -⟩ := known
    rw [← List.append_assoc]
    exact recorded.turn ends found done stints
  stop _ _ _ _ := trivial

theorem tick_recorded (ends : contract.EndsWithEntry) (before : ReplayStore)
    (past : List TickReport) :
    Engine.Mimics sim (Recorded contract before (past.flatMap TickReport.reports)) probe.tick
      Simulation.tick
      (fun report => Recorded contract before ((past ++ [report]).flatMap TickReport.reports))
      fun _ _ => True := by
  intro state recorded
  have started : Recorded contract before (past.flatMap TickReport.reports ++ [])
      (probe.change (fun sim => { sim with journal := [] }) state) := by
    rw [List.append_nil]
    exact ⟨recorded.kept.unjournaled, recorded.tells, recorded.divided⟩
  have ended (fresh : List Report) (last : Watched σ)
      (recorded : Recorded contract before (past.flatMap TickReport.reports ++ fresh) last) :
      Recorded contract before (past.flatMap TickReport.reports ++ fresh)
        (probe.change (fun sim => { sim with now := sim.now + 1 }) last) := by
    obtain ⟨lineage, holds⟩ := recorded.kept
    exact ⟨⟨lineage, holds.orders, holds.unsettled, holds.heap, holds.tasks⟩, recorded.tells,
      recorded.divided⟩
  refine ((recording ends before _ _).tick _ started ended).imp (fun report after known => ?_) state rfl
  rw [List.flatMap_append, List.flatMap_singleton]
  exact known.2

theorem times_recorded (ends : contract.EndsWithEntry) (before : ReplayStore) (n : Nat) :
    Engine.Mimics sim (Recorded contract before []) (Engine.times probe.tick n)
      (Engine.times Simulation.tick n)
      (fun reports => Recorded contract before (reports.flatMap TickReport.reports))
      fun _ _ => True :=
  Engine.Mimics.times (tick_recorded ends before) n []

end Watched

end Cadence
