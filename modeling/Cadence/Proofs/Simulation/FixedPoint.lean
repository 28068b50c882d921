import Cadence.Proofs.Simulation.Watch
/-!
A tick that succeeds leaves no work behind. Each flow that is active afterwards sleeps, in the
activation that it is in, and each task that was scheduled had its turn.
-/

namespace Cadence

variable {σ : Type}

/-- A flow that has been stepped and has nothing pending. -/
structure Flow.Asleep (flow : Flow σ) : Prop where
  stepped : flow.stepsTaken ≠ 0
  resumed : flow.resumption = none
  idle : ∀ record ∈ flow.stack.records, record.operations = []

def Halted (tick : Tick) (responses : List Response) : Prop :=
  ∃ address covered total,
    responses.getLast? = some { traffic := .halt address covered total, tick }

theorem Halted.append {tick : Tick} {responses : List Response} (halted : Halted tick responses)
    (earlier : List Response) : Halted tick (earlier ++ responses) := by
  obtain ⟨address, covered, total, last⟩ := halted
  exact ⟨address, covered, total, by rw [List.getLast?_append, last]; rfl⟩

namespace Flow

open Stack (Idle)

variable {flow : Flow σ} {heap : Heap} {tick : Tick} {outcome : Outcome σ}

theorem perform_halt (idle : Idle flow.stack.records) {command : Command σ}
    (done : (flow.perform heap command tick).1 = .ok outcome)
    (sleeps : outcome.boundary = some .halt) :
    (flow.perform heap command tick).2.1 = flow ∧ Halted tick outcome.responses := by
  obtain ⟨top, below, records⟩ := idle.shape.exists_cons
  have awake {other : Outcome σ} (same : Except.ok (ε := EngineError) other = .ok outcome)
      (apart : other.boundary ≠ some .halt) : False :=
    apart (Except.ok.inj same ▸ sleeps)
  unfold perform at done ⊢
  cases kind : command.action with
  | load params isDependency =>
      simp only [kind, load_eq records] at done
      by_cases missing : (heap.get? command.address.object).isNone = true
      · simp only [if_pos missing] at done
        cases done
      · simp only [if_neg missing] at done
        exact (awake done (by simp)).elim
  | log entries =>
      simp only [kind, log] at done
      exact (awake (framed_ok done).2 (by simp)).elim
  | halt covered total =>
      simp only [kind, halt] at done ⊢
      replace done := (framed_ok done).2
      split at done
      · cases done
      · refine ⟨trivial, command.address, covered, total, ?_⟩
        rw [← Except.ok.inj done]
        rfl
  | await request =>
      simp only [kind, await] at done
      exact (awake (framed_ok done).2 (by simp)).elim
  | unload value =>
      simp only [kind] at done
      unfold unload at done
      split at done
      · cases done
      · split at done
        · cases done
        · simp only at done
          split at done
          · split at done
            · cases done
            · exact (awake done (by simp)).elim
          · exact (awake done (by simp)).elim

variable [Coroutine σ]

theorem step_halt (sound : flow.Sound heap) (done : (flow.step heap tick).result = .ok outcome)
    (sleeps : outcome.boundary = some .halt) :
    (∀ record ∈ (flow.step heap tick).flow.stack.records, record.operations = []) ∧
      Halted tick outcome.responses := by
  obtain ⟨input, popped, records, taken, idle, -⟩ := takeInput_spec sound.shape
  unfold step at done ⊢
  simp only [taken] at done ⊢
  split at done
  next => cases done
  next value answer =>
    unfold finish at done
    split at done
    · cases done
    · simp only at done
      split at done
      · cases done
      · injection done with done
        rw [← done] at sleeps
        cases sleeps
  next command answer =>
    obtain ⟨same, halted⟩ := perform_halt idle done sleeps
    refine ⟨?_, halted⟩
    rw [same]
    exact idle.idle

end Flow

namespace Stage

variable [Coroutine σ] {tick : Tick} {pending : List Response} {flow later : Flow σ}
  {heap memory : Heap} {results : List (List Response)} {boundary : Boundary σ}

theorem Steps.kin (steps : Steps tick pending flow heap results boundary later memory)
    (sound : flow.Sound heap) : flow.Kin later := by
  induction steps with
  | last stepped reached =>
      obtain ⟨⟨input, -, ⟨records, same⟩, -⟩, -⟩ := Flow.step_advances sound tick
      rw [same]
      exact ⟨rfl, rfl, rfl, rfl⟩
  | more stepped goesOn rest ih =>
      obtain ⟨⟨input, -, ⟨records, same⟩, -⟩, sound', -⟩ := Flow.step_advances sound tick
      obtain ⟨id, name, spawnedAt, activation⟩ := ih sound'
      rw [same] at id name spawnedAt activation
      exact ⟨id, name, spawnedAt, activation⟩

theorem Steps.halted (steps : Steps tick pending flow heap results .halt later memory)
    (sound : flow.Sound heap) (resumed : flow.resumption = none) :
    later.Asleep ∧ Halted tick results.flatten := by
  generalize ended : Boundary.halt = boundary at steps
  induction steps with
  | last stepped reached =>
      obtain ⟨⟨input, -, ⟨records, same⟩, -⟩, -⟩ := Flow.step_advances sound tick
      obtain ⟨idle, halted⟩ := Flow.step_halt sound stepped (reached.trans (congrArg _ ended.symm))
      refine ⟨⟨?_, ?_, idle⟩, ?_⟩
      · rw [same]
        exact Nat.succ_ne_zero _
      · rw [same]
        exact resumed
      · unfold resultOf
        split
        next nothing =>
          obtain ⟨_, _, _, last⟩ := halted
          rw [(List.append_eq_nil_iff.1 (List.isEmpty_iff.1 nothing)).2] at last
          cases last
        next =>
          rw [List.flatten_singleton]
          exact halted.append _
  | more stepped goesOn rest ih =>
      obtain ⟨⟨input, -, ⟨records, same⟩, -⟩, sound', -⟩ := Flow.step_advances sound tick
      obtain ⟨asleep, halted⟩ := ih sound' (by rw [same]; exact resumed) ended
      rw [List.flatten_append]
      exact ⟨asleep, halted.append _⟩

end Stage

namespace Simulation

open Contract Engine FlowTable

variable {tick : Tick} {id other : Nat} {flow later flow' : Flow σ} {before after : FlowTable σ}
  {boundary : Boundary σ}

theorem Ends.active (ends : Ends tick id flow later before boundary after)
    (found : before.find? id = some (.active flow)) (kin : flow.Kin later)
    (active : after.find? other = some (.active flow')) :
    (other = id ∧ boundary = .halt ∧ flow' = later) ∨
      (other ≠ id ∧ before.find? other = some (.active flow')) ∨
      (∃ old, before.live? other = some old ∧ flow'.activation = old.activation + 1) ∨
      before.phases.size < other := by
  have settled {middle : FlowTable σ} (settled : Settled middle tick after) :
      middle.find? other = some (.active flow') ∨
        ∃ old wait, middle.find? other = some (.suspended old wait) ∧
          flow'.activation = old.activation + 1 := by
    have change := settled.phases other
    rw [active] at change
    generalize middle.find? other = phase? at change
    cases change with
    | spared spares => cases spares with | same => exact .inl rfl
    | resumed => exact .inr ⟨_, _, rfl, rfl⟩
  cases ends with
  | halt =>
      rw [find?_put found] at active
      split at active
      next same => exact .inl ⟨same, rfl, by simpa using active.symm⟩
      next apart => exact .inr (.inl ⟨apart, active⟩)
  | await shapely resolved =>
      have settled := settled (resolve_ok resolved).1
      obtain ⟨size, others, fresh, ids, here, -⟩ := awaiting_spec found later _ _ tick
      -- The flow that waits may itself be resumed, if what it waits for is ready at once.
      by_cases same : other = id
      · rw [same, here] at settled
        rcases settled with known | ⟨old, wait, known, next⟩
        · cases known
        · obtain ⟨rfl, -⟩ := Phase.suspended.inj (Option.some.inj known)
          refine .inr (.inr (.inl ⟨flow, ?_, by rw [next, kin.activation]⟩))
          rw [same]
          exact live?_eq_some.2 (.inl found)
      · by_cases inside : other ≤ before.phases.size
        · rw [others other same inside] at settled
          rcases settled with known | ⟨old, wait, known, next⟩
          · exact .inr (.inl ⟨same, known⟩)
          · exact .inr (.inr (.inl ⟨old, live?_eq_some.2 (.inr ⟨wait, known⟩), next⟩))
        · exact .inr (.inr (.inr (by omega)))
  | complete resolved =>
      have settled := settled (resolve_ok resolved).1
      rw [find?_completing found] at settled
      split at settled
      next same =>
        rcases settled with known | ⟨old, wait, known, next⟩
        · cases known
        · cases known
      next apart =>
        rcases settled with known | ⟨old, wait, known, next⟩
        · exact .inr (.inl ⟨apart, known⟩)
        · exact .inr (.inr (.inl ⟨old, live?_eq_some.2 (.inr ⟨wait, known⟩), next⟩))

end Simulation

/-- What a tick that has succeeded has come to, as seen by the one who has watched it. -/
structure FixedPoint (before : Simulation σ) (report : TickReport) (watched : Watched σ) :
    Prop where
  tick : report.tick = before.now
  divided : Divided before.now before.replay watched.sim.replay
    (watched.stints.flatMap Stint.reports) report.reports
  asleep : ∀ id flow, watched.sim.flows.find? id = some (.active flow) → flow.Asleep
  halted : ∀ id flow, watched.sim.flows.find? id = some (.active flow) →
    Halted before.now (watched.responses id)
  stepped : watched.tasks = before.tasks.ids ∧ before.tasks.ids.Nodup
  tasks : watched.sim.tasks = before.tasks.ids.foldl
    (fun table id => Engine.after (TaskTable.tick id) table) before.tasks
  once : (watched.stints.map fun stint => (stint.flow, stint.activation)).Nodup

namespace Watched

open Contract Engine FlowTable Simulation

variable [Coroutine σ] {before : Simulation σ} {tasks : List TaskId}
  {stepped : FlowId → Option Nat} {reports : List Report} {watched after : Watched σ}
  {id : Nat} {flow : Flow σ}

structure Underway (before : Simulation σ) (tasks : List TaskId) (stepped : FlowId → Option Nat)
    (reports : List Report) (watched : Watched σ) : Prop where
  kept : (any σ).Kept watched.sim
  divided : Divided before.now before.replay watched.sim.replay
    (watched.stints.flatMap Stint.reports) reports
  noted : watched.tasks = tasks
  begun : tasks = [] ∨ tasks = before.tasks.ids
  ticked : watched.sim.tasks = tasks.foldl (fun table id => (TaskTable.tick id).after table) before.tasks
  behind : ∀ stint ∈ watched.stints, ∃ latest, stepped stint.flow = some latest ∧
    stint.activation ≤ latest
  once : (watched.stints.map fun stint => (stint.flow, stint.activation)).Nodup
  rests : ∀ id flow, watched.sim.flows.find? id = some (.active flow) →
    stepped id = some flow.activation → flow.Asleep ∧ Halted before.now (watched.responses id)

omit [Coroutine σ] in
theorem responses_concat {stint : Stint} (stints : after.stints = watched.stints ++ [stint])
    (other : FlowId) : after.responses other =
      watched.responses other ++ if stint.flow = other then stint.results.flatten else [] := by
  simp only [responses, stints, List.filter_append, List.flatMap_append, List.flatten_append]
  by_cases same : stint.flow = other <;> simp [same]

theorem Underway.behind_note (underway : Underway before tasks stepped reports watched)
    {activation : Nat} (ahead : ∀ past, stepped id = some past → past < activation) :
    ∀ stint ∈ watched.stints, ∃ latest,
      Coverage.note stepped (id, activation) stint.flow = some latest ∧ stint.activation ≤ latest := by
  intro stint member
  obtain ⟨latest, known, less⟩ := underway.behind stint member
  by_cases same : stint.flow = id
  · rw [same] at known ⊢
    exact ⟨activation, Function.update_self .., Nat.le_of_lt (Nat.lt_of_le_of_lt less (ahead _ known))⟩
  · exact ⟨latest, (Function.update_of_ne same ..).trans known, less⟩

theorem Underway.pass (underway : Underway before tasks stepped reports watched) {activation : Nat}
    (moved : ∀ flow, watched.sim.flows.find? id = some (.active flow) → activation ≠ flow.activation)
    (ahead : ∀ past, stepped id = some past → past < activation) :
    Underway before tasks (Coverage.note stepped (id, activation)) reports watched where
  kept := underway.kept
  divided := underway.divided
  noted := underway.noted
  begun := underway.begun
  ticked := underway.ticked
  behind := underway.behind_note ahead
  once := underway.once
  rests other flow found known := by
    by_cases same : other = id
    · subst same
      have : activation = flow.activation := by simpa using known
      exact absurd this (moved flow found)
    · exact underway.rests other flow found ((Function.update_of_ne same ..).symm.trans known)

theorem Underway.once_concat (underway : Underway before tasks stepped reports watched) {stint : Stint}
    (ahead : ∀ past, stepped stint.flow = some past → past < stint.activation) :
    ((watched.stints ++ [stint]).map fun stint => (stint.flow, stint.activation)).Nodup := by
  rw [List.map_append, List.nodup_append]
  refine ⟨underway.once, List.nodup_singleton _, fun pair old pair' new same => ?_⟩
  obtain ⟨earlier, member, rfl⟩ := List.mem_map.1 old
  obtain rfl := List.mem_singleton.1 new
  obtain ⟨here, again⟩ := Prod.mk.inj same
  obtain ⟨latest, known, less⟩ := underway.behind earlier member
  have := ahead latest (here ▸ known)
  omega

theorem Underway.rests_turn (underway : Underway before tasks stepped reports watched)
    (current : watched.sim.flows.Current stepped)
    (found : watched.sim.flows.find? id = some (.active flow)) (sound : flow.Sound watched.sim.heap)
    {fresh : List Report} {boundary : Boundary σ} {later : Flow σ} {memory : Heap}
    (produces : Produces before.now id flow watched.sim after.sim fresh boundary later memory)
    (stints : after.stints = watched.stints ++ [watched.sim.stint id before.now]) {other : Nat}
    {flow' : Flow σ} (found' : after.sim.flows.find? other = some (.active flow'))
    (known : Coverage.note stepped (id, flow.activation) other = some flow'.activation) :
    flow'.Asleep ∧ Halted before.now (after.responses other) := by
  have sound := sound.unresumed
  have kin : flow.Kin later := by
    obtain ⟨id, name, spawnedAt, activation⟩ := produces.steps.kin sound
    exact ⟨id, name, spawnedAt, activation⟩
  have responses : after.responses other = watched.responses other ++
      if id = other then (watched.sim.stint id before.now).results.flatten else [] :=
    responses_concat stints other
  rcases produces.ends.active found kin found' with
    ⟨here, rfl, rfl⟩ | ⟨apart, old⟩ | ⟨old, live, next⟩ | beyond
  · obtain ⟨asleep, halted⟩ := produces.steps.halted sound rfl
    refine ⟨asleep, ?_⟩
    rw [responses, if_pos here.symm]
    exact halted.append _
  · rw [responses, if_neg (Ne.symm apart), List.append_nil]
    exact underway.rests other flow' old ((Function.update_of_ne apart ..).symm.trans known)
  · -- The flow has been resumed in this turn, and nothing was stepped in its new activation.
    exfalso
    by_cases here : other = id
    · subst here
      rw [live?_eq_some.2 (.inl found)] at live
      obtain rfl := Option.some.inj live
      have : flow.activation = flow'.activation := by simpa using known
      omega
    · have known := (Function.update_of_ne here ..).symm.trans known
      have := current.behind other old _ live known
      omega
  · have inside := (le_size_of_find? found).2
    have apart : other ≠ id := by
      rintro rfl
      omega
    have known := (Function.update_of_ne apart ..).symm.trans known
    have := current.inside other _ known
    omega

theorem Underway.turn (underway : Underway before tasks stepped reports watched)
    (current : watched.sim.flows.Current stepped)
    (found : watched.sim.flows.find? id = some (.active flow))
    (unstepped : stepped id ≠ some flow.activation) {fresh : List Report}
    (done : Simulation.process id before.now watched.sim = .ok fresh after.sim)
    (stints : after.stints = watched.stints ++ [watched.sim.stint id before.now])
    (same : after.tasks = watched.tasks) :
    Underway before tasks (Coverage.note stepped (id, flow.activation)) (reports ++ fresh) after := by
  obtain ⟨lineage, holds⟩ := underway.kept
  obtain ⟨boundary, later, memory, produces⟩ := process_produces holds found done
  have sound : flow.Sound watched.sim.heap := (holds.orders.admits id _ found).sound
  have kept := process_kept id before.now watched.sim ⟨underway.kept, flow, found⟩
  have turn := process_turn holds found ((any σ).steady_any before.now) trivial
  rw [done] at kept turn
  have active : watched.sim.flows.active? id = some flow := active?_eq_some.2 found
  have ahead := current.ahead found unstepped
  have key : (watched.sim.stint id before.now).activation = flow.activation := by
    simp only [stint, active]
    rfl
  constructor
  case kept => exact kept
  case divided =>
    rw [stints, List.flatMap_append, List.flatMap_singleton]
    exact underway.divided.append produces.divided
  case noted => exact same.trans underway.noted
  case begun => exact underway.begun
  case ticked => exact turn.2.tasks.trans underway.ticked
  case behind =>
    rw [stints]
    intro stint member
    rcases List.mem_append.1 member with old | new
    · exact underway.behind_note ahead stint old
    · obtain rfl := List.mem_singleton.1 new
      exact ⟨flow.activation, Function.update_self .., Nat.le_of_eq key⟩
  case once =>
    rw [stints]
    exact underway.once_concat (key.symm ▸ ahead)
  case rests =>
    exact fun other flow' => underway.rests_turn current found sound produces stints

theorem Underway.launch (underway : Underway before tasks stepped reports watched)
    (current : watched.sim.flows.Current stepped) {ids : List TaskId}
    (pending : ids = watched.sim.tasks.ids.filter (· ∉ tasks)) {sim : Simulation σ}
    (kept : (any σ).Kept sim) (launches : Launches ids watched.sim sim) :
    Underway before (ids ++ tasks) stepped reports
      { watched with sim, tasks := watched.tasks ++ ids } := by
  have whole : tasks ++ ids = ids ++ tasks ∧ (ids ++ tasks = before.tasks.ids) := by
    rcases underway.begun with none | all
    · have same := underway.ticked
      rw [none] at same
      have all : ids = before.tasks.ids := by simpa [none, same] using pending
      simp [none, all]
    · have nothing : ids = [] := by
        rw [pending, List.filter_eq_nil_iff]
        intro id member
        rw [underway.ticked] at member
        simpa [all] using TaskTable.mem_ids_of_ticks member
      simp [nothing, all]
  constructor
  case kept => exact kept
  case divided =>
    show Divided before.now before.replay sim.replay _ reports
    rw [launches.replay]
    exact underway.divided
  case noted =>
    rw [← whole.1]
    exact congrArg (· ++ ids) underway.noted
  case begun => exact .inr whole.2
  case ticked =>
    rw [← whole.1, List.foldl_append, ← underway.ticked]
    exact launches.tasks
  case behind => exact underway.behind
  case once => exact underway.once
  case rests =>
    intro id flow found known
    rw [launches.old id (current.inside id _ known)] at found
    exact underway.rests id flow found known

theorem underway_start (kept : (any σ).Kept before) :
    Underway before [] (fun _ => none) [] ⟨{ before with journal := [] }, [], []⟩ where
  kept := kept.unjournaled
  divided := .surface _ _ []
  noted := rfl
  begun := .inl rfl
  ticked := rfl
  behind := by simp
  once := List.nodup_nil
  rests := by simp

theorem Underway.fixedPoint (kept : (any σ).Kept before) (underway : Underway before tasks stepped reports watched)
    (covered : Covered stepped watched.sim.flows) (all : ∀ id ∈ watched.sim.tasks.ids, id ∈ tasks) :
    FixedPoint before { tick := before.now, reports }
      { watched with sim := { watched.sim with now := watched.sim.now + 1 } } := by
  have whole : tasks = before.tasks.ids := by
    rcases underway.begun with none | whole
    · have ticked := underway.ticked
      rw [none] at ticked all ⊢
      rw [ticked] at all
      exact (List.eq_nil_iff_forall_not_mem.2 fun id member => by simpa using all id member).symm
    · exact whole
  constructor
  case tick => rfl
  case divided => exact underway.divided
  case asleep => exact fun id flow found => (underway.rests id flow found (covered id flow found)).1
  case halted => exact fun id flow found => (underway.rests id flow found (covered id flow found)).2
  case stepped =>
    obtain ⟨lineage, holds⟩ := kept
    exact ⟨underway.noted.trans whole, holds.tasks.nodup_ids⟩
  case tasks =>
    rw [← whole]
    exact underway.ticked
  case once => exact underway.once

theorem covering (before : Simulation σ) :
    (probe (σ := σ)).Covering before.now (Underway before) fun _ _ => True where
  change _ _ := rfl
  tasks {covered stepped reports state} underway current := by
    refine (pendingTasks_mimics underway.kept covered before.now).imp fun _ after known => ?_
    obtain ⟨done, kept, stints, noted⟩ := known
    have launches := stepTasks_launches done
    have added : Underway before (state.sim.pendingTasks covered ++ covered.tasks) stepped reports
        ⟨after.sim, state.stints, state.tasks ++ state.sim.pendingTasks covered⟩ :=
      underway.launch current rfl kept launches
    rw [← stints, ← noted] at added
    exact ⟨added, launches.ages⟩
  process {tasks stepped reports state id flow} underway current found unstepped := by
    refine (process_mimics id before.now state).imp fun fresh after known => ?_
    obtain ⟨done, stints, noted⟩ := known
    exact ⟨underway.turn current found unstepped done stints noted,
      process_ages underway.kept found done⟩
  pass underway moved ahead := underway.pass (fun flow found => (moved flow found).2) ahead
  stop _ _ := trivial

end Watched

namespace Simulation

/--
A tick that succeeds reaches its fixed point. Every flow that is active afterwards sleeps and has said
so last, every task that was scheduled was stepped once, and no activation had two turns.
-/
theorem ticks_reach_their_fixed_point [Coroutine σ] (limits : Limits)
    (operations : List (Simulation.Operation σ)) {report : TickReport} {after : Simulation σ}
    (done : (session limits operations).tick = .ok report after) :
    ∃ watched, Watched.probe.tick ⟨session limits operations, [], []⟩ = .ok report watched ∧
      watched.sim = after ∧ FixedPoint (session limits operations) report watched := by
  have kept := session_kept limits operations
  generalize session limits operations = sim at done kept
  have ticked := (Watched.covering sim).tick
    (fun reports watched => FixedPoint sim { tick := sim.now, reports } watched)
    (Watched.underway_start kept)
    (fun tasks stepped reports last underway covered all => underway.fixedPoint kept covered all)
    (⟨sim, [], []⟩ : Watched σ) rfl
  cases watch : Watched.probe.tick ⟨sim, [], []⟩ with
  | error e watched =>
      rw [watch] at ticked
      cases done.symm.trans ticked.1
  | ok report' watched =>
      rw [watch] at ticked
      obtain ⟨plain, now, fixed⟩ := ticked
      injection done.symm.trans plain with same same'
      subst same same'
      obtain ⟨tick, reports⟩ := report
      subst now
      exact ⟨watched, rfl, rfl, fixed⟩

def workersByInterval : List (Simulation.Operation Playback) :=
  let here : Address := ⟨"2b2a14d215455d3ce50cfc5c2ae1d125_1", 0⟩
  let worker : List PlaybackMove := [.load here [] false, .halt here 1 1, .unload here (.int 7)]
  [.register { className := "Worker", fields := [] },
    .interval "worker" 1 (Playback.recipe "worker" [] worker), .tick]

theorem workers_reach_their_fixed_point : ∃ report after,
    Simulation.tick (session {} workersByInterval) = .ok report after ∧
      (session {} workersByInterval).tasks.ids = [1] ∧ after.flows.activations = [(2, 0)] ∧
      ∃ watched, Watched.probe.tick ⟨session {} workersByInterval, [], []⟩ = .ok report watched ∧
        watched.sim = after ∧ FixedPoint (session {} workersByInterval) report watched := by
  have awake : (match Simulation.tick (session {} workersByInterval) with
      | .ok _ after => after.flows.activations
      | .error _ _ => []) = [(2, 0)] := by decide +kernel
  cases ticked : Simulation.tick (session {} workersByInterval) with
  | error e after =>
      rw [ticked] at awake
      cases awake
  | ok report after =>
      rw [ticked] at awake
      exact ⟨report, after, rfl, by decide +kernel, awake,
        ticks_reach_their_fixed_point {} workersByInterval ticked⟩

end Simulation

end Cadence
