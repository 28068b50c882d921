import Cadence.Proofs.FlowTable.Lifecycle
import Cadence.Proofs.Simulation.Dates
import Cadence.Proofs.Timeline.Lifetimes
/-!
The timeline of a snapshot. It is put together from four lists, and since each flow is in one of
them and under its own id there, each flow gets back the dates of its own record.
-/

namespace Cadence

variable {σ : Type}

def Phase.lifetime : Phase σ → Lifetime
  | active flow | suspended flow _ => { name := flow.name, start := flow.spawnedAt }
  | completed done =>
    { name := done.name, start := done.spawnedAt, ending := some (done.completedAt, .completed) }
  | cancelled cancellation =>
    { name := cancellation.name, start := cancellation.spawnedAt,
      ending := some (cancellation.cancelledAt, .cancelled) }

def Phase.events : Phase σ → List Event
  | active flow | suspended flow _ => Timeline.summaryEvents flow.summary
  | completed done => Timeline.completionEvents done
  | cancelled cancellation => Timeline.cancellationEvents cancellation

theorem Phase.lifetime?_events (phase : Phase σ) :
    Timeline.lifetime? phase.events = some phase.lifetime := by
  cases phase <;> rfl

theorem Phase.Dated.ordered {phase : Phase σ} {now tick : Tick} {id : FlowId} {kind : EventKind}
    (dated : phase.Dated now id) (ended : phase.lifetime.ending = some (tick, kind)) :
    phase.lifetime.start ≤ tick := by
  cases phase with
  | active | suspended => cases ended
  | completed | cancelled =>
      obtain ⟨rfl, rfl⟩ := Prod.mk.inj (Option.some.inj ended)
      exact dated.2.1

theorem Phase.Dated.told {phase : Phase σ} {now : Tick} {id : FlowId} (dated : phase.Dated now id)
    {event : Event} (member : event ∈ phase.events) : event.flow = id ∧ event.tick ≤ now := by
  cases phase with
  | active | suspended =>
      obtain rfl := List.mem_singleton.1 member
      exact dated
  | completed | cancelled =>
      obtain ⟨own, ordered, ended⟩ := dated
      simp only [events, Timeline.completionEvents, Timeline.cancellationEvents, List.mem_cons,
        List.not_mem_nil, or_false] at member
      rcases member with rfl | rfl
      · exact ⟨own, Nat.le_trans ordered ended⟩
      · exact ⟨own, ended⟩

theorem Timeline.filter_flatMap {told : FlowId → List Event}
    (own : ∀ id, ∀ event ∈ told id, event.flow = id) {ids : List FlowId} (distinct : ids.Nodup)
    (id : FlowId) :
    (ids.flatMap told).filter (·.flow = id) = if id ∈ ids then told id else [] := by
  induction ids with
  | nil => rfl
  | cons first ids ih =>
      obtain ⟨fresh, distinct⟩ := List.nodup_cons.1 distinct
      rw [List.flatMap_cons, List.filter_append, ih distinct]
      by_cases here : id = first
      · subst here
        have all : (told id).filter (·.flow = id) = told id := by
          rw [List.filter_eq_self]
          simpa using own id
        simp [all, fresh]
      · have nothing : (told first).filter (·.flow = id) = [] := by
          rw [List.filter_eq_nil_iff]
          intro event member
          simpa [own first event member] using Ne.symm here
        simp [nothing, here]

namespace FlowTable

variable {table : FlowTable σ} {now : Tick}

def told (table : FlowTable σ) (standing : Standing) (id : FlowId) : List Event :=
  (table.find? id).elim [] fun phase => if phase.standing = standing then phase.events else []

theorem flatMap_collect {α : Type} {view : FlowId → Phase σ → Option α} {events : α → List Event}
    (standing : Standing) (sees : ∀ id phase, (view id phase).elim [] events =
      if phase.standing = standing then phase.events else []) :
    (table.collect view).flatMap events =
      (List.range' 1 table.phases.size).flatMap (table.told standing) := by
  rw [collect_eq, List.filterMap_eq_flatMap_toList, List.flatMap_assoc]
  congr 1
  funext id
  unfold told
  cases table.find? id with
  | none => rfl
  | some phase =>
      simp only [Option.bind_some, Option.elim_some, ← sees id phase]
      cases view id phase <;> simp

theorem Dated.filter_collect (dated : table.Dated now) {α : Type}
    {view : FlowId → Phase σ → Option α} {events : α → List Event} (standing : Standing)
    (sees : ∀ id phase, (view id phase).elim [] events =
      if phase.standing = standing then phase.events else []) (id : FlowId) :
    ((table.collect view).flatMap events).filter (·.flow = id) = table.told standing id := by
  have own : ∀ id, ∀ event ∈ table.told standing id, event.flow = id := by
    intro id event member
    unfold told at member
    cases found : table.find? id with
    | none => simp [found] at member
    | some phase =>
        rw [found, Option.elim_some] at member
        split at member
        · exact ((dated id phase found).told member).1
        · simp at member
  rw [flatMap_collect standing sees, Timeline.filter_flatMap own List.nodup_range']
  split
  · rfl
  next outside =>
    cases found : table.find? id with
    | none => simp [told, found]
    | some phase =>
        have bounds := le_size_of_find? found
        exact absurd (List.mem_range'_1.2 (by omega)) outside

end FlowTable

namespace Simulation

open Timeline

variable {sim : Simulation σ} {id : FlowId} {lifetime : Lifetime}

theorem filter_events (dated : sim.flows.Dated sim.now) (id : FlowId) :
    (ofEntities sim.entities).events.filter (·.flow = id) =
      (sim.flows.find? id).elim [] Phase.events := by
  have active : (sim.flows.activeSummaries.flatMap summaryEvents).filter
      (·.flow = id) = sim.flows.told .active id :=
    dated.filter_collect .active (fun _ phase => by cases phase <;> rfl) id
  have suspended : (sim.flows.suspendedSummaries.flatMap fun flow =>
      summaryEvents flow.1).filter (·.flow = id) = sim.flows.told .suspended id :=
    dated.filter_collect .suspended (fun _ phase => by cases phase <;> rfl) id
  have completed : (sim.flows.completedFlows.flatMap completionEvents).filter
      (·.flow = id) = sim.flows.told .completed id :=
    dated.filter_collect .completed (fun _ phase => by cases phase <;> rfl) id
  have cancelled : (sim.flows.cancelledFlows.flatMap cancellationEvents).filter
      (·.flow = id) = sim.flows.told .cancelled id :=
    dated.filter_collect .cancelled (fun _ phase => by cases phase <;> rfl) id
  simp only [ofEntities, ofEvents, entities, List.filter_append, active, suspended, completed,
    cancelled, FlowTable.told]
  cases sim.flows.find? id with
  | none => rfl
  | some phase => cases phase <;> simp [Phase.standing]

theorem mem_lifetimes (dated : sim.flows.Dated sim.now) :
    (id, lifetime) ∈ (ofEntities sim.entities).lifetimes ↔
      ∃ phase, sim.flows.find? id = some phase ∧ phase.lifetime = lifetime := by
  rw [Timeline.mem_lifetimes, filter_events dated]
  cases sim.flows.find? id with
  | none => simp [lifetime?]
  | some phase => simp [Phase.lifetime?_events]

theorem keys_lifetimes (dated : sim.flows.Dated sim.now)
    (present : ∀ id ∈ List.range' 1 sim.flows.phases.size, sim.flows.find? id ≠ none) :
    (ofEntities sim.entities).lifetimes.map Prod.fst = List.range' 1 sim.flows.phases.size := by
  apply List.Pairwise.eq_of_mem_iff (sorted_lifetimes _) List.pairwise_lt_range'
  intro id
  rw [List.mem_map]
  constructor
  · rintro ⟨⟨id, lifetime⟩, member, rfl⟩
    obtain ⟨phase, found, -⟩ := (mem_lifetimes dated).1 member
    have bounds := FlowTable.le_size_of_find? found
    exact List.mem_range'_1.2 (by omega)
  · intro member
    obtain ⟨phase, found⟩ := Option.ne_none_iff_exists'.1 (present id member)
    exact ⟨(id, phase.lifetime), (mem_lifetimes dated).2 ⟨phase, found, rfl⟩, rfl⟩

theorem past_events (dated : sim.flows.Dated sim.now) {event : Event}
    (told : event ∈ (ofEntities sim.entities).events) : event.tick ≤ sim.now := by
  have own : event ∈ (ofEntities sim.entities).events.filter (·.flow = event.flow) :=
    List.mem_filter.2 ⟨told, by simp⟩
  rw [filter_events dated] at own
  cases found : sim.flows.find? event.flow with
  | none => simp [found] at own
  | some phase =>
      rw [found] at own
      exact ((dated event.flow phase found).told own).2

theorem span_ofEntities (dated : sim.flows.Dated sim.now) :
    (ofEntities sim.entities).span = sim.now :=
  span_ofEvents fun _ told => past_events dated told

end Simulation

/-- What a timeline tells of a simulation that has created so many flows since its last reset. -/
structure Timeline.AccountsFor (timeline : Timeline) (sim : Simulation σ) (created : Nat) :
    Prop where
  everyone : timeline.lifetimes.map Prod.fst = List.range' 1 created
  apart : (sim.entities.active.map FlowSummary.id ++
    (sim.entities.suspended.map (fun entry => entry.1.id) ++
      (sim.entities.completed.map Completion.id ++
        sim.entities.cancelled.map Cancellation.id))).Perm (List.range' 1 created)
  active : ∀ flow ∈ sim.entities.active,
    (flow.id, ⟨flow.name, flow.spawnedAt, none⟩) ∈ timeline.lifetimes
  suspended : ∀ entry ∈ sim.entities.suspended,
    (entry.1.id, ⟨entry.1.name, entry.1.spawnedAt, none⟩) ∈ timeline.lifetimes
  completed : ∀ done ∈ sim.entities.completed,
    (done.id, ⟨done.name, done.spawnedAt, some (done.completedAt, .completed)⟩) ∈
      timeline.lifetimes
  cancelled : ∀ lost ∈ sim.entities.cancelled,
    (lost.id, ⟨lost.name, lost.spawnedAt, some (lost.cancelledAt, .cancelled)⟩) ∈
      timeline.lifetimes
  ordered : ∀ entry ∈ timeline.lifetimes, ∀ tick kind,
    entry.2.ending = some (tick, kind) → entry.2.start ≤ tick
  rows : timeline.rows.Perm timeline.lifetimes
  durations : ∀ id n, (id, n) ∈ timeline.durations ↔
    (∃ done ∈ sim.entities.completed, done.id = id ∧ done.spawnedAt + n = done.completedAt) ∨
      ∃ lost ∈ sim.entities.cancelled, lost.id = id ∧ lost.spawnedAt + n = lost.cancelledAt
  span : timeline.span = sim.now
  past : ∀ event ∈ timeline.events, event.tick ≤ sim.now

namespace FlowTable

variable {table : FlowTable σ} {now : Tick}

theorem Dated.owned (dated : table.Dated now) : table.Owned := by
  intro id phase found
  have own := dated id phase found
  cases phase <;> exact own.1

theorem mem_activeSummaries {summary : FlowSummary} : summary ∈ table.activeSummaries ↔
    ∃ id flow, table.find? id = some (.active flow) ∧ flow.summary = summary := by
  unfold activeSummaries
  rw [mem_collect]
  constructor
  · rintro ⟨id, phase, found, seen⟩
    cases phase with
    | active flow => exact ⟨id, flow, found, Option.some.inj seen⟩
    | suspended | completed | cancelled => cases seen
  · rintro ⟨id, flow, found, rfl⟩
    exact ⟨id, _, found, rfl⟩

theorem mem_suspendedSummaries {entry : FlowSummary × Wait} : entry ∈ table.suspendedSummaries ↔
    ∃ id flow wait, table.find? id = some (.suspended flow wait) ∧ (flow.summary, wait) = entry := by
  unfold suspendedSummaries
  rw [mem_collect]
  constructor
  · rintro ⟨id, phase, found, seen⟩
    cases phase with
    | suspended flow wait => exact ⟨id, flow, wait, found, Option.some.inj seen⟩
    | active | completed | cancelled => cases seen
  · rintro ⟨id, flow, wait, found, rfl⟩
    exact ⟨id, _, found, rfl⟩

theorem mem_completedFlows {done : Completion} : done ∈ table.completedFlows ↔
    ∃ id, table.find? id = some (.completed done) := by
  unfold completedFlows
  rw [mem_collect]
  constructor
  · rintro ⟨id, phase, found, seen⟩
    cases phase with
    | completed done => exact ⟨id, Option.some.inj seen ▸ found⟩
    | active | suspended | cancelled => cases seen
  · rintro ⟨id, found⟩
    exact ⟨id, _, found, rfl⟩

theorem mem_cancelledFlows {lost : Cancellation} : lost ∈ table.cancelledFlows ↔
    ∃ id, table.find? id = some (.cancelled lost) := by
  unfold cancelledFlows
  rw [mem_collect]
  constructor
  · rintro ⟨id, phase, found, seen⟩
    cases phase with
    | cancelled lost => exact ⟨id, Option.some.inj seen ▸ found⟩
    | active | suspended | completed => cases seen
  · rintro ⟨id, found⟩
    exact ⟨id, _, found, rfl⟩

end FlowTable

namespace Simulation

open Timeline

variable {sim : Simulation σ} {id n : Nat}

theorem lifetime_mem (dated : sim.flows.Dated sim.now) {phase : Phase σ}
    (found : sim.flows.find? id = some phase) :
    (phase.owner, phase.lifetime) ∈ (ofEntities sim.entities).lifetimes := by
  rw [dated.owned id phase found]
  exact (mem_lifetimes dated).2 ⟨phase, found, rfl⟩

theorem mem_durations (dated : sim.flows.Dated sim.now) :
    (id, n) ∈ (ofEntities sim.entities).durations ↔
      (∃ done ∈ sim.entities.completed, done.id = id ∧ done.spawnedAt + n = done.completedAt) ∨
        ∃ lost ∈ sim.entities.cancelled, lost.id = id ∧ lost.spawnedAt + n = lost.cancelledAt := by
  rw [Timeline.mem_durations]
  constructor
  · rintro ⟨lifetime, tick, kind, member, ended, rfl⟩
    obtain ⟨phase, found, rfl⟩ := (mem_lifetimes dated).1 member
    have own := dated id phase found
    cases phase with
    | active | suspended => cases ended
    | completed done =>
        obtain ⟨rfl, -⟩ := Prod.mk.inj (Option.some.inj ended)
        exact .inl ⟨done, FlowTable.mem_completedFlows.2 ⟨id, found⟩, own.1,
          Nat.add_sub_of_le own.2.1⟩
    | cancelled lost =>
        obtain ⟨rfl, -⟩ := Prod.mk.inj (Option.some.inj ended)
        exact .inr ⟨lost, FlowTable.mem_cancelledFlows.2 ⟨id, found⟩, own.1,
          Nat.add_sub_of_le own.2.1⟩
  · rintro (⟨done, member, rfl, lasts⟩ | ⟨lost, member, rfl, lasts⟩)
    · obtain ⟨id, found⟩ := FlowTable.mem_completedFlows.1 member
      exact ⟨_, _, _, lifetime_mem dated found, rfl, Nat.sub_eq_of_eq_add' lasts.symm⟩
    · obtain ⟨id, found⟩ := FlowTable.mem_cancelledFlows.1 member
      exact ⟨_, _, _, lifetime_mem dated found, rfl, Nat.sub_eq_of_eq_add' lasts.symm⟩

theorem accountsFor (dated : sim.flows.Dated sim.now)
    (present : ∀ id ∈ List.range' 1 sim.flows.phases.size, sim.flows.find? id ≠ none) :
    (ofEntities sim.entities).AccountsFor sim sim.flows.phases.size := by
  constructor
  case everyone => exact keys_lifetimes dated present
  case apart =>
    simp only [entities]
    rw [dated.owned.ids_active, dated.owned.ids_suspended, dated.owned.ids_completed,
      dated.owned.ids_cancelled]
    exact FlowTable.perm_ids present
  case active =>
    intro flow member
    obtain ⟨id, start, found, rfl⟩ := FlowTable.mem_activeSummaries.1 member
    exact lifetime_mem dated found
  case suspended =>
    intro entry member
    obtain ⟨id, flow, wait, found, rfl⟩ := FlowTable.mem_suspendedSummaries.1 member
    exact lifetime_mem dated found
  case completed =>
    intro done member
    obtain ⟨id, found⟩ := FlowTable.mem_completedFlows.1 member
    exact lifetime_mem dated found
  case cancelled =>
    intro lost member
    obtain ⟨id, found⟩ := FlowTable.mem_cancelledFlows.1 member
    exact lifetime_mem dated found
  case ordered =>
    rintro ⟨id, lifetime⟩ member tick kind ended
    obtain ⟨phase, found, rfl⟩ := (mem_lifetimes dated).1 member
    exact (dated id phase found).ordered ended
  case rows => exact rows_perm _
  case durations => exact fun id n => mem_durations dated
  case span => exact span_ofEntities dated
  case past => exact fun event told => past_events dated told

/--
In every session, also after ticks that have failed and after resets, the timeline of the entities
gives each flow since the last reset one lifetime. None ends before it starts, so that no duration
is cut off at zero, and none reaches beyond the clock.
-/
theorem timeline_accounts_for_every_flow [Coroutine σ] (limits : Limits)
    (operations : List (Simulation.Operation σ)) :
    (ofEntities (session limits operations).entities).AccountsFor (session limits operations)
      (Lineage.ofSession limits operations).length := by
  have forest := (Tracked.session_holds limits operations).orders.forest
  have size := forest.size
  have present := forest.present
  rw [Tracked.sim_session] at size present
  rw [Lineage.ofSession, ← size]
  apply accountsFor (session_dated limits operations)
  intro id member
  obtain ⟨first, last⟩ := List.mem_range'_1.1 member
  obtain ⟨phase, found⟩ := present id first (by omega)
  simp [found]

example :
    let sim := session {} (raceOfTwo ++ [.tick])
    (ofEntities sim.entities).durations = [(2, 1), (3, 1)] ∧ sim.now = 1 := by
  decide +kernel

end Simulation

end Cadence
