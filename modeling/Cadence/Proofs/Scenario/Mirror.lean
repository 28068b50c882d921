import Cadence.Proofs.Scenario.Install
import Cadence.Proofs.Scenario.WellFormed
import Cadence.Proofs.Simulation.Film
/-!
# Frames and stacks

An invocation keeps its own frames, and the engine keeps a stack of records for the flow. The two
are never compared while they run, but between any two steps one mirrors the other. What the frames
have left to do only refers to variables that they have, or whose values are on their way.
-/

namespace Cadence

variable {σ : Type}

def Flow.Pends (flow : Flow σ) (operation : Operation) : Prop :=
  ∃ top ∈ flow.stack.records.head?, operation ∈ top.operations

namespace Scenario

/-- The instructions refer to a variable before any of them binds it. -/
def Needs (body : List Instruction) (name : String) : Prop :=
  ∃ before instruction after, body = before ++ instruction :: after ∧
    (∃ value ∈ instruction.values, value.Mentions name) ∧ ∀ earlier ∈ before, ¬ earlier.Binds name

/-- The frames of a flow's invocation are those on its stack. The innermost frame is unloaded while
its value is to be returned, and no other is. What a frame needs it has, unless it comes from a call
or an await in progress: a call where there is a frame above, an await while the flow is suspended or
the awaited value is to be handed over. -/
structure Mirrored (flow : Flow Invocation) (suspended : Prop) : Prop where
  frames : flow.stack.openFrames = flow.coroutine.frames.reverse.map Frame.address
  callers : ∀ frame ∈ flow.coroutine.frames.tail, frame.unloaded = false
  unloaded : (∃ frame ∈ flow.coroutine.frames.head?, frame.unloaded = true) ↔
    flow.Pends .provideReturnAndPop
  needs : ∀ frame ∈ flow.coroutine.frames, ∀ name, Needs frame.rest name →
    name ∈ frame.locals.keys ∨ frame.pendingBind = some name
  waits : ∀ place frame, flow.coroutine.frames[place]? = some frame → frame.pendingBind ≠ none →
    0 < place ∨ suspended ∨ ∃ value, flow.Pends (.provideGiven value)

variable {program : Program} {records below : List Record} {top : Record} {frame : Frame}
  {frames : List Frame} {run : Invocation} {flow : Flow Invocation} {suspended : Prop}

theorem needs_bound {reaches : Call → Prop} {bound : List String} {body : List Instruction}
    (scope : ScopedBody reaches bound body) {name : String} (needs : Needs body name) :
    name ∈ bound := by
  obtain ⟨before, instruction, after, split, ⟨value, inside, mentions⟩, unbound⟩ := needs
  obtain ⟨-, -, binds⟩ := scopedBody_iff.1 scope
  cases binds before instruction after split value inside name mentions with
  | inl given => exact given
  | inr earlier =>
      obtain ⟨earlier, member, bound⟩ := earlier
      exact absurd bound (unbound earlier member)

theorem Frame.Waits.needs (waits : frame.Waits program) {name : String}
    (needs : Needs frame.rest name) :
    name ∈ frame.locals.keys ∨ frame.pendingBind = some name := by
  cases List.mem_append.1 (needs_bound waits.body needs) with
  | inl pending => exact .inr (Option.mem_toList.1 pending)
  | inr here => exact .inl here

theorem Callers.addresses (callers : Callers program records frames) :
    records.filterMap Record.frame? = frames.map Frame.address := by
  induction callers with
  | entry place => rw [List.filterMap_cons_none place, List.filterMap_nil, List.map_nil]
  | frame place waits callers ih => rw [List.filterMap_cons_some place, List.map_cons, ih]

theorem Callers.waits (callers : Callers program records frames) :
    ∀ frame ∈ frames, frame.Waits program := by
  induction callers with
  | entry place => simp
  | frame place waits callers ih => exact List.forall_mem_cons.2 ⟨waits, ih⟩

theorem Flow.openFrames_eq (flow : Flow σ) : flow.stack.openFrames =
    (flow.stack.records.filterMap Record.frame?).reverse :=
  List.filterMap_reverse ..

theorem Flow.pends_iff {flow : Flow σ} (stacked : flow.stack.records = top :: below)
    {operation : Operation} : flow.Pends operation ↔ operation ∈ top.operations := by
  simp [Flow.Pends, stacked]

theorem Mirrors.mirrored (mirrors : Mirrors program top below frame flow.coroutine)
    (stacked : flow.stack.records = top :: below)
    (unloaded : frame.unloaded = true ↔ .provideReturnAndPop ∈ top.operations)
    (needs : ∀ name, Needs frame.rest name → name ∈ frame.locals.keys ∨ frame.pendingBind = some name)
    (waits : frame.pendingBind ≠ none →
      suspended ∨ ∃ value, .provideGiven value ∈ top.operations) : Mirrored flow suspended := by
  obtain ⟨-, place, frames, entered, callers⟩ := mirrors
  constructor
  · rw [Flow.openFrames_eq, stacked, List.filterMap_cons_some place, callers.addresses, entered,
      List.map_reverse, List.map_cons]
  · intro caller member
    rw [entered] at member
    exact (callers.waits caller member).loaded
  · simpa [Flow.pends_iff stacked, entered] using unloaded
  · rw [entered]
    exact List.forall_mem_cons.2 ⟨needs, fun caller member name =>
      (callers.waits caller member).needs⟩
  · intro place caller here pending
    cases place with
    | succ place => exact .inl place.succ_pos
    | zero =>
        obtain rfl : frame = caller := by simpa [entered] using here
        simpa only [Flow.pends_iff stacked] using Or.inr (waits pending)

theorem Running.mirrored (running : Running program flow.stack.records flow.coroutine) :
    Mirrored flow False := by
  generalize stacked : flow.stack.records = records at running
  generalize resumed : flow.coroutine = run at running
  cases running with
  | @entry record _ place pending starts =>
      -- No method has been entered yet, and only the spawner's record is there.
      obtain ⟨target, within, rfl⟩ := starts
      constructor
      · rw [Flow.openFrames_eq, stacked, List.filterMap_cons_none place, resumed]
        rfl
      · simp [resumed]
      · simp [Flow.pends_iff stacked, pending, resumed]
      · simp [resumed]
      · simp [resumed]
  | @loaded top below frame _ mirrors expects =>
      subst resumed
      rcases expects with ⟨idle, ready⟩ | ⟨⟨value, given⟩, waits⟩ | ⟨returned, left⟩
      · apply mirrors.mirrored stacked
        · simp [ready.loaded, idle]
        · exact fun name => ready.needs
        · exact fun pending => absurd ready.unbound pending
      · apply mirrors.mirrored stacked
        · simp [waits.loaded, given]
        · exact fun name => waits.needs
        · exact fun _ => .inr ⟨value, by simp [given]⟩
      · apply mirrors.mirrored stacked
        · simp [left.unloaded, returned]
        · exact fun name needs => .inl (needs_bound left.body needs)
        · exact fun pending => absurd left.unbound pending

theorem Parked.mirrored (parked : Parked program flow.stack.records flow.coroutine)
    (still : Stack.Parked flow.stack.records) : Mirrored flow True := by
  generalize stacked : flow.stack.records = records at parked still
  generalize resumed : flow.coroutine = run at parked
  cases parked with
  | @loaded top below frame _ mirrors waits =>
      subst resumed
      have idle : top.operations = [] := still.idle top (List.mem_cons_self ..)
      apply mirrors.mirrored stacked
      · simp [waits.loaded, idle]
      · exact fun name => waits.needs
      · exact fun _ => .inl trivial

theorem Mirrored.imp {suspended' : Prop} (mirrored : Mirrored flow suspended)
    (implies : suspended → suspended') : Mirrored flow suspended' where
  frames := mirrored.frames
  callers := mirrored.callers
  unloaded := mirrored.unloaded
  needs := mirrored.needs
  waits place frame here pending :=
    (mirrored.waits place frame here pending).imp_right (Or.imp_left implies)

theorem mirrored_of_kept {sound : program.Sound} {sim : Simulation Invocation}
    (kept : sound.contract.Kept sim) {id : FlowId} (live : sim.flows.live? id = some flow) :
    Mirrored flow (∃ wait, sim.flows.find? id = some (.suspended flow wait)) := by
  obtain ⟨lineage, holds⟩ := kept
  cases FlowTable.live?_eq_some.1 live with
  | inl active =>
      have admitted := holds.orders.admits id _ active
      exact (Running.mirrored admitted.running).imp False.elim
  | inr suspended =>
      obtain ⟨wait, suspended⟩ := suspended
      have admitted := holds.orders.admits id _ suspended
      exact (Parked.mirrored admitted.parked admitted.still).imp fun _ => ⟨wait, suspended⟩

/-- What holds between the steps of a run of ticks, seen on a film that has every step and ends where
the run ends. -/
structure StaysMirrored (sim : Simulation Invocation) (run : List Limits) : Prop where
  last : (sim.film run).getLast? = some (sim.afterRun run)
  complete : ∀ before limits, before ++ [limits] <+: run → ∃ pictures, pictures <:+: sim.film run ∧
    List.Forall₂ Filmed.Precedes pictures (sim.afterRun (before ++ [limits])).journal.reverse
  mirrored : ∀ picture ∈ sim.film run, ∀ id flow, picture.flows.live? id = some flow →
    Mirrored flow (∃ wait, picture.flows.find? id = some (.suspended flow wait))

theorem frames_mirror_stacks {scenario : Scenario} (valid : scenario.isValid = true)
    (limits : Limits) (run : List Limits) :
    let installed := scenario.install id (Simulation.withLimits limits)
    installed.failure = none ∧ StaysMirrored installed.simulation run := by
  obtain ⟨fine, sound, lineage, holds⟩ := (sound_of_isValid valid).install_spec limits
  have kept : sound.contract.Kept _ := ⟨lineage, holds⟩
  exact ⟨fine, {
    last := Simulation.film_getLast? _ run
    complete := fun before limits => Simulation.film_complete kept
    mirrored := by
      intro picture seen id flow live
      exact mirrored_of_kept (Simulation.film_kept kept run picture seen) live }⟩

theorem frames_mirror_stacks_on_the_clock :
    let installed := raceOnTheClock.install id (Simulation.withLimits {})
    raceOnTheClock.isValid = true ∧ installed.failure = none ∧
      StaysMirrored installed.simulation [{}, {}, { rounds := 9, steps := 2 }, {}, {}] :=
  ⟨by decide, frames_mirror_stacks (by decide) _ _⟩

end Scenario

end Cadence
