import Cadence.Proofs.Simulation.Rounds
/-!
When flows begin and end. Whatever operations a simulation goes through, no flow is dated later
than the clock and none ends before it has begun. A tick that is broken off leaves the clock where
it stood, which is where the tick has dated what it did by then.
-/

namespace Cadence

variable {σ : Type}

def Phase.Dated (now : Tick) (id : FlowId) : Phase σ → Prop
  | active flow | suspended flow _ => flow.id = id ∧ flow.spawnedAt ≤ now
  | completed done => done.id = id ∧ done.spawnedAt ≤ done.completedAt ∧ done.completedAt ≤ now
  | cancelled cancellation => cancellation.id = id ∧
      cancellation.spawnedAt ≤ cancellation.cancelledAt ∧ cancellation.cancelledAt ≤ now

theorem Phase.Dated.later {phase : Phase σ} {now now' : Tick} {id : FlowId}
    (dated : phase.Dated now id) (later : now ≤ now') : phase.Dated now' id := by
  cases phase with
  | active | suspended => exact ⟨dated.1, Nat.le_trans dated.2 later⟩
  | completed | cancelled => exact ⟨dated.1, dated.2.1, Nat.le_trans dated.2.2 later⟩

namespace FlowTable

variable {table after : FlowTable σ} {tick : Tick} {id : Nat} {old flow : Flow σ}

def Dated (table : FlowTable σ) (now : Tick) : Prop :=
  ∀ id phase, table.find? id = some phase → phase.Dated now id

theorem dated_empty (now : Tick) : ({} : FlowTable σ).Dated now := by
  intro id phase found
  rw [show ({} : FlowTable σ).find? id = none from find?_empty] at found
  cases found

theorem Dated.create (dated : table.Dated tick) (recipe : Recipe σ) (caller : Option Address)
    (isDependency : Bool) : (table.create recipe caller isDependency tick).2.Dated tick := by
  intro other phase found
  rw [find?_create] at found
  split at found
  · obtain rfl := Option.some.inj found
    exact ⟨rfl, Nat.le_refl tick⟩
  · exact dated other phase found

theorem Dated.put (dated : table.Dated tick) (found : table.find? id = some (.active old))
    {phase : Phase σ} (own : phase.Dated tick id) : (table.put id (some phase)).Dated tick := by
  intro other phase' found'
  rw [find?_put found] at found'
  split at found'
  next same =>
    obtain rfl := Option.some.inj found'
    exact same ▸ own
  next => exact dated other phase' found'

theorem Dated.awaiting (dated : table.Dated tick) (found : table.find? id = some (.active old))
    (own : flow.id = id ∧ flow.spawnedAt ≤ tick) (request : Request σ) (caller : Address) :
    (table.awaiting id flow request caller tick).Dated tick := by
  intro other phase found'
  rcases awaiting_cases found flow request caller tick other with
    ⟨rfl, wait, here⟩ | ⟨-, same⟩ | ⟨-, recipe, fresh⟩
  · obtain rfl := Option.some.inj (here.symm.trans found')
    exact own
  · exact dated other phase (same ▸ found')
  · obtain rfl := Option.some.inj (fresh.symm.trans found')
    exact ⟨rfl, Nat.le_refl tick⟩

theorem Dated.completing (dated : table.Dated tick) (found : table.find? id = some (.active old))
    {done : Completion} (own : (Phase.completed done : Phase σ).Dated tick id) :
    (table.completing id done).Dated tick := by
  intro other phase found'
  exact dated.put found own other phase found'

theorem Dated.settled (dated : table.Dated tick) (settled : Settled table tick after) :
    after.Dated tick := by
  refine settled.forall_phases dated (fun id flow parent caller live => ?_)
    fun id flow wait value released stack found _ _ _ =>
      show (Phase.suspended flow wait).Dated tick id from dated id _ found
  obtain ⟨own, begun⟩ : flow.id = id ∧ flow.spawnedAt ≤ tick := by
    rcases live?_eq_some.1 live with active | ⟨wait, suspended⟩
    · exact dated id _ active
    · exact dated id _ suspended
  exact ⟨own, begun, Nat.le_refl tick⟩

end FlowTable

section Turns

open FlowTable Contract

variable {before after : FlowTable σ} {tick : Tick} {id : Nat} {start : Flow σ}
  {journal : List (Exchange σ)} {keeps : Option (Boundary σ) → Flow σ → List (Exchange σ) → Prop}

theorem Flow.Kin.dated {flow : Flow σ} (kin : start.Kin flow)
    (own : start.id = id ∧ start.spawnedAt ≤ tick) : flow.id = id ∧ flow.spawnedAt ≤ tick := by
  rw [kin.id, kin.spawnedAt]
  exact own

theorem Contract.Turn.dated (turn : Turn keeps tick id start journal before after)
    (dated : before.Dated tick) (found : before.find? id = some (.active start)) :
    after.Dated tick := by
  have own : start.id = id ∧ start.spawnedAt ≤ tick := dated id _ found
  cases turn with
  | halted kin => exact dated.put found (kin.dated own)
  | waiting kin kept shapely resolved =>
      exact (dated.awaiting found (kin.dated own) _ _).settled (resolve_ok resolved).1
  | completed kin kept resolved =>
      exact (dated.completing found ⟨rfl, own.2, Nat.le_refl tick⟩).settled (resolve_ok resolved).1

theorem Contract.BrokenTurn.dated (broken : BrokenTurn keeps id start journal before after)
    (dated : before.Dated tick) (found : before.find? id = some (.active start)) :
    after.Dated tick := by
  have own : start.id = id ∧ start.spawnedAt ≤ tick := dated id _ found
  cases broken with
  | stopped kin => exact dated.put found (kin.dated own)
  | refused kin => exact dated.put found (kin.dated own)

end Turns

namespace Simulation

open Contract

variable [Coroutine σ] {sim : Simulation σ}

theorem upkeep_dated (contract : Contract σ) (tick : Tick) :
    contract.Upkeep tick (fun _ table _ => table.Dated tick) fun table _ => table.Dated tick where
  spawn _ dated _ := dated.create _ none false
  turn := by
    rintro stepped sim id flow ⟨lineage, holds⟩ dated found -
    have turn := process_turn holds found (contract.steady_any tick) trivial
    cases done : process id tick sim with
    | ok reports after =>
        rw [done] at turn
        exact turn.1.dated dated found
    | error e after =>
        rw [done] at turn
        exact turn.1.dated dated found
  pass dated _ _ _ := dated
  stop dated := dated

theorem tick_dated {contract : Contract σ} (kept : contract.Kept sim)
    (dated : sim.flows.Dated sim.now) :
    (tick.after sim).flows.Dated (tick.after sim).now := by
  have ticked := tick_upkeep (upkeep_dated contract sim.now) kept dated sim rfl
  unfold Engine.after
  cases done : tick sim with
  | ok report after =>
      rw [done] at ticked
      obtain ⟨⟨-, now⟩, -, dated', -⟩ := ticked
      intro id phase found
      exact (dated' id phase found).later (now ▸ Nat.le_succ _)
  | error e after =>
      rw [done] at ticked
      exact ticked.now ▸ ticked.fails

theorem Operation.apply_dated {contract : Contract σ} (operation : Simulation.Operation σ)
    (kept : contract.Kept sim) (dated : sim.flows.Dated sim.now) :
    (operation.apply sim).flows.Dated (operation.apply sim).now := by
  cases operation with
  | spawn recipe => exact dated.create recipe none false
  | tick => exact tick_dated kept dated
  | reset | resetStacks => exact FlowTable.dated_empty 0
  | register | setNode | timer | interval | addEffect | setLimits | flush => exact dated

theorem session_dated (limits : Limits) (operations : List (Simulation.Operation σ)) :
    (session limits operations).flows.Dated (session limits operations).now := by
  have each (operation : Simulation.Operation σ) (tracked : Tracked σ)
      (holds : (Contract.any σ).Holds tracked ∧ tracked.sim.flows.Dated tracked.sim.now) :
      (operation.follow tracked).sim = operation.apply tracked.sim ∧
        (Contract.any σ).Holds (operation.follow tracked) ∧
          (operation.follow tracked).sim.flows.Dated (operation.follow tracked).sim.now := by
    refine ⟨operation.sim_follow tracked, operation.follow_holds holds.1, ?_⟩
    rw [operation.sim_follow]
    exact operation.apply_dated ⟨tracked.lineage, holds.1⟩ holds.2
  have start : (Contract.any σ).Holds ⟨withLimits limits, []⟩ ∧
      (withLimits limits : Simulation σ).flows.Dated 0 :=
    ⟨Contract.holds_of_empty _ rfl rfl trivial, FlowTable.dated_empty 0⟩
  obtain ⟨same, -, dated⟩ := foldl_beside each operations start
  rw [session, ← same]
  exact dated

end Simulation

end Cadence
