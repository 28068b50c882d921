import Cadence.Proofs.Scenario.Account
import Cadence.Proofs.Scenario.Install
/-!
Runs of an installed scenario. An account that each tick keeps up holds after every run, with births
that bear out which flows have begun in the ticks so far.
-/

namespace Cadence.Scenario

open FlowTable

/-- The simulation after some ticks, which go on where one has failed. -/
abbrev ran (sim : Simulation Invocation) (n : Nat) : Simulation Invocation :=
  Simulation.tick.after^[n] sim

def Began (sim : Simulation Invocation) (n : Nat) : Beginnings :=
  fun id target args => ∃ k ≤ n, ∃ exchange ∈ (ran sim k).journal, Begins id target args exchange

variable {sim : Simulation Invocation} {scenario : Scenario}

theorem ran_succ (sim : Simulation Invocation) (n : Nat) :
    ran sim (n + 1) = Simulation.tick.after (ran sim n) :=
  Function.iterate_succ_apply' ..

theorem began_succ (sim : Simulation Invocation) (n : Nat) :
    Began sim (n + 1) = (Began sim n).since (ran sim (n + 1)).journal := by
  funext id target args
  refine propext ⟨?_, ?_⟩
  · rintro ⟨k, within, exchange, member, begins⟩
    by_cases last : k = n + 1
    · subst last
      exact .inr ⟨exchange, member, begins⟩
    · exact .inl ⟨k, by omega, exchange, member, begins⟩
  · rintro (⟨k, within, exchange, member, begins⟩ | ⟨exchange, member, begins⟩)
    · exact ⟨k, by omega, exchange, member, begins⟩
    · exact ⟨n + 1, Nat.le_refl _, exchange, member, begins⟩

theorem Beginnings.since_nil (past : Beginnings) : past.since [] = past := by
  funext id target args
  simp [since]

def Told (said : Tick → Statement) (sim : Simulation Invocation) (n : Nat) : Prop :=
  ∃ birth, Fits (said (ran sim n).now) (ran sim n).now (fun _ => none) (Began sim n) birth
    (ran sim n).flows

section Ticks

variable {program : Program} {tick : Tick} {stepped : FlowId → Option Nat} {begun : Beginnings}
  {birth : FlowId → Birth} {table : FlowTable Invocation} {said said' : Statement}

theorem Fits.over (fits : Fits said tick stepped begun birth table)
    (covered : Simulation.Covered stepped table)
    (renews : ∀ id phase, table.find? id = some phase → said birth id phase → said' birth id phase) :
    Fits said' (tick + 1) (fun _ => none) begun birth table where
  known := fits.known
  unstepped _ _ := rfl
  inside := fits.inside
  stems id phase found := by
    have stems := fits.stems id phase found
    cases phase with
    | active flow =>
        refine ⟨stems.1, fun unentered => ?_⟩
        exact ((stems.2 unentered).2 (covered id flow found)).elim
    | suspended flow wait => exact stems
    | completed done => exact stems
    | cancelled gone => exact stems
  said id phase found := renews id phase found (fits.said id phase found)

/-- Accounts for all ticks, each of which leads over to the next. -/
structure Chronicle (program : Program) where
  account : (tick : Tick) → Account program tick
  renews : ∀ {tick birth stepped id phase},
    (∀ flow, phase = .active flow → stepped = some flow.activation) →
      (account tick).holds stepped birth id phase → (account (tick + 1)).holds none birth id phase

abbrev Chronicle.statement (chronicle : Chronicle program) (tick : Tick) : Statement :=
  (chronicle.account tick).holds none

variable {n : Nat} {chronicle : Chronicle program}

theorem Chronicle.ticked (sound : program.Sound) (kept : sound.contract.Kept (ran sim n))
    (told : Told chronicle.statement sim n) :
    Engine.Triple (· = ran sim n) (Simulation.tick (σ := Invocation))
      (fun _ after => after.now = (ran sim n).now + 1 ∧ ∃ birth, Fits (chronicle.statement after.now)
        after.now (fun _ => none) ((Began sim n).since after.journal) birth after.flows)
      (fun _ after => after.now = (ran sim n).now ∧ (chronicle.account (ran sim n).now).Breaks
        (Began sim n) after.flows after.journal) := by
  obtain ⟨birth, fits⟩ := told
  have begun : (chronicle.account (ran sim n).now).Keeps (Began sim n) (fun _ => none)
      (ran sim n).flows [] := by
    refine ⟨birth, ?_⟩
    rw [Beginnings.since_nil]
    exact fits
  have ticked := Simulation.tick_upkeep
    ((chronicle.account (ran sim n).now).upkeep sound (Began sim n)) kept begun
  intro before same
  have ticked := ticked before same
  cases done : Simulation.tick before with
  | ok report after =>
      rw [done] at ticked
      obtain ⟨⟨-, now⟩, stepped, ⟨birth, fits⟩, covered⟩ := ticked
      refine ⟨now, birth, ?_⟩
      rw [now]
      refine fits.over covered fun id phase found holds => chronicle.renews ?_ holds
      rintro flow rfl
      exact covered id flow found
  | error e after =>
      rw [done] at ticked
      exact ⟨ticked.now, ticked.fails⟩

def Chronicle.Outlasts (chronicle : Chronicle program) (sim : Simulation Invocation) : Prop :=
  (∃ report after, Simulation.tick sim = .ok report after) ∨
    ∀ birth id phase, (chronicle.account sim.now).breaks birth id phase →
      chronicle.statement sim.now birth id phase

theorem Chronicle.told_succ (sound : program.Sound) (kept : sound.contract.Kept (ran sim n))
    (told : Told chronicle.statement sim n) (outlasts : chronicle.Outlasts (ran sim n)) :
    Told chronicle.statement sim (n + 1) := by
  have ticked := Chronicle.ticked sound kept told _ rfl
  have later : ran sim (n + 1) = Simulation.tick.after (ran sim n) := ran_succ sim n
  unfold Told
  rw [began_succ, later, Engine.after]
  cases done : Simulation.tick (ran sim n) with
  | ok report after =>
      rw [done] at ticked
      exact ticked.2
  | error e after =>
      rw [done] at ticked
      obtain ⟨now, birth, fits⟩ := ticked
      rcases outlasts with ⟨report, after', succeeds⟩ | mild
      · rw [succeeds] at done
        cases done
      · refine ⟨birth, ?_⟩
        simp only [now]
        exact ⟨fits.known, fits.unstepped, fits.inside, fits.stems, fun id phase found =>
          mild birth id phase (fits.said id phase found)⟩

theorem Chronicle.told (sound : program.Sound) {lineage : Lineage}
    (holds : sound.contract.Holds ⟨sim, lineage⟩) (begun : Told chronicle.statement sim 0)
    (outlasts : ∀ k < n, chronicle.Outlasts (ran sim k)) : Told chronicle.statement sim n := by
  induction n with
  | zero => exact begun
  | succ n ih =>
      have earlier := ih fun k before => outlasts k (by omega)
      exact chronicle.told_succ sound (holds.ticks n) earlier (outlasts n (Nat.lt_succ_self n))

end Ticks

structure Unstepped (sim : Simulation Invocation) : Prop where
  now : sim.now = 0
  journal : sim.journal = []
  replay : sim.replay = {}
  flows : ∀ id phase, sim.flows.find? id = some phase →
    ∃ recipe, phase = .active (.ofRecipe id recipe none false 0)

theorem Unstepped.start {done : Installation Invocation} (unstepped : Unstepped done.simulation)
    (launch : Launch) (recipe : Recipe Invocation) :
    Unstepped (launch.start recipe done).simulation := by
  cases launch with
  | entry number call =>
      refine ⟨unstepped.now, unstepped.journal, unstepped.replay, fun id phase found => ?_⟩
      have found : (done.simulation.flows.create recipe none false done.simulation.now).2.find? id =
          some phase := found
      rw [find?_create, unstepped.now] at found
      split at found
      next last =>
        subst last
        exact ⟨recipe, (Option.some.inj found).symm⟩
      next => exact unstepped.flows id phase found
  | timer t => exact ⟨unstepped.now, unstepped.journal, unstepped.replay, unstepped.flows⟩
  | interval i => exact ⟨unstepped.now, unstepped.journal, unstepped.replay, unstepped.flows⟩

theorem Unstepped.launchAll {done : Installation Invocation} (unstepped : Unstepped done.simulation)
    (launches : List Launch) : Unstepped (scenario.launchAll id launches done).simulation := by
  induction launches generalizing done with
  | nil => exact unstepped
  | cons launch launches ih =>
      unfold Scenario.launchAll
      simp only
      split
      · exact unstepped
      next service method known =>
        split
        · exact unstepped
        · exact ih (Unstepped.start (by exact unstepped) launch _)

theorem unstepped_install (scenario : Scenario) (limits : Limits) :
    Unstepped (scenario.install id (Simulation.withLimits limits)).simulation := by
  have services := (installServices_spec scenario.services
    (Simulation.withLimits (σ := Invocation) limits)).2.1
  have effects := registerEffects_grows scenario.effects
    (installServices scenario.services (Simulation.withLimits (σ := Invocation) limits)).2
  have grows := services.trans effects
  refine Unstepped.launchAll ⟨grows.now, grows.journal, grows.replay, fun id phase found => ?_⟩
    scenario.launches
  rw [grows.flows] at found
  cases (@find?_empty Invocation id).symm.trans found

theorem Unstepped.told {program : Program} {chronicle : Chronicle program}
    (unstepped : Unstepped sim) : Told chronicle.statement sim 0 := by
  let nobody : Birth := ⟨⟨⟨"", "", [], []⟩, 0, { name := "" }⟩, [], 0⟩
  have nothing : Fits (chronicle.statement 0) 0 (fun _ => none) (fun _ _ _ => False) (fun _ => nobody)
      ({} : FlowTable Invocation) := by
    refine ⟨fun _ _ _ => False.elim, fun _ _ => rfl, fun id phase found => ?_,
      fun id phase found => ?_, fun id phase found => ?_⟩
    all_goals cases (@find?_empty Invocation id).symm.trans found
  have began : Began sim 0 = fun _ _ _ => False := by
    funext id target args
    refine propext ⟨?_, False.elim⟩
    rintro ⟨k, within, exchange, member, -⟩
    obtain rfl : k = 0 := by omega
    have member : exchange ∈ sim.journal := member
    rw [unstepped.journal] at member
    cases member
  unfold Told
  show ∃ birth, Fits (chronicle.statement sim.now) sim.now (fun _ => none) (Began sim 0) birth sim.flows
  rw [began, unstepped.now]
  refine ⟨_, Account.fits_grown nothing (Nat.zero_le _) (fun other inside => ?_)
    fun other phase _ found => ?_⟩
  · have none : other = 0 := Nat.le_zero.1 inside
    subst none
    rfl
  · obtain ⟨recipe, rfl⟩ := unstepped.flows other phase found
    exact ⟨recipe, _, _, rfl⟩

end Cadence.Scenario
