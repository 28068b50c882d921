import Cadence.Proofs.Scenario.Sleep
import Cadence.Proofs.Scenario.Timing
import Cadence.Proofs.Simulation.Reporting
/-!
A sleep of some ticks says so in as many ticks in a row, counting them, and the instruction after it
comes in the tick after the last of them, unless the flow is cancelled before.
-/

namespace Cadence.Scenario

variable {program : Program}

structure Sleep where
  flow : FlowId
  ticks : Nat
  woken : Frame
  callers : List Frame

/-- The sleep that an exchange is a part of, and how many ticks of it have passed before. -/
def sleep? (exchange : Exchange Invocation) : Option (Sleep × Nat) :=
  match (Config.ofExchange exchange).front with
  | [] => none
  | frame :: callers =>
    match frame.rest.dropWhile Instruction.isPause with
    | .sleep ticks :: rest =>
      some (⟨exchange.flow, ticks, { frame with slept := 0, rest }, callers⟩, frame.slept)
    | _ => none

def Sleep.asleep (sleep : Sleep) (passed : Nat) : Frame :=
  if passed < sleep.ticks then
    { sleep.woken with slept := passed, rest := .sleep sleep.ticks :: sleep.woken.rest }
  else sleep.woken

theorem sleep?_eq_some {exchange : Exchange Invocation} {sleep : Sleep} {passed : Nat} :
    sleep? exchange = some (sleep, passed) ↔ ∃ frame rest,
      (Config.ofExchange exchange).Sleeps frame sleep.callers sleep.ticks rest ∧
        sleep.flow = exchange.flow ∧ sleep.woken = { frame with slept := 0, rest } ∧
        frame.slept = passed := by
  unfold sleep?
  constructor
  · intro found
    split at found
    · cases found
    next frame callers front =>
      split at found
      next ticks rest left =>
        obtain ⟨rfl, rfl⟩ := Prod.mk.inj (Option.some.inj found)
        exact ⟨frame, rest, ⟨front, left⟩, rfl, rfl, rfl⟩
      next => cases found
  · rintro ⟨frame, rest, ⟨front, left⟩, flow, woken, rfl⟩
    simp only [front, left, ← flow, ← woken]

theorem Sleep.asleep_succ {sleep : Sleep} {frame : Frame} {rest : List Instruction}
    (woken : sleep.woken = { frame with slept := 0, rest }) :
    frame.doze sleep.ticks rest = sleep.asleep (frame.slept + 1) := by
  unfold Frame.doze Sleep.asleep
  by_cases unfinished : frame.slept + 1 < sleep.ticks
  · rw [if_pos unfinished, if_pos unfinished, woken]
  · rw [if_neg unfinished, if_neg unfinished, woken]

theorem sleep?_of_asleep {exchange : Exchange Invocation} {sleep : Sleep} {passed : Nat}
    (own : exchange.flow = sleep.flow) (proceeds : exchange.input = .proceed)
    (frames : exchange.state.frames = sleep.asleep passed :: sleep.callers)
    (unfinished : passed < sleep.ticks) (rests : sleep.woken.slept = 0) :
    sleep? exchange = some (sleep, passed) := by
  rw [Sleep.asleep, if_pos unfinished] at frames
  have busy : Instruction.isPause (.sleep sleep.ticks) = false := by
    cases ticks : sleep.ticks with
    | zero => omega
    | succ n => rfl
  refine sleep?_eq_some.2 ⟨{ sleep.woken with
    slept := passed, rest := .sleep sleep.ticks :: sleep.woken.rest }, sleep.woken.rest, ⟨?_, ?_⟩,
    own.symm, ?_, rfl⟩
  · simp only [Config.ofExchange, proceeds, Config.handed, Config.front, frames]
  · exact List.dropWhile_cons_of_neg (by simp [busy])
  · rw [← rests]

section Runs

variable {sound : program.Sound} {sim : Simulation Invocation} {exchange : Exchange Invocation}
  {sleep : Sleep} {passed k n : Nat}

def produced (sim : Simulation Invocation) (k : Nat) (id : FlowId) : List Response :=
  (Engine.after Watched.probe.tick (⟨ran sim k, [], []⟩ : Watched Invocation)).responses id

structure Sleep.Halts (sleep : Sleep) (sim : Simulation Invocation) (passed k : Nat) : Prop where
  goesOn : ∃ exchange ∈ (ran sim (k + 1)).journal, sleep? exchange = some (sleep, passed)
  said : (produced sim k sleep.flow).getLast? =
    some { traffic := .halt sleep.woken.address (passed + 1) sleep.ticks, tick := k }

structure Sleep.Gone (sleep : Sleep) (sim : Simulation Invocation) (k : Nat) : Prop where
  silent : (ran sim (k + 1)).exchanges sleep.flow = []
  cancelled : ∃ gone, (ran sim (k + 1)).flows.find? sleep.flow = some (.cancelled gone)

def Sleep.Wakes (sleep : Sleep) (sim : Simulation Invocation) (k : Nat) : Prop :=
  ∃ exchange, ((ran sim (k + 1)).exchanges sleep.flow).head? = some exchange ∧
    exchange.input = .proceed ∧ exchange.state.frames = sleep.woken :: sleep.callers

/-- The sleep that began in that tick takes its time, as far as the run goes. -/
structure Sleep.Lasts (sleep : Sleep) (sim : Simulation Invocation) (n start : Nat) : Prop where
  halts : ∀ passed < sleep.ticks, start + passed < n →
    sleep.Halts sim passed (start + passed) ∨ sleep.Gone sim (start + passed)
  wakes : start + sleep.ticks < n →
    sleep.Wakes sim (start + sleep.ticks) ∨ sleep.Gone sim (start + sleep.ticks)

structure Ticks (sound : program.Sound) (sim : Simulation Invocation) (k : Nat) : Prop where
  now : (ran sim k).now = k
  complete : Diary.Complete sound.restful (ran sim k) (ran sim (k + 1)) (produced sim k)
  gone : ∀ id gone, (ran sim k).flows.find? id = some (.cancelled gone) →
    (ran sim (k + 1)).flows.find? id = some (.cancelled gone)

theorem ticks_of_succeeds (unstepped : Unstepped sim) {lineage : Lineage}
    (holds : sound.restful.Holds ⟨sim, lineage⟩)
    (succeeds : Succeeds sim n) (k : Nat) (within : k < n) : Ticks sound sim k := by
  have kept (k : Nat) : sound.restful.Kept (ran sim k) := holds.ticks k
  have now (k : Nat) (within : k ≤ n) : (ran sim k).now = k := by
    induction k with
    | zero => exact unstepped.now
    | succ k ih =>
        obtain ⟨report, after, done⟩ := succeeds k within
        rw [ran_succ, Engine.after, done, Simulation.tick_now (kept k) done,
          ih (Nat.le_of_succ_le within)]
  obtain ⟨report, after, done⟩ := succeeds k within
  obtain ⟨watched, watch, -, complete⟩ := Simulation.tick_complete (kept k) done
  have later : ran sim (k + 1) = after := by
    rw [ran_succ, Engine.after, done]
  have reported := (Simulation.tick_reports (kept k) (.notActive 0)).2
  rw [done] at reported
  obtain ⟨completions, accounts⟩ := reported
  refine ⟨now k (Nat.le_of_lt within), ?_, fun id gone cancelled => ?_⟩
  · have said : produced sim k = watched.responses := by
      funext id
      rw [produced, Engine.after, watch]
    rw [later, said]
    exact complete
  · rw [later]
    exact FlowTable.cancelled?_eq_some.1
      (accounts.cancellations.kept id gone (FlowTable.cancelled?_eq_some.2 cancelled))

inductive Sleep.Left (sleep : Sleep) (passed : Nat) (table : FlowTable Invocation) : Prop
  | asleep {flow : Flow Invocation} (found : table.find? sleep.flow = some (.active flow))
      (frames : flow.coroutine.frames = sleep.asleep passed :: sleep.callers)
      (wakes : ∃ popped taken, flow.takeInput = .ok (.proceed, popped, taken))
  | gone {gone : Cancellation} (found : table.find? sleep.flow = some (.cancelled gone))

theorem mem_exchanges {id : FlowId} :
    exchange ∈ sim.exchanges id ↔ exchange ∈ sim.journal ∧ exchange.flow = id := by
  simp [Simulation.exchanges]

theorem Ticks.halts (ticks : Ticks sound sim k) (member : exchange ∈ (ran sim (k + 1)).journal)
    (known : sleep? exchange = some (sleep, passed)) : passed < sleep.ticks ∧
      sleep.Halts sim passed k ∧ sleep.Left (passed + 1) (ran sim (k + 1)).flows := by
  obtain ⟨frame, rest, sleeps, flow, woken, rfl⟩ := sleep?_eq_some.1 known
  have listed : exchange ∈ (ran sim (k + 1)).exchanges sleep.flow := mem_exchanges.2 ⟨member, flow.symm⟩
  have entry := ticks.complete.entry sleep.flow
  obtain ⟨boundary, next, advances⟩ := advances_of_gives (entry.gives exchange listed)
  obtain ⟨less, halts, frames⟩ := advances.sleep sleeps
  rw [Sleep.asleep_succ woken] at frames
  rw [ticks.now] at halts entry
  have address : sleep.woken.address = frame.address := by rw [woken]
  obtain ⟨past, recorded, said⟩ : ∃ past, (ran sim (k + 1)).exchanges sleep.flow = past ++ [exchange] ∧
      (produced sim k sleep.flow).getLast? =
        some { traffic := .halt sleep.woken.address (frame.slept + 1) sleep.ticks, tick := k } := by
    generalize (ran sim (k + 1)).exchanges sleep.flow = turn at listed entry
    have voiced := entry.voiced
    generalize produced sim k sleep.flow = responses at voiced
    cases voiced with
    | awake awake => simp [awake.asked exchange listed] at halts
    | @asleep past last front halt awake halts' =>
        rcases List.mem_append.1 listed with earlier | here
        · simp [awake.asked exchange earlier] at halts
        · obtain rfl := List.mem_singleton.1 here
          obtain rfl := Option.some.inj (halts.symm.trans halts')
          exact ⟨past, rfl, by rw [List.getLast?_concat, address]⟩
  refine ⟨less, ⟨⟨exchange, member, known⟩, said⟩, ?_⟩
  rcases ticks.complete.sleeps _ past exchange _ recorded (ticks.now.symm ▸ halts) with
    ⟨later, found⟩ | ⟨gone, found⟩
  · obtain ⟨⟨past', last, halt, same, -, next⟩, wakes⟩ := ticks.complete.dozes _ later found
    obtain rfl := List.singleton_inj.1 (List.append_inj' (recorded.symm.trans same) rfl).2
    exact .asleep found (next ▸ frames) wakes
  · exact .gone found

theorem Sleep.Left.next (left : sleep.Left passed (ran sim k).flows) (ticks : Ticks sound sim k) :
    sleep.Gone sim k ∨ ∃ exchange, ((ran sim (k + 1)).exchanges sleep.flow).head? = some exchange ∧
      exchange.input = .proceed ∧
        exchange.state.frames = sleep.asleep passed :: sleep.callers := by
  have entry := ticks.complete.entry sleep.flow
  cases recorded : (ran sim (k + 1)).exchanges sleep.flow with
  | nil =>
      cases left with
      | asleep found => exact .inl ⟨recorded, ticks.complete.wakes _ _ found recorded⟩
      | gone found => exact .inl ⟨recorded, _, ticks.gone _ _ found⟩
  | cons exchange rest =>
      rw [recorded] at entry
      have expected : Expected ((ran sim k).flows.find? sleep.flow) [] exchange.state exchange.input :=
        entry.orderly.split
      rcases expected.of_nil with
        ⟨flow, popped, taken, was, state, took⟩ | ⟨fresh, -⟩
      · cases left with
        | asleep found frames wakes =>
            obtain rfl := Phase.active.inj (Option.some.inj (was.symm.trans found))
            obtain ⟨popped', taken', took'⟩ := wakes
            obtain ⟨proceeds, -⟩ := Prod.mk.inj (Except.ok.inj (took.symm.trans took'))
            exact .inr ⟨exchange, rfl, proceeds, state ▸ frames⟩
        | gone found => cases was.symm.trans found
      · rcases fresh with nothing | ⟨flow, wait, was⟩
        · cases left with
          | asleep found => cases nothing.symm.trans found
          | gone found => cases nothing.symm.trans found
        · cases left with
          | asleep found => cases was.symm.trans found
          | gone found => cases was.symm.trans found

theorem Ticks.sleeps_before (unstepped : Unstepped sim) (ticks : ∀ j ≤ k, Ticks sound sim j)
    (member : exchange ∈ (ran sim (k + 1)).journal)
    (known : sleep? exchange = some (sleep, passed + 1)) :
    ∃ j, k = j + 1 ∧ ∃ exchange ∈ (ran sim (j + 1)).journal,
      sleep? exchange = some (sleep, passed) := by
  obtain ⟨frame, rest, sleeps, flow, woken, slept⟩ := sleep?_eq_some.1 known
  have unrested : ¬ (Config.ofExchange exchange).Rested := fun rested => by
    have := rested.slept sleeps.front
    omega
  obtain ⟨before, after, recorded⟩ := List.append_of_mem (mem_exchanges.2 ⟨member, flow.symm⟩)
  have entry := (ticks k (Nat.le_refl k)).complete.entry sleep.flow
  rw [recorded] at entry
  have expected := entry.orderly.split
  -- A sleep that goes on is the first thing in a tick: elsewhere the frame has rested.
  rcases List.eq_nil_or_concat before with rfl | ⟨past, last, rfl⟩
  · rcases expected.of_nil with ⟨flow', popped, taken, was, state, took⟩ | ⟨-, given⟩
    · cases k with
      | zero =>
          obtain ⟨recipe, same⟩ := unstepped.flows _ _ was
          obtain rfl := Phase.active.inj same
          obtain ⟨params, -⟩ := Prod.mk.inj (Except.ok.inj took)
          have front := sleeps.front
          rw [Config.ofExchange, ← params] at front
          cases front
      | succ j =>
          have earlier := (ticks j (Nat.le_succ j)).complete
          obtain ⟨⟨past, last, halt, recorded', halts, next⟩, popped', taken', took'⟩ :=
            earlier.dozes _ flow' was
          obtain ⟨proceeds, -⟩ := Prod.mk.inj (Except.ok.inj (took.symm.trans took'))
          have listed : last ∈ (ran sim (j + 1)).exchanges sleep.flow := recorded' ▸ by simp
          obtain ⟨boundary, next', advances⟩ :=
            advances_of_gives ((earlier.entry sleep.flow).gives last listed)
          have front := sleeps.front
          rw [Config.ofExchange, state, proceeds, next] at front
          obtain ⟨frame', sleeps', slept', woken'⟩ :=
            advances.sleeps_of_front halts front slept sleeps.left
          obtain ⟨recorded, own⟩ := mem_exchanges.1 listed
          exact ⟨j, rfl, last, recorded, sleep?_eq_some.2
            ⟨frame', rest, sleeps', own.symm, woken.trans woken'.symm, slept'⟩⟩
    · obtain ⟨boundary, next, advances⟩ := advances_of_gives (entry.gives exchange (by simp))
      exact absurd (Config.rested_of_drowsy advances.drowsy given) unrested
  · rw [List.concat_eq_append] at expected
    obtain ⟨state, replies⟩ := expected.of_concat
    obtain ⟨boundary, next, advances⟩ := advances_of_gives (entry.gives last (by simp))
    rw [Config.ofExchange, state] at unrested
    exact absurd (advances.rested _ replies) unrested

theorem Ticks.halted (unstepped : Unstepped sim) (ticks : ∀ j ≤ k, Ticks sound sim j)
    (member : exchange ∈ (ran sim (k + 1)).journal)
    (known : sleep? exchange = some (sleep, passed)) :
    ∃ start, start + passed = k ∧ (∀ i ≤ passed, sleep.Halts sim i (start + i)) ∧
      sleep.Left 1 (ran sim (start + 1)).flows := by
  induction passed generalizing k exchange with
  | zero =>
      obtain ⟨-, halts, left⟩ := (ticks k (Nat.le_refl k)).halts member known
      refine ⟨k, rfl, fun i within => ?_, left⟩
      obtain rfl := Nat.le_zero.1 within
      exact halts
  | succ passed ih =>
      obtain ⟨j, rfl, exchange', member', known'⟩ := sleeps_before unstepped ticks member known
      obtain ⟨start, rfl, halted, left⟩ := ih (fun i within => ticks i (by omega)) member' known'
      refine ⟨start, by omega, fun i within => ?_, left⟩
      rcases Nat.le_or_eq_of_le_succ within with earlier | rfl
      · exact halted i earlier
      · exact ((ticks _ (Nat.le_refl _)).halts member known).2.1

theorem Sleep.Left.goesOn (left : sleep.Left passed (ran sim k).flows) (ticks : Ticks sound sim k)
    (unfinished : passed < sleep.ticks) (rests : sleep.woken.slept = 0) :
    (sleep.Halts sim passed k ∨ sleep.Gone sim k) ∧
      sleep.Left (passed + 1) (ran sim (k + 1)).flows := by
  rcases left.next ticks with gone | ⟨exchange, first, proceeds, frames⟩
  · obtain ⟨_, found⟩ := gone.cancelled
    exact ⟨.inr gone, .gone found⟩
  · obtain ⟨member, own⟩ := mem_exchanges.1 (List.mem_of_mem_head? first)
    obtain ⟨-, halts, later⟩ :=
      ticks.halts member (sleep?_of_asleep own proceeds frames unfinished rests)
    exact ⟨.inl halts, later⟩

theorem Sleep.Halts.lasts {start : Nat} (begun : sleep.Halts sim 0 start)
    (left : sleep.Left 1 (ran sim (start + 1)).flows) (ticks : ∀ j < n, Ticks sound sim j)
    (positive : 0 < sleep.ticks) (rests : sleep.woken.slept = 0) : sleep.Lasts sim n start := by
  have goesOn (passed : Nat) (unfinished : passed < sleep.ticks) (within : start + passed < n) :
      (sleep.Halts sim passed (start + passed) ∨ sleep.Gone sim (start + passed)) ∧
        sleep.Left (passed + 1) (ran sim (start + passed + 1)).flows := by
    induction passed with
    | zero => exact ⟨.inl begun, left⟩
    | succ passed ih =>
        exact (ih (by omega) (by omega)).2.goesOn (ticks _ within) unfinished rests
  refine ⟨fun passed unfinished within => (goesOn passed unfinished within).1, fun within => ?_⟩
  obtain ⟨passed, ticks'⟩ := Nat.exists_eq_succ_of_ne_zero (Nat.ne_of_gt positive)
  have left := (goesOn passed (by omega) (by omega)).2
  rw [Nat.add_assoc, ← Nat.succ_eq_add_one, ← ticks'] at left
  rcases left.next (ticks _ within) with gone | ⟨exchange, first, proceeds, frames⟩
  · exact .inr gone
  · rw [Sleep.asleep, if_neg (Nat.lt_irrefl _)] at frames
    exact .inl ⟨exchange, first, proceeds, frames⟩

end Runs

def SleepsExactly (sim : Simulation Invocation) (n : Nat) : Prop :=
  ∀ k < n, ∀ exchange ∈ (ran sim (k + 1)).journal, ∀ sleep passed,
    sleep? exchange = some (sleep, passed) → passed < sleep.ticks ∧
      ∃ start, start + passed = k ∧ (∀ i ≤ passed, sleep.Halts sim i (start + i)) ∧
        sleep.Lasts sim n start

theorem valid_scenarios_sleep_exactly {scenario : Scenario} (valid : scenario.isValid = true)
    (limits : Limits) (n : Nat) :
    let installed := scenario.install id (Simulation.withLimits limits)
    Succeeds installed.simulation n → SleepsExactly installed.simulation n := by
  intro installed succeeds k within exchange member sleep passed known
  obtain ⟨-, sound, lineage, holds⟩ := (sound_of_isValid valid).install_spec limits
  have unstepped : Unstepped installed.simulation := unstepped_install scenario limits
  have ticks := ticks_of_succeeds unstepped (unstepped.restful holds) succeeds
  have soFar (j : Nat) (before : j ≤ k) := ticks j (Nat.lt_of_le_of_lt before within)
  obtain ⟨unfinished, -⟩ := (ticks k within).halts member known
  obtain ⟨start, began, halted, left⟩ := Ticks.halted unstepped soFar member known
  obtain ⟨frame, rest, -, -, woken, -⟩ := sleep?_eq_some.1 known
  exact ⟨unfinished, start, began, halted, (halted 0 (Nat.zero_le _)).lasts left ticks
    (Nat.zero_lt_of_lt unfinished) (by rw [woken])⟩

/--
Sleep is exact. In a tick that succeeds, a flow says nothing more once it has said that it sleeps, with
whatever coroutines. In a valid scenario each sleep says so in as many ticks in a row as it asks for,
and counts them, and then the flow goes on behind it, unless the flow is cancelled before.
-/
theorem sleep_is_exact :
    (∀ (σ : Type) [Coroutine σ] (limits : Limits) (operations : List (Simulation.Operation σ))
      (report : TickReport) (after : Simulation σ),
      let sim := Simulation.session limits operations
      Simulation.tick sim = .ok report after →
        ∃ watched, Watched.probe.tick ⟨sim, [], []⟩ = .ok report watched ∧ watched.sim = after ∧
          Divided sim.now sim.replay after.replay (watched.stints.flatMap Stint.reports) report.reports ∧
          ∀ id front response back, watched.responses id = front ++ response :: back →
            response.isHalt = true → back = []) ∧
    ∀ (scenario : Scenario), scenario.isValid = true → ∀ (limits : Limits) (n : Nat),
      let installed := scenario.install id (Simulation.withLimits limits)
      Succeeds installed.simulation n → SleepsExactly installed.simulation n := by
  refine ⟨?_, fun scenario valid limits n => valid_scenarios_sleep_exactly valid limits n⟩
  intro σ _ limits operations report after sim done
  have kept := Simulation.session_kept limits operations
  obtain ⟨watched, watch, same, fixed⟩ := Simulation.tick_fixedPoint kept done
  obtain ⟨watched', watch', -, complete⟩ := Simulation.tick_complete kept done
  obtain rfl : watched' = watched := by
    injection watch'.symm.trans watch
  exact ⟨_, watch, same, same ▸ fixed.divided, fun id front response back said halts =>
    (complete.entry id).voiced.last said halts⟩

theorem workers_and_racers_sleep_exactly :
    (∃ report watched,
      Watched.probe.tick ⟨Simulation.session {} Simulation.workersByInterval, [], []⟩ =
        .ok report watched ∧
      (watched.responses 2).map Response.isHalt = [false, true] ∧
      ∀ front response back, watched.responses 2 = front ++ response :: back →
        response.isHalt = true → back = []) ∧
    let installed := raceOnTheClock.install id (Simulation.withLimits { rounds := 5, steps := 30 })
    raceOnTheClock.isValid = true ∧ Succeeds installed.simulation 5 ∧
      SleepsExactly installed.simulation 5 ∧
      ((ran installed.simulation 4).journal.filterMap sleep?).map
        (fun (sleep, passed) => (sleep.flow, sleep.ticks, sleep.callers.length, passed)) =
          [(3, 2, 0, 1), (2, 2, 1, 1)] := by
  obtain ⟨quiet, exact⟩ := sleep_is_exact
  refine ⟨?_, ?_⟩
  · obtain ⟨report, after, done⟩ := Engine.succeeds_iff.1 (show Engine.succeeds Simulation.tick
      (Simulation.session {} Simulation.workersByInterval) = true by decide +kernel)
    obtain ⟨watched, watch, -, -, last⟩ := quiet Playback {} _ report after done
    have said : (match Watched.probe.tick
          ⟨Simulation.session {} Simulation.workersByInterval, [], []⟩ with
        | .ok _ watched => (watched.responses 2).map Response.isHalt
        | .error .. => []) = [false, true] := by decide +kernel
    rw [watch] at said
    exact ⟨report, watched, watch, said, last 2⟩
  · intro installed
    have succeed : ∀ k < 5, Engine.succeeds Simulation.tick (ran installed.simulation k) = true := by
      decide +kernel
    have succeeds : Succeeds installed.simulation 5 := fun k before =>
      Engine.succeeds_iff.1 (succeed k before)
    exact ⟨by decide, succeeds, exact raceOnTheClock (by decide) _ 5 succeeds, by decide +kernel⟩

end Cadence.Scenario
