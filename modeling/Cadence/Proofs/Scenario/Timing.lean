import Cadence.Proofs.Scenario.Duration
import Cadence.Proofs.Scenario.Run
/-!
Flows take the time that their methods take. While no tick fails, a flow whose method unwinds
completes exactly when the duration of its method has passed, and is never live after that.
-/

namespace Cadence

/-! ## Strategies -/

variable {strategy : Strategy} {times : List Nat} {bound : Nat}

theorem Strategy.le_time (single : strategy = .single → ∃ time, times = [time] ∧ bound ≤ time)
    (all : strategy = .all → bound = 0 ∨ ∃ time ∈ times, bound ≤ time)
    (race : strategy = .race → times ≠ [] ∧ ∀ time ∈ times, bound ≤ time) :
    bound ≤ strategy.time times := by
  cases strategy with
  | single =>
      obtain ⟨time, rfl, less⟩ := single rfl
      exact less
  | all =>
      rcases all rfl with rfl | ⟨time, member, less⟩
      · exact Nat.zero_le _
      · cases most : times.max? with
        | none => simp [List.max?_eq_none_iff.1 most] at member
        | some last =>
            have greatest := (List.max?_eq_some_iff.1 most).2 time member
            simpa [Strategy.time, most] using Nat.le_trans less greatest
  | race =>
      obtain ⟨nonempty, less⟩ := race rfl
      cases least : times.min? with
      | none => exact absurd (List.min?_eq_none_iff.1 least) nonempty
      | some first =>
          simpa [Strategy.time, least] using less first (List.min?_eq_some_iff.1 least).1

theorem Strategy.time_le (single : strategy = .single → ∃ time, times = [time] ∧ time ≤ bound)
    (all : strategy = .all → ∀ time ∈ times, time ≤ bound)
    (race : strategy = .race → ∃ time ∈ times, time ≤ bound) : strategy.time times ≤ bound := by
  cases strategy with
  | single =>
      obtain ⟨time, rfl, less⟩ := single rfl
      exact less
  | all =>
      cases most : times.max? with
      | none => simp [Strategy.time, most]
      | some last =>
          simpa [Strategy.time, most] using all rfl last (List.max?_eq_some_iff.1 most).1
  | race =>
      obtain ⟨time, member, less⟩ := race rfl
      cases least : times.min? with
      | none => simp [Strategy.time, least]
      | some first =>
          have before := (List.min?_eq_some_iff.1 least).2 time member
          simpa [Strategy.time, least] using Nat.le_trans before less

namespace Scenario

open FlowTable

variable {program : Program} {time : Target → Nat} {target : Target} {args : List Json}
  {body rest : List Instruction} {instruction : Instruction} {frame after : Frame}
  {frames : List Frame} {config next : Config} {value : Json} {tick : Tick}

/-! ## What is left of a flow -/

def Calm (program : Program) (body : List Instruction) : Prop :=
  ∀ instruction ∈ executed body, ∀ call ∈ instruction.calls, ∀ callee,
    program.resolve call.service call.method = some callee → program.Unwinds callee

theorem Program.Unwinds.calm (unwinds : program.Unwinds target) : Calm program target.method.body :=
  fun instruction member call made _ reached =>
    unwinds.of_leads ⟨instruction, member, call, made, reached⟩

theorem Calm.tail (calm : Calm program (instruction :: rest)) (going : instruction.isReturn = false) :
    Calm program rest := by
  intro other member
  refine calm other ?_
  simp [executed_cons, going, member]

theorem Calm.head (calm : Calm program (instruction :: rest)) (going : instruction.isReturn = false) :
    ∀ call ∈ instruction.calls, ∀ callee,
      program.resolve call.service call.method = some callee → program.Unwinds callee :=
  calm instruction (by simp [executed_cons, going])

theorem Calm.dropWhile (calm : Calm program body) :
    Calm program (body.dropWhile Instruction.isPause) := by
  induction body with
  | nil => exact calm
  | cons instruction rest ih =>
      rw [List.dropWhile_cons]
      split
      next pause =>
        unfold Instruction.isPause at pause
        split at pause
        · exact ih (calm.tail rfl)
        · cases pause
      next => exact calm

def frameTime (program : Program) (time : Target → Nat) (frame : Frame) : Nat :=
  bodyTime program time frame.rest - frame.slept

namespace Config

def remaining (program : Program) (time : Target → Nat) : Config → Nat
  | enter target _ => time target
  | go frames | hand _ frames => (frames.map (frameTime program time)).sum

def Unwinds (program : Program) : Config → Prop
  | enter target _ => program.Unwinds target
  | go frames | hand _ frames => ∀ frame ∈ frames, Calm program frame.rest

end Config

@[simp] theorem frameTime_deliver (frame : Frame) (value : Json) :
    frameTime program time (frame.deliver value) = frameTime program time frame := by
  unfold Frame.deliver
  split <;> rfl

@[simp] theorem rest_deliver (frame : Frame) (value : Json) : (frame.deliver value).rest = frame.rest := by
  unfold Frame.deliver
  split <;> rfl

theorem frameTime_frame (durations : program.Durations time) (unwinds : program.Unwinds target)
    (args : List Json) : frameTime program time (target.frame args) = time target := by
  rw [durations target unwinds]
  rfl

theorem frameTime_eq (left : frame.rest.dropWhile Instruction.isPause = instruction :: rest)
    (going : instruction.isReturn = false) : frameTime program time frame =
      instructionTime program time instruction + bodyTime program time rest - frame.slept := by
  rw [frameTime, ← bodyTime_dropWhile, left, bodyTime_cons going]

theorem callTime_of_evaluate {locals : Fields Json} {call : Call}
    (evaluated : program.evaluate locals call = .ok (target, args)) :
    callTime program time call = time target := by
  simp [callTime, (evaluate_eq_ok.1 evaluated).2]

theorem Frame.Takes.spends {move : Move} (takes : frame.Takes program move after)
    (time : Target → Nat) (calm : Calm program frame.rest) :
    match move with
    | .act (.log _) => Calm program after.rest ∧
      frameTime program time frame = frameTime program time after
    | .act (.halt _ _) => Calm program after.rest ∧
      frameTime program time frame = frameTime program time after + 1
    | .act (.await request) => Calm program after.rest ∧
      (∀ recipe ∈ request.recipes, program.Unwinds recipe.start.entry) ∧
      frameTime program time frame =
        request.strategy.time (request.recipes.map fun recipe => time recipe.start.entry)
          + frameTime program time after
    | .act (.unload _) => frameTime program time frame = 0
    | .act (.load _ _) => False
    | .enter target _ _ => Calm program after.rest ∧ program.Unwinds target ∧
      frameTime program time frame = time target + frameTime program time after := by
  cases takes with
  | fall left =>
      simp only
      rw [frameTime, ← bodyTime_dropWhile, left]
      exact Nat.zero_sub _
  | log left rested evaluated =>
      have calm := left ▸ calm.dropWhile
      refine ⟨calm.tail rfl, ?_⟩
      rw [frameTime_eq left rfl]
      simp only [frameTime, instructionTime, Nat.zero_add]
  | wake left =>
      have calm := left ▸ calm.dropWhile
      refine ⟨calm.tail rfl, ?_⟩
      rw [frameTime_eq left rfl]
      simp only [frameTime, instructionTime]
      omega
  -- One tick of the sleep has passed, and the instruction stays in front.
  | @sleep ticks rest left unfinished =>
      refine ⟨left ▸ calm.dropWhile, ?_⟩
      have later : bodyTime program time (.sleep ticks :: rest) =
          ticks + bodyTime program time rest := bodyTime_cons rfl
      rw [frameTime_eq left rfl]
      simp only [frameTime, instructionTime, later]
      omega
  | @call call rest target args left rested evaluated =>
      have calm := left ▸ calm.dropWhile
      refine ⟨calm.tail rfl, ?_, ?_⟩
      · exact calm.head rfl call (List.mem_singleton_self call) target (evaluate_eq_ok.1 evaluated).2
      · rw [frameTime_eq left rfl]
        simp only [frameTime, instructionTime, callTime_of_evaluate evaluated, rested, Nat.sub_zero]
  | @await awaited rest found left rested shapely evaluated =>
      have calm := left ▸ calm.dropWhile
      have times : awaited.calls.map (callTime program time) = found.map fun one => time one.1 := by
        refine List.forall₂_eq_eq_eq ▸ List.forall₂_map_left_iff.2 (List.forall₂_map_right_iff.2 ?_)
        exact evaluated.imp fun call one here => callTime_of_evaluate here
      refine ⟨calm.tail rfl, fun recipe member => ?_, ?_⟩
      · obtain ⟨one, known, rfl⟩ := List.mem_map.1 member
        obtain ⟨call, made, here⟩ := exists_of_forall₂ evaluated known
        exact calm.head rfl call made one.1 (evaluate_eq_ok.1 here).2
      · rw [frameTime_eq left rfl]
        simp only [frameTime, instructionTime, times, rested, Nat.sub_zero, List.map_map,
          Function.comp_def, Program.recipe]
  | ret left rested evaluated =>
      simp only
      rw [frameTime, ← bodyTime_dropWhile, left, bodyTime_ret]
      exact Nat.zero_sub _

def Spends (program : Program) (time : Target → Nat) (boundary : Option (Boundary Invocation))
    (before after : Nat) : Prop :=
  match boundary with
  | none => before = after
  | some .halt => before = after + 1
  | some (.await request _) => (∀ recipe ∈ request.recipes, program.Unwinds recipe.start.entry) ∧
    before = request.strategy.time (request.recipes.map fun recipe => time recipe.start.entry) + after
  | some (.complete _ _) => before = 0

theorem Config.Moves.spends (durations : program.Durations time)
    {boundary : Option (Boundary Invocation)} (moves : config.Moves program boundary next)
    (unwinds : config.Unwinds program) : next.Unwinds program ∧
      Spends program time boundary (config.remaining program time) (next.remaining program time) := by
  induction moves with
  | enter =>
      have here : program.Unwinds _ := unwinds
      refine ⟨List.forall_mem_singleton.2 here.calm, ?_⟩
      simp [Spends, remaining, frameTime_frame durations here]
  | log takes =>
      obtain ⟨calm, others⟩ := List.forall_mem_cons.1 unwinds
      obtain ⟨calm', same⟩ := takes.spends time calm
      exact ⟨List.forall_mem_cons.2 ⟨calm', others⟩, by simp [Spends, remaining, same]⟩
  | call takes =>
      obtain ⟨calm, others⟩ := List.forall_mem_cons.1 unwinds
      obtain ⟨calm', reached, sum⟩ := takes.spends time calm
      refine ⟨List.forall_mem_cons.2 ⟨reached.calm, List.forall_mem_cons.2 ⟨calm', others⟩⟩, ?_⟩
      simp [Spends, remaining, frameTime_frame durations reached, sum, Nat.add_assoc]
  | halt takes =>
      obtain ⟨calm, others⟩ := List.forall_mem_cons.1 unwinds
      obtain ⟨calm', more⟩ := takes.spends time calm
      refine ⟨List.forall_mem_cons.2 ⟨calm', others⟩, ?_⟩
      simp [Spends, remaining, more, Nat.add_right_comm]
  | await takes =>
      obtain ⟨calm, others⟩ := List.forall_mem_cons.1 unwinds
      obtain ⟨calm', reached, sum⟩ := takes.spends time calm
      refine ⟨List.forall_mem_cons.2 ⟨calm', others⟩, reached, ?_⟩
      simp [remaining, sum, Nat.add_assoc]
  | unload takes =>
      obtain ⟨calm, others⟩ := List.forall_mem_cons.1 unwinds
      have nothing := takes.spends time calm
      exact ⟨others, by simp [Spends, remaining, nothing]⟩
  | @deliver frame frames value boundary next moves ih =>
      have unwinds' : Unwinds program (go (frame.deliver value :: frames)) := by
        simpa [Unwinds] using unwinds
      simpa [remaining] using ih unwinds'
  | complete => exact ⟨by simp [Unwinds], by simp [Spends, remaining]⟩

/-! ## Flows keep to their time -/

def Birth.endsAt (time : Target → Nat) (born : Birth) : Nat :=
  born.spawnedAt + time born.target

def settledAt (time : Target → Nat) (birth : FlowId → Birth) (wait : Wait) : Nat :=
  wait.submittedAt + wait.strategy.time (wait.dependencies.map fun child => time (birth child).target)

def due (stepped : Option Nat) (activation : Nat) (tick : Tick) : Nat :=
  if stepped = some activation then tick + 1 else tick

theorem due_of_ne {stepped : Option Nat} {activation : Nat} (apart : stepped ≠ some activation)
    (tick : Tick) : due stepped activation tick = tick :=
  if_neg apart

@[simp] theorem due_self (activation : Nat) (tick : Tick) :
    due (some activation) activation tick = tick + 1 :=
  if_pos rfl

structure Waits (program : Program) (time : Target → Nat) (tick : Tick) (stepped : Option Nat)
    (birth : FlowId → Birth) (id : FlowId) (flow : Flow Invocation) (wait : Wait) : Prop where
  unwinds : (Config.ofFlow flow).Unwinds program
  shapely : wait.strategy.check id wait.dependencies.length = .ok ()
  submitted : Nat.le wait.submittedAt tick
  passed : ∀ activation, stepped = some activation → activation ≤ flow.activation
  awaited : ∀ child ∈ wait.dependencies,
    program.Unwinds (birth child).target ∧ (birth child).spawnedAt = wait.submittedAt
  ends : (birth id).endsAt time =
    settledAt time birth wait + (Config.ofFlow flow).remaining program time

def OnTime (program : Program) (time : Target → Nat) (tick : Tick) (stepped : Option Nat) : Statement :=
  fun birth id phase => program.Unwinds (birth id).target →
    match phase with
    | .active flow => (Config.ofFlow flow).Unwinds program ∧ (birth id).endsAt time =
      due stepped flow.activation tick + (Config.ofFlow flow).remaining program time
    | .suspended flow wait => Waits program time tick stepped birth id flow wait
    | .completed done => (birth id).endsAt time = done.completedAt ∧ (birth id).endsAt time ≤ tick
    | .cancelled gone => gone.cancelledAt ≤ (birth id).endsAt time

def OnTimeAt (program : Program) (time : Target → Nat) (tick : Tick) (born : Birth)
    (boundary : Option (Boundary Invocation)) (flow : Flow Invocation) : Prop :=
  program.Unwinds born.target → (Config.ofFlow flow).Unwinds program ∧
    ∃ before, born.endsAt time = tick + before ∧
      Spends program time boundary before ((Config.ofFlow flow).remaining program time) ∧
      ∀ request caller, boundary = some (.await request caller) →
        ∀ id, request.strategy.check id request.recipes.length = .ok ()

theorem OnTimeAt.step (durations : program.Durations time) {born : Birth} {flow later : Flow Invocation}
    {boundary : Option (Boundary Invocation)} (onTime : OnTimeAt program time tick born none flow)
    (moves : (Config.ofFlow flow).Moves program boundary (Config.ofFlow later)) :
    OnTimeAt program time tick born boundary later := by
  intro unwinds
  obtain ⟨unwinds', before, sum, spends, -⟩ := onTime unwinds
  obtain ⟨unwinds'', spends'⟩ := moves.spends durations unwinds'
  have spends : before = (Config.ofFlow flow).remaining program time := spends
  refine ⟨unwinds'', _, sum, spends ▸ spends', ?_⟩
  rintro request caller rfl
  exact moves.await_spec.2

section Settling

variable {birth : FlowId → Birth} {stepped : FlowId → Option Nat} {table after : FlowTable Invocation}
  {wait : Wait} {id : Nat} {flow : Flow Invocation} {tick : Nat}

structure Punctual (program : Program) (time : Target → Nat) (tick : Tick)
    (stepped : FlowId → Option Nat) (birth : FlowId → Birth) (table : FlowTable Invocation) : Prop where
  prompt : table.Prompt tick
  onTime : ∀ id phase, table.find? id = some phase → OnTime program time tick (stepped id) birth id phase

theorem Punctual.completed (punctual : Punctual program time tick stepped birth table)
    (unwinds : program.Unwinds (birth id).target) {done : Completion}
    (finished : table.completed? id = some done) :
    (birth id).endsAt time = done.completedAt ∧ (birth id).endsAt time ≤ tick :=
  punctual.onTime id _ (completed?_eq_some.1 finished) unwinds

theorem Waits.child {activation : Option Nat}
    (waits : Waits program time tick activation birth id flow wait) {child : FlowId}
    (member : child ∈ wait.dependencies) : program.Unwinds (birth child).target ∧
      (birth child).endsAt time = wait.submittedAt + time (birth child).target := by
  obtain ⟨unwinds, spawned⟩ := waits.awaited child member
  exact ⟨unwinds, by rw [Birth.endsAt, spawned]⟩

theorem Punctual.le_settledAt (punctual : Punctual program time tick stepped birth table)
    (found : table.find? id = some (.suspended flow wait))
    (waits : Waits program time tick (stepped id) birth id flow wait)
    (live : ∀ child : Nat, id < child → program.Unwinds (birth child).target →
      table.isLive child = true → tick ≤ (birth child).endsAt time) :
    tick ≤ settledAt time birth wait := by
  have late (child : Nat) (member : child ∈ wait.dependencies) (lasts : table.Lasts tick child) :
      tick - wait.submittedAt ≤ time (birth child).target := by
    obtain ⟨unwinds, ends⟩ := waits.child member
    refine Nat.sub_le_iff_le_add'.2 (ends ▸ ?_)
    rcases lasts with alive | ⟨done, finished, now⟩
    · exact live child (punctual.prompt.later id flow wait found child member) unwinds alive
    · rw [(punctual.completed unwinds finished).1]
      exact Nat.le_of_eq now.symm
  have keeps := punctual.prompt.keeps id flow wait found
  have shapely := waits.shapely
  unfold FlowTable.Keeps at keeps
  refine Nat.sub_le_iff_le_add'.1 (Strategy.le_time (fun kind => ?_) (fun kind => ?_) fun kind => ?_)
  · rw [kind] at keeps shapely
    obtain ⟨child, only⟩ : ∃ child, wait.dependencies = [child] := by
      rw [← List.length_eq_one_iff]
      simpa [Strategy.check] using shapely
    exact ⟨_, by simp [only], late child (by simp [only]) (keeps child (by simp [only]))⟩
  · rw [kind] at keeps
    rcases keeps with ⟨-, submitted⟩ | ⟨child, member, lasts⟩
    · exact .inl (Nat.sub_eq_zero_of_le (Nat.le_of_eq submitted.symm))
    · exact .inr ⟨_, List.mem_map_of_mem member, late child member lasts⟩
  · rw [kind] at keeps shapely
    refine ⟨fun empty => ?_, fun value known => ?_⟩
    · simp [Strategy.check, List.map_eq_nil_iff.1 empty] at shapely
    · obtain ⟨child, member, rfl⟩ := List.mem_map.1 known
      exact late child member (keeps child member)

theorem Punctual.live (punctual : Punctual program time tick stepped birth table)
    (unwinds : program.Unwinds (birth id).target) (live : table.isLive id = true) :
    tick ≤ (birth id).endsAt time := by
  -- Waits lead to later flows, of which there are only finitely many.
  induction left : table.phases.size - id using Nat.strongRecOn generalizing id with
  | ind left ih =>
      subst left
      obtain ⟨flow, known⟩ := isLive_iff.1 live
      rcases live?_eq_some.1 known with active | ⟨wait, suspended⟩
      · obtain ⟨-, ends⟩ := punctual.onTime id _ active unwinds
        unfold due at ends
        split at ends <;> omega
      · have waits := punctual.onTime id _ suspended unwinds
        have bound := punctual.le_settledAt suspended waits fun child later unwinds alive =>
          ih _ (by have := le_size_of_isLive alive; omega) unwinds alive rfl
        have ends := waits.ends
        omega

/-- A wait is settled in the tick in which its time is up. -/
theorem Punctual.settledAt_eq (punctual : Punctual program time tick stepped birth table)
    (found : table.find? id = some (.suspended flow wait))
    (waits : Waits program time tick (stepped id) birth id flow wait)
    {value : Json} {released : List Released} (outcome : table.outcome? wait = some (value, released)) :
    settledAt time birth wait = tick := by
  have early (child : Nat) (member : child ∈ wait.dependencies) {done : Completion}
      (finished : table.completed? child = some done) :
      time (birth child).target ≤ tick - wait.submittedAt := by
    obtain ⟨unwinds, ends⟩ := waits.child member
    exact Nat.le_sub_of_add_le' (ends ▸ (punctual.completed unwinds finished).2)
  have upper : wait.strategy.time (wait.dependencies.map fun child => time (birth child).target) ≤
      tick - wait.submittedAt := by
    have shapely := waits.shapely
    cases resolves_of_outcome? outcome with
    | @single child _ kind first finished =>
        have only : wait.dependencies = [child] := by
          have one : wait.dependencies.length = 1 := by simpa [kind, Strategy.check] using shapely
          obtain ⟨other, only⟩ := List.length_eq_one_iff.1 one
          simpa [only] using first
        refine Strategy.time_le (fun _ => ?_) (by simp [kind]) (by simp [kind])
        exact ⟨_, by simp [only], early child (by simp [only]) finished⟩
    | all kind collected =>
        refine Strategy.time_le (by simp [kind]) (fun _ => ?_) (by simp [kind])
        rintro _ known
        obtain ⟨child, member, rfl⟩ := List.mem_map.1 known
        obtain ⟨one, -, here⟩ := exists_of_forall₂ collected.flip member
        obtain ⟨done, finished, -⟩ := released?_eq_some here
        exact early child member finished
    | race kind first =>
        obtain ⟨⟨child, member, finished⟩, -⟩ := firstCompleted?_eq_some first
        refine Strategy.time_le (by simp [kind]) (by simp [kind]) fun _ => ?_
        exact ⟨_, List.mem_map_of_mem member, early child member finished⟩
  have lower := punctual.le_settledAt found waits fun child _ unwinds alive => punctual.live unwinds alive
  have submitted := waits.submitted
  exact Nat.le_antisymm (Nat.add_le_of_le_sub' submitted upper) lower

theorem Punctual.settle (punctual : Punctual program time tick stepped birth table)
    (settled : Settled table tick after)
    (waiting : ∀ id flow wait, table.find? id = some (.suspended flow wait) →
      ∃ frames, Config.ofFlow flow = .go frames)
    (id : FlowId) (phase : Phase Invocation) (found : after.find? id = some phase) :
    OnTime program time tick (stepped id) birth id phase := by
  refine settled.forall_phases punctual.onTime (fun id flow parent caller live unwinds => ?_)
    (fun id flow wait value released stack earlier outcome pushed _ unwinds => ?_) id phase found
  · exact punctual.live unwinds (isLive_iff.2 ⟨flow, live⟩)
  · have waits := punctual.onTime id _ earlier unwinds
    obtain ⟨frames, go⟩ := waiting id flow wait earlier
    have left := waits.unwinds
    have ends := waits.ends
    rw [go, punctual.settledAt_eq earlier waits outcome] at ends
    rw [go] at left
    have renewed : due (stepped id) (flow.activation + 1) tick = tick :=
      due_of_ne (fun same => absurd (waits.passed _ same) (by omega)) tick
    simp only [ofFlow_resumed go pushed]
    refine ⟨left, ends.trans ?_⟩
    rw [Flow.resumed, renewed]
    rfl

end Settling

theorem OnTime.congr {birth birth' : FlowId → Birth} {activation : Option Nat} {id : FlowId}
    {phase : Phase Invocation} (same : birth' id = birth id)
    (children : ∀ child ∈ phase.dependencies, birth' child = birth child)
    (onTime : OnTime program time tick activation birth id phase) :
    OnTime program time tick activation birth' id phase := by
  unfold OnTime at onTime ⊢
  rw [same]
  intro unwinds
  cases phase with
  | active flow => exact onTime unwinds
  | suspended flow wait =>
      have waits := onTime unwinds
      have settled : settledAt time birth' wait = settledAt time birth wait := by
        unfold settledAt
        rw [List.map_congr_left fun child member => by rw [children child member]]
      refine { waits with awaited := fun child member => ?_, ends := ?_ }
      · rw [children child member]
        exact waits.awaited child member
      · rw [same, settled]
        exact waits.ends
  | completed done => exact onTime unwinds
  | cancelled gone => exact onTime unwinds

theorem OnTimeAt.await {birth : FlowId → Birth} {id : FlowId} {flow : Flow Invocation}
    {request : Request Invocation} {caller : Address} {dependencies : List FlowId}
    (onTime : OnTimeAt program time tick (birth id) (some (.await request caller)) flow)
    (births : dependencies.map birth = request.recipes.map (Birth.of · tick)) :
    OnTime program time tick (some flow.activation) birth id
      (.suspended flow ⟨request.strategy, caller, request.isDependency, dependencies, tick⟩) := by
  intro unwinds
  obtain ⟨unwinds', before, ends, ⟨recipes, sum⟩, shapely⟩ := onTime unwinds
  have count : dependencies.length = request.recipes.length := by
    simpa using congrArg List.length births
  have times : dependencies.map (fun child => time (birth child).target) =
      request.recipes.map fun recipe => time recipe.start.entry := by
    simpa [Function.comp_def, Birth.of] using congrArg (List.map fun born => time born.target) births
  constructor
  case unwinds => exact unwinds'
  case shapely =>
    rw [count]
    exact shapely request caller rfl id
  case submitted => exact Nat.le_refl _
  case passed => exact fun activation same => Nat.le_of_eq (Option.some.inj same).symm
  case awaited =>
    intro child member
    obtain ⟨recipe, made, same⟩ := List.mem_map.1 (births ▸ List.mem_map_of_mem member)
    rw [← same]
    exact ⟨recipes recipe made, rfl⟩
  case ends => rw [ends, sum, settledAt, times, Nat.add_assoc]

def timing (durations : program.Durations time) (tick : Tick) : Account program tick where
  holds := OnTime program time tick
  drives := OnTimeAt program time tick
  breaks _ _ _ := True
  congr := OnTime.congr
  spawn {birth id recipe} caller isDependency born unwinds := by
    rw [born] at unwinds ⊢
    exact ⟨unwinds, rfl⟩
  pass {birth stepped id phase activation} fresh behind onTime unwinds := by
    cases phase with
    | active flow =>
        obtain ⟨unwinds', ends⟩ := onTime unwinds
        obtain ⟨unstepped, apart⟩ := fresh flow rfl
        rw [due_of_ne unstepped] at ends
        refine ⟨unwinds', ends.trans ?_⟩
        rw [due_of_ne fun same => apart (Option.some.inj same)]
    | suspended flow wait =>
        refine { onTime unwinds with passed := fun other same => ?_ }
        exact Option.some.inj same ▸ behind flow wait rfl
    | completed done => exact onTime unwinds
    | cancelled gone => exact onTime unwinds
  turn unstepped onTime unwinds := by
    obtain ⟨unwinds', ends⟩ := onTime unwinds
    rw [due_of_ne unstepped] at ends
    exact ⟨unwinds', _, ends, rfl, fun _ _ reached => nomatch reached⟩
  step := OnTimeAt.step durations
  halt onTime unwinds := by
    obtain ⟨unwinds', before, ends, spent, -⟩ := onTime unwinds
    have spent : before = _ + 1 := spent
    refine ⟨unwinds', ?_⟩
    rw [due_self, ends, spent]
    omega
  await := OnTimeAt.await
  complete onTime unwinds := by
    obtain ⟨-, before, ends, spent, -⟩ := onTime unwinds
    obtain rfl : before = 0 := spent
    exact ⟨ends, Nat.le_of_eq ends⟩
  settle prompt settled all := by
    have punctual : Punctual program time tick _ _ _ := ⟨prompt, fun id phase found => (all id phase found).2⟩
    exact punctual.settle settled fun id flow wait found => (all id _ found).1.2
  stop _ := trivial
  leave _ := trivial

def schedule (durations : program.Durations time) : Chronicle program where
  account := timing durations
  renews {tick birth stepped id phase} covered onTime unwinds := by
    cases phase with
    | active flow =>
        obtain ⟨unwinds', ends⟩ := onTime unwinds
        rw [covered flow rfl, due_self] at ends
        exact ⟨unwinds', ends⟩
    | suspended flow wait =>
        have waits := onTime unwinds
        refine { waits with submitted := ?_, passed := fun _ same => nomatch same }
        exact Nat.le_succ_of_le waits.submitted
    | completed done => exact (onTime unwinds).imp_right Nat.le_succ_of_le
    | cancelled gone => exact onTime unwinds

/-! ## Runs -/

def Succeeds (sim : Simulation Invocation) (n : Nat) : Prop :=
  ∀ k < n, ∃ report after, Simulation.tick (ran sim k) = .ok report after

/-- While all ticks succeed, flows whose methods unwind take exactly the durations of these. -/
structure KeepsTime (scenario : Scenario) (limits : Limits) (time : Target → Nat) : Prop where
  completed : ∀ n flow done,
    let installed := scenario.install id (Simulation.withLimits limits)
    Succeeds installed.simulation n →
      (ran installed.simulation n).flows.find? flow = some (.completed done) →
        (∃ target args, Began installed.simulation n flow target args) ∧
        ∀ target args, Began installed.simulation n flow target args →
          installed.bundle.program.Unwinds target →
            done.completedAt = done.spawnedAt + time target
  cancelled : ∀ n flow gone,
    let installed := scenario.install id (Simulation.withLimits limits)
    Succeeds installed.simulation n →
      (ran installed.simulation n).flows.find? flow = some (.cancelled gone) →
        ((∃ target args, Began installed.simulation n flow target args) ∨
          gone.cancelledAt ≤ gone.spawnedAt) ∧
        ∀ target args, Began installed.simulation n flow target args →
          installed.bundle.program.Unwinds target →
            gone.cancelledAt ≤ gone.spawnedAt + time target
  live : ∀ n flow running,
    let installed := scenario.install id (Simulation.withLimits limits)
    Succeeds installed.simulation n →
      (ran installed.simulation n).flows.live? flow = some running →
        installed.bundle.program.Unwinds running.coroutine.entry →
          (ran installed.simulation n).now ≤ running.spawnedAt + time running.coroutine.entry

/-- The methods of a valid scenario take the time that their instructions add up to. -/
theorem valid_scenarios_keep_their_time {scenario : Scenario} (valid : scenario.isValid = true)
    (limits : Limits) :
    let program := (scenario.install id (Simulation.withLimits limits)).bundle.program
    (∃ time, program.Durations time) ∧
      ∀ time, program.Durations time → scenario.KeepsTime limits time := by
  intro program
  refine ⟨exists_durations program, fun time durations => ?_⟩
  obtain ⟨-, sound, lineage, holds⟩ := (sound_of_isValid valid).install_spec limits
  have start : Told (schedule durations).statement
      (scenario.install id (Simulation.withLimits limits)).simulation 0 :=
    (unstepped_install scenario limits).told
  have told (n : Nat) (succeeds : Succeeds _ n) :=
    Chronicle.told (n := n) sound holds start fun k before => .inl (succeeds k before)
  constructor
  case completed =>
    intro n flow done installed succeeds completed
    obtain ⟨birth, fits⟩ := told n succeeds
    obtain ⟨spawned, began⟩ := fits.stems flow _ completed
    refine ⟨⟨_, _, began⟩, fun target args began unwinds => ?_⟩
    obtain ⟨-, rfl, -⟩ := fits.known flow target args began
    rw [spawned]
    exact (fits.said flow _ completed unwinds).1.symm
  case cancelled =>
    intro n flow gone installed succeeds cancelled
    obtain ⟨birth, fits⟩ := told n succeeds
    obtain ⟨spawned, began⟩ := fits.stems flow _ cancelled
    refine ⟨began.imp_left fun began => ⟨_, _, began⟩, fun target args began unwinds => ?_⟩
    obtain ⟨-, rfl, -⟩ := fits.known flow target args began
    rw [spawned]
    exact fits.said flow _ cancelled unwinds
  -- Only here does it matter who waits for whom: a flow may last because another one does.
  case live =>
    intro n flow running installed succeeds live unwinds
    obtain ⟨birth, fits⟩ := told n succeeds
    obtain ⟨lineage, holds⟩ := holds.ticks n
    have punctual : Punctual program time _ (fun _ => none) birth _ :=
      ⟨holds.orders.forest.prompt holds.orders.resumable holds.unsettled _, fits.said⟩
    have descends : Descends (Began installed.simulation n flow) (birth flow) running := by
      rcases live?_eq_some.1 live with active | ⟨wait, suspended⟩
      · exact (fits.stems flow _ active).1
      · exact (fits.stems flow _ suspended).1
    rw [descends.entry] at unwinds ⊢
    rw [descends.spawnedAt]
    exact punctual.live unwinds (isLive_iff.2 ⟨running, live⟩)

theorem race_on_the_clock_keeps_its_time :
    let installed := raceOnTheClock.install id (Simulation.withLimits { rounds := 5, steps := 30 })
    raceOnTheClock.isValid = true ∧
      (∃ time, installed.bundle.program.Durations time ∧
        raceOnTheClock.KeepsTime { rounds := 5, steps := 30 } time) ∧
      (∀ target ∈ installed.bundle.program.targets, installed.bundle.program.Unwinds target) ∧
      Succeeds installed.simulation 5 ∧
      ((ran installed.simulation 5).flows.completed? 1).map
        (fun done => (done.spawnedAt, done.completedAt)) = some (2, 4) := by
  intro installed
  obtain ⟨⟨time, durations⟩, keeps⟩ := valid_scenarios_keep_their_time
    (show raceOnTheClock.isValid = true by decide) { rounds := 5, steps := 30 }
  refine ⟨by decide, ⟨time, durations, keeps time durations⟩, fun target member => ?_, ?_, ?_⟩
  · let calls (target : Target) : Nat := ((executed target.method.body).flatMap Instruction.calls).length
    have fewer : ∀ caller ∈ installed.bundle.program.targets,
        ∀ instruction ∈ executed caller.method.body, ∀ call ∈ instruction.calls,
          ∀ callee ∈ installed.bundle.program.resolve call.service call.method,
            calls callee < calls caller := by decide +kernel
    refine .of_rank calls (fun caller member callee leads => ?_) member
    obtain ⟨instruction, within, call, made, reached⟩ := leads
    exact fewer caller member instruction within call made callee reached
  · have succeed : ∀ k < 5, (match Simulation.tick (ran installed.simulation k) with
        | .ok .. => true
        | .error .. => false) = true := by decide +kernel
    intro k before
    have succeeds := succeed k before
    split at succeeds
    next done => exact ⟨_, _, done⟩
    next => cases succeeds
  · decide +kernel

end Scenario

end Cadence
