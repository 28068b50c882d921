import Cadence.Proofs.Scenario.Config
import Cadence.Proofs.Simulation.Contract
/-!
The frames of an invocation mirror the records of its flow. So the methods of a program in scope
keep to a contract under which no error can be their fault.
-/

namespace Cadence.Scenario

inductive Callers (program : Program) : List Record → List Frame → Prop
  | entry {record : Record} (place : record.frame? = none) : Callers program [record] []
  | frame {record : Record} {records : List Record} {frame : Frame} {frames : List Frame}
      (place : record.frame? = some frame.address) (waits : frame.Waits program)
      (callers : Callers program records frames) :
      Callers program (record :: records) (frame :: frames)

structure Mirrors (program : Program) (top : Record) (below : List Record) (frame : Frame)
    (run : Invocation) : Prop where
  known : run.program = program
  place : top.frame? = some frame.address
  callers : ∃ frames, run.frames = frame :: frames ∧ Callers program below frames

def Frame.Expects (program : Program) (frame : Frame) (top : Record) : Prop :=
  top.operations = [] ∧ frame.Ready program ∨
    (∃ value, top.operations = [.provideGiven value]) ∧ frame.Waits program ∨
    top.operations = [.provideReturnAndPop] ∧ frame.Left program

inductive Running (program : Program) : List Record → Invocation → Prop
  | entry {record : Record} {run : Invocation} (place : record.frame? = none)
      (pending : record.operations = [.provideParams]) (starts : Starts program run) :
      Running program [record] run
  | loaded {top : Record} {below : List Record} {frame : Frame} {run : Invocation}
      (mirrors : Mirrors program top below frame run) (expects : frame.Expects program top) :
      Running program (top :: below) run

inductive Parked (program : Program) : List Record → Invocation → Prop
  | loaded {top : Record} {below : List Record} {frame : Frame} {run : Invocation}
      (mirrors : Mirrors program top below frame run) (waits : frame.Waits program) :
      Parked program (top :: below) run

def terms (program : Program) : Terms Invocation where
  heap memory := ∀ image ∈ program, (memory.get? image.address).isSome = true
  starts := Starts program
  running := Running program
  parked := Parked program
  faults _ := False

def Carried (program : Program) (records : List Record) (config : Config)
    (answer : Invocation.Answer) : Prop :=
  ∃ command run, answer = (.ok (.yielded command), run) ∧
    ∀ (memory : Heap) (flow : Flow Invocation) (tick : Tick), (terms program).heap memory →
      flow.stack.records = records → flow.coroutine = run →
        ∃ outcome, (flow.perform memory command tick).1 = .ok outcome ∧
          (terms program).Keeps (flow.perform memory command tick).2.1 (.ok outcome) ∧
          config.Moves program outcome.boundary
            (Config.ofFlow (flow.perform memory command tick).2.1)

variable {program : Program} {top : Record} {below : List Record} {frame : Frame}
  {frames : List Frame} {run : Invocation}

theorem Callers.exists_cons {records : List Record} (callers : Callers program records frames) :
    ∃ caller rest, records = caller :: rest := by
  cases callers <;> exact ⟨_, _, rfl⟩

theorem Carried.of_moves {records : List Record} {config config' : Config}
    {answer : Invocation.Answer} (carried : Carried program records config answer)
    (moves : ∀ {boundary next}, config.Moves program boundary next →
      config'.Moves program boundary next) : Carried program records config' answer := by
  obtain ⟨command, run, answered, performs⟩ := carried
  refine ⟨command, run, answered, fun memory flow tick installed records after => ?_⟩
  obtain ⟨outcome, done, keeps, moved⟩ := performs memory flow tick installed records after
  exact ⟨outcome, done, keeps, moves moved⟩

theorem carried_enter (sound : program.Sound) {target : Target} (within : target.Within program)
    (known : run.program = program) (entered : run.frames = frames)
    (callers : Callers program (top :: below) frames) {args : List Json} (isDependency : Bool)
    {config : Config} (moves : config.Moves program none (.go (target.frame args :: frames))) :
    Carried program (top :: below) config (run.enter target args isDependency) := by
  refine ⟨_, _, rfl, fun memory flow tick installed records after => ?_⟩
  have present : (memory.get? target.address.object).isNone = false := by
    have := installed target.image within.image
    cases found : memory.get? target.image.address with
    | none => simp [found] at this
    | some object => simp [Target.address, found]
  simp only [Flow.perform, Flow.load_eq records, present, Bool.false_eq_true, if_false]
  refine ⟨_, rfl, ?_, ?_⟩
  · have ready : (target.frame args).Ready program := ⟨⟨rfl, .inl rfl, sound.body within args⟩, rfl⟩
    refine .loaded ⟨?_, rfl, frames, ?_, callers⟩ (.inl ⟨rfl, ready⟩)
    · rw [Flow.withRecords, after]
      exact known
    · rw [Flow.withRecords, after, ← entered]
      rfl
  · rw [← entered] at moves
    simpa only [Config.ofFlow, Config.of, Flow.withRecords, after] using! moves

theorem carried_act (mirrors : Mirrors program top below frame run) (idle : top.operations = [])
    {action : Action Invocation} (allowed : (Move.act action).Allowed program frame)
    {earlier : Frame} (takes : earlier.Takes program (.act action) frame)
    (entered : run.frames = frame :: frames) :
    Carried program (top :: below) (.go (earlier :: frames))
      (.ok (.yielded ⟨frame.address, action⟩), run) := by
  refine ⟨_, _, rfl, ?_⟩
  rintro memory flow tick installed records rfl
  obtain ⟨caller, rest, rfl⟩ : ∃ caller rest, below = caller :: rest := by
    obtain ⟨frames, -, callers⟩ := mirrors.callers
    exact callers.exists_cons
  have accepted (command : String) := Flow.expectFrame_of_frame? records mirrors.place command
  have going (expects : frame.Expects program top) :
      Running program flow.stack.records flow.coroutine := by
    rw [records]
    exact .loaded mirrors expects
  have left : Config.ofFlow flow = .go (frame :: frames) := by
    simp only [Config.ofFlow, Config.of, records, idle, entered]
  cases action with
  | load params isDependency => exact allowed.elim
  | log entries =>
      simp only [Flow.perform, Flow.log, accepted, bind, Except.bind]
      exact ⟨_, rfl, going (.inl ⟨idle, allowed⟩), left ▸ .log takes⟩
  | halt covered total =>
      obtain ⟨begun, within, ready⟩ := allowed
      have inRange : ¬ (covered = 0 ∨ total < covered) := by omega
      simp only [Flow.perform, Flow.halt, accepted, bind, Except.bind, if_neg inRange]
      exact ⟨_, rfl, going (.inl ⟨idle, ready⟩), left ▸ .halt takes⟩
  | await request =>
      obtain ⟨waits, starts, shapely⟩ := allowed
      simp only [Flow.perform, Flow.await, accepted, bind, Except.bind]
      refine ⟨_, rfl, ⟨?_, starts, fun e refused => ?_⟩, left ▸ .await takes⟩
      · rw [records]
        exact .loaded mirrors waits
      · simp [shapely] at refused
  | unload value =>
      simp only [Flow.perform, Flow.unload_eq records mirrors.place]
      refine ⟨_, rfl, .loaded ⟨mirrors.known, ?_, mirrors.callers⟩ (.inr (.inr ⟨?_, allowed⟩)), ?_⟩
      · exact mirrors.place
      · simp [Record.push, idle]
      · simpa [Config.ofFlow, Config.of, Flow.withRecords, Record.push, idle, entered] using
          Config.Moves.unload takes

theorem carried_advance (sound : program.Sound) (mirrors : Mirrors program top below frame run)
    (idle : top.operations = []) (ready : frame.Ready program)
    (entered : run.frames = frame :: frames) :
    Carried program (top :: below) (.go (frame :: frames)) run.advance := by
  obtain ⟨known, place, frames', entered', callers⟩ := mirrors
  obtain rfl : frames' = frames := by simpa [entered] using entered'.symm
  obtain ⟨move, next, moved, same, allowed, takes⟩ := Frame.next_allowed ready
  rw [← same] at place
  cases move with
  | enter target args isDependency =>
      obtain ⟨within, waits⟩ := allowed
      have opened : run.advance =
          Invocation.enter { run with frames := next :: frames' } target args isDependency := by
        simp only [Invocation.advance, entered, ready.loaded, known, moved]
        rfl
      rw [opened]
      refine carried_enter sound within ?_ ?_ (.frame place waits callers) isDependency (.call takes)
      · exact known
      · rfl
  | act action =>
      have opened : run.advance = (.ok (.yielded ⟨next.address, action⟩),
          { run with frames := next :: frames' }) := by
        simp only [Invocation.advance, entered, ready.loaded, known, moved]
        rfl
      have mirrors : Mirrors program top below next { run with frames := next :: frames' } :=
        ⟨known, place, frames', rfl, callers⟩
      rw [opened]
      exact carried_act mirrors idle allowed takes rfl

theorem carried_deliver (sound : program.Sound) (mirrors : Mirrors program top below frame run)
    (idle : top.operations = []) (waits : frame.Waits program) (value : Json)
    (entered : run.frames = frame :: frames) :
    Carried program (top :: below) (.hand value (frame :: frames)) (run.deliver value) := by
  obtain ⟨known, place, frames', entered', callers⟩ := mirrors
  obtain rfl : frames' = frames := by simpa [entered] using entered'.symm
  have opened : run.deliver value =
      Invocation.advance { run with frames := frame.deliver value :: frames' } := by
    simp only [Invocation.deliver, entered]
  rw [opened]
  refine Carried.of_moves (carried_advance sound ⟨known, ?_, frames', rfl, callers⟩ idle
    (waits.deliver value) rfl) .deliver
  rw [place, Frame.address_deliver]

variable {memory : Heap} {flow : Flow Invocation} {tick : Tick}

def StepsOn (program : Program) (memory : Heap) (flow : Flow Invocation) (tick : Tick) : Prop :=
  ∃ outcome, (flow.step memory tick).result = .ok outcome ∧
    (terms program).Keeps (flow.step memory tick).flow (.ok outcome) ∧
    (Config.ofFlow flow).Moves program outcome.boundary
      (Config.ofFlow (flow.step memory tick).flow)

theorem stepsOn_of_carried {input : Input} {popped : Option Address} {records : List Record}
    (taken : flow.takeInput = .ok (input, popped, flow.withRecords records))
    (carried : Carried program records (Config.ofFlow flow) (flow.coroutine.resume input))
    (installed : (terms program).heap memory) (tick : Tick) : StepsOn program memory flow tick := by
  obtain ⟨command, run, answer, performs⟩ := carried
  have answered : Coroutine.resume (flow.withRecords records).coroutine input =
      (.ok (.yielded command), run) := answer
  unfold StepsOn Flow.step
  rw [taken]
  simp only [answered]
  exact performs memory _ tick installed rfl rfl

theorem stepsOn_of_left (sound : program.Sound) (installed : (terms program).heap memory)
    (shape : Stack.Shape (top :: below)) (stacked : flow.stack.records = top :: below)
    (mirrors : Mirrors program top below frame flow.coroutine)
    (returned : top.operations = [.provideReturnAndPop]) (left : frame.Left program)
    (tick : Tick) : StepsOn program memory flow tick := by
  generalize handed : top.returnValue.getD .null = value
  have taken : flow.takeInput =
      .ok (.returned value, top.address?, flow.withRecords below) := by
    simp only [Flow.takeInput, stacked, returned, handed]
    rfl
  obtain ⟨known, place, frames, entered, callers⟩ := mirrors
  have config : Config.ofFlow flow = .hand value frames := by
    simp only [Config.ofFlow, Config.of, stacked, returned, handed, entered, List.tail_cons]
  cases callers with
  | @entry bottom unloaded =>
      have complete : flow.coroutine.leave value =
          (.ok (.complete value), { flow.coroutine with frames := [] }) := by
        simp [Invocation.leave, entered, left.unloaded]
      have answered : Coroutine.resume (flow.withRecords [bottom]).coroutine (.returned value) =
          (.ok (.complete value), { flow.coroutine with frames := [] }) := complete
      have idle : bottom.operations = [] := by
        cases shape with
        | frame place pending idle shape => exact idle bottom (List.mem_cons_self ..)
      unfold StepsOn
      rw [config]
      unfold Flow.step
      rw [taken]
      simp only [answered, Flow.finish, Record.address?_of_frame? place]
      refine ⟨_, rfl, trivial, ?_⟩
      simpa only [Config.ofFlow, Config.of, Flow.withRecords, idle] using! Config.Moves.complete
  | @frame caller records inner frames place' waits callers =>
      have idle : caller.operations = [] := by
        cases shape with
        | frame place pending idle shape => exact idle caller (List.mem_cons_self ..)
      have mirrors : Mirrors program caller records inner
          { flow.coroutine with frames := inner :: frames } :=
        ⟨known, place', frames, rfl, callers⟩
      have dropped : flow.coroutine.leave value =
          Invocation.deliver { flow.coroutine with frames := inner :: frames } value := by
        simp [Invocation.leave, entered, left.unloaded]
      refine stepsOn_of_carried taken ?_ installed tick
      show Carried program _ _ (flow.coroutine.leave value)
      rw [dropped, config]
      exact carried_deliver sound mirrors idle waits value rfl

theorem stepsOn (sound : program.Sound) (installed : (terms program).heap memory)
    (shape : Stack.Shape flow.stack.records)
    (running : Running program flow.stack.records flow.coroutine) (tick : Tick) :
    StepsOn program memory flow tick := by
  generalize stacked : flow.stack.records = records at shape running
  generalize resumed : flow.coroutine = run at running
  -- What is pending on the top record decides with what the invocation is resumed.
  cases running with
  | @entry record run place pending starts =>
      obtain ⟨target, within, rfl⟩ := starts
      have taken : flow.takeInput =
          .ok (.params record.params, none, flow.withRecords [{ record with operations := [] }]) := by
        simp only [Flow.takeInput, stacked, pending]
        rfl
      have callers : Callers program [{ record with operations := [] }] [] := .entry place
      have config : Config.ofFlow flow = .enter target record.params := by
        simp only [Config.ofFlow, Config.of, stacked, pending, resumed]
      refine stepsOn_of_carried taken ?_ installed tick
      rw [resumed, config]
      show Carried program _ _
        (Invocation.enter { program, entry := target, started := true } target record.params false)
      exact carried_enter sound within rfl rfl callers false .enter
  | @loaded top below frame run mirrors expects =>
      obtain ⟨frames, entered, -⟩ := mirrors.callers
      rcases expects with ⟨idle, ready⟩ | ⟨⟨value, given⟩, waits⟩ | ⟨returned, left⟩
      · have taken : flow.takeInput = .ok (.proceed, none, flow.withRecords (top :: below)) := by
          simp only [Flow.takeInput, Flow.withRecords, stacked, idle]
          rw [← stacked]
        have config : Config.ofFlow flow = .go (frame :: frames) := by
          simp only [Config.ofFlow, Config.of, stacked, idle, resumed, entered]
        refine stepsOn_of_carried taken ?_ installed tick
        rw [resumed, config]
        exact carried_advance sound mirrors idle ready entered
      · have taken : flow.takeInput =
            .ok (.given value, none, flow.withRecords ({ top with operations := [] } :: below)) := by
          simp only [Flow.takeInput, stacked, given]
          rfl
        have mirrors' : Mirrors program { top with operations := [] } below frame run :=
          ⟨mirrors.known, mirrors.place, mirrors.callers⟩
        have config : Config.ofFlow flow = .hand value (frame :: frames) := by
          simp only [Config.ofFlow, Config.of, stacked, given, resumed, entered]
        refine stepsOn_of_carried taken ?_ installed tick
        rw [resumed, config]
        exact carried_deliver sound mirrors' rfl waits value entered
      · subst resumed
        exact stepsOn_of_left sound installed shape stacked mirrors returned left tick

theorem step_keeps (sound : program.Sound) (installed : (terms program).heap memory)
    (shape : Stack.Shape flow.stack.records)
    (running : Running program flow.stack.records flow.coroutine) (tick : Tick) :
    (terms program).Keeps (flow.step memory tick).flow (flow.step memory tick).result := by
  obtain ⟨outcome, done, keeps, -⟩ := stepsOn sound installed shape running tick
  rw [done]
  exact keeps

theorem Parked.resume (waiting : Parked program (top :: below) run) (idle : top.operations = [])
    (value : Json) : Running program (top.push (.provideGiven value) :: below) run := by
  cases waiting with
  | loaded mirrors waits =>
      refine .loaded ⟨mirrors.known, mirrors.place, mirrors.callers⟩ (.inr (.inl ⟨⟨value, ?_⟩, waits⟩))
      simp [Record.push, idle]

def Program.Sound.contract (sound : program.Sound) : Contract Invocation where
  toTerms := terms program
  grow grows installed image member := grows.objects _ (installed image member)
  start _ _ _ starts := .entry rfl rfl starts
  resume value still waiting := waiting.resume (still.idle _ (List.mem_cons_self ..)) value
  step tick installed sound' running := step_keeps sound installed sound'.shape running tick

end Cadence.Scenario
