import Cadence.Proofs.Scenario.Run
import Cadence.Proofs.Simulation.Diary
/-!
Methods sleep for as long as they say. The ticks that have passed are counted in the frame that
sleeps and in no other, whatever that frame was called from and whatever it has slept before.
-/

namespace Cadence.Scenario

variable {program : Program} {config next : Config} {boundary : Option (Boundary Invocation)}
  {frame : Frame} {callers : List Frame} {rest : List Instruction} {ticks : Nat}
  {run : Invocation} {input : Input}

namespace Config

def handed (run : Invocation) : Input → Config
  | .params args => enter run.entry args
  | .given value => hand value run.frames
  | .returned value => hand value run.frames.tail
  | .proceed => go run.frames

def front : Config → List Frame
  | enter _ _ | hand _ [] => []
  | go frames => frames
  | hand value (frame :: callers) => frame.deliver value :: callers

def Drowsy : Config → Prop
  | enter _ _ => True
  | go frames => ∀ frame ∈ frames.tail, frame.slept = 0
  | hand _ frames => ∀ frame ∈ frames, frame.slept = 0

def Rested : Config → Prop
  | enter _ _ => True
  | go frames | hand _ frames => ∀ frame ∈ frames, frame.slept = 0

theorem handed_of_takeInput {flow taken : Flow Invocation} {popped : Option Address}
    (took : flow.takeInput = .ok (input, popped, taken)) :
    ofFlow flow = handed flow.coroutine input := by
  unfold ofFlow of
  unfold Flow.takeInput at took
  cases records : flow.stack.records with
  | nil =>
      simp only [records] at took
      cases took
  | cons top below =>
      simp only [records] at took ⊢
      rcases pending : top.operations with _ | ⟨_ | value | _, rest⟩
      all_goals
        simp only [pending] at took ⊢
        obtain ⟨rfl, -⟩ := Prod.mk.inj (Except.ok.inj took)
        rfl

end Config

@[simp] theorem slept_deliver (frame : Frame) (value : Json) :
    (frame.deliver value).slept = frame.slept := by
  unfold Frame.deliver
  split <;> rfl

def Frame.doze (frame : Frame) (ticks : Nat) (rest : List Instruction) : Frame :=
  if frame.slept + 1 < ticks then { frame with slept := frame.slept + 1, rest := .sleep ticks :: rest }
  else { frame with slept := 0, rest }

structure Config.Sleeps (config : Config) (frame : Frame) (callers : List Frame) (ticks : Nat)
    (rest : List Instruction) : Prop where
  front : config.front = frame :: callers
  left : frame.rest.dropWhile Instruction.isPause = .sleep ticks :: rest

theorem Config.Moves.sleep (moves : config.Moves program boundary next)
    (sleeps : config.Sleeps frame callers ticks rest) : boundary = some .halt ∧
      frame.slept < ticks ∧ next = .go (frame.doze ticks rest :: callers) := by
  obtain ⟨front, left⟩ := sleeps
  have here {move : Move} {after : Frame} (takes : frame.Takes program move after) :
      move = .act (.halt (frame.slept + 1) ticks) ∧ frame.slept < ticks ∧
        after = frame.doze ticks rest := by
    cases takes with
    | wake left' =>
        obtain ⟨same, rfl⟩ := List.cons.inj (left'.symm.trans left)
        obtain rfl := Instruction.sleep.inj same
        exact ⟨rfl, Nat.lt_succ_self _, by simp [Frame.doze]⟩
    | sleep left' unfinished =>
        obtain ⟨same, rfl⟩ := List.cons.inj (left'.symm.trans left)
        obtain rfl := Instruction.sleep.inj same
        exact ⟨rfl, by omega, by simp [Frame.doze, unfinished]⟩
    | fall left' => cases left'.symm.trans left
    | log left' => cases left'.symm.trans left
    | call left' => cases left'.symm.trans left
    | await left' => cases left'.symm.trans left
    | ret left' => cases left'.symm.trans left
  induction moves with
  | enter => cases front
  | log takes =>
      obtain ⟨rfl, rfl⟩ := List.cons.inj front
      cases (here takes).1
  | call takes =>
      obtain ⟨rfl, rfl⟩ := List.cons.inj front
      cases (here takes).1
  | halt takes =>
      obtain ⟨rfl, rfl⟩ := List.cons.inj front
      obtain ⟨-, less, rfl⟩ := here takes
      exact ⟨rfl, less, rfl⟩
  | await takes =>
      obtain ⟨rfl, rfl⟩ := List.cons.inj front
      cases (here takes).1
  | unload takes =>
      obtain ⟨rfl, rfl⟩ := List.cons.inj front
      cases (here takes).1
  | deliver moves ih => exact ih front
  | complete => cases front

theorem Config.Moves.sleeps_of_halt (moves : config.Moves program (some .halt) next) :
    ∃ frame callers ticks rest, config.Sleeps frame callers ticks rest := by
  generalize reached : some Boundary.halt = boundary at moves
  induction moves with
  | halt takes =>
      cases takes with
      | wake left => exact ⟨_, _, _, _, rfl, left⟩
      | sleep left unfinished => exact ⟨_, _, _, _, rfl, left⟩
  | deliver moves ih =>
      obtain ⟨frame, callers, ticks, rest, front, left⟩ := ih reached
      exact ⟨frame, callers, ticks, rest, front, left⟩
  | await takes => simp at reached
  | complete => simp at reached
  | _ => cases reached

theorem Config.Moves.drowsy (moves : config.Moves program boundary next) (drowsy : config.Drowsy) :
    next.Drowsy ∧ (boundary ≠ some .halt → next.Rested) := by
  induction moves with
  | enter => exact ⟨by simp [Drowsy], fun _ => by simp [Rested, Target.frame]⟩
  | log takes =>
      cases takes with
      | log left rested => exact ⟨drowsy, fun _ => List.forall_mem_cons.2 ⟨rested, drowsy⟩⟩
  | call takes =>
      cases takes with
      | call left rested =>
          exact ⟨List.forall_mem_cons.2 ⟨rested, drowsy⟩, fun _ =>
            List.forall_mem_cons.2 ⟨rfl, List.forall_mem_cons.2 ⟨rested, drowsy⟩⟩⟩
  | halt takes => exact ⟨drowsy, fun goesOn => absurd rfl goesOn⟩
  | await takes =>
      cases takes with
      | await left rested => exact ⟨drowsy, fun _ => List.forall_mem_cons.2 ⟨rested, drowsy⟩⟩
  | unload takes => exact ⟨drowsy, fun _ => drowsy⟩
  | deliver moves ih => exact ih (List.forall_mem_cons.1 drowsy).2
  | complete => exact ⟨by simp [Drowsy], fun _ => by simp [Rested]⟩

theorem advance_sleep {signal : Signal Invocation} {after : Invocation}
    (entered : run.frames = frame :: callers)
    (left : frame.rest.dropWhile Instruction.isPause = .sleep ticks :: rest)
    (answer : run.advance = (.ok signal, after)) :
    signal = .yielded ⟨frame.address, .halt (frame.slept + 1) ticks⟩ ∧
      after.frames = frame.doze ticks rest :: callers := by
  simp only [Invocation.advance, entered] at answer
  split at answer
  · cases (Prod.mk.inj answer).1
  · simp only [Frame.next, left] at answer
    unfold Frame.doze
    by_cases unfinished : frame.slept + 1 < ticks
    · simp only [if_neg (Nat.not_le_of_lt unfinished)] at answer
      obtain ⟨same, rfl⟩ := Prod.mk.inj answer
      obtain rfl := Except.ok.inj same
      rw [if_pos unfinished]
      exact ⟨rfl, rfl⟩
    · simp only [if_pos (Nat.le_of_not_lt unfinished)] at answer
      obtain ⟨same, rfl⟩ := Prod.mk.inj answer
      obtain rfl := Except.ok.inj same
      rw [if_neg unfinished]
      exact ⟨rfl, rfl⟩

theorem resume_sleep {signal : Signal Invocation} {after : Invocation}
    (sleeps : (Config.handed run input).Sleeps frame callers ticks rest)
    (answer : run.resume input = (.ok signal, after)) :
    signal = .yielded ⟨frame.address, .halt (frame.slept + 1) ticks⟩ ∧
      after.frames = frame.doze ticks rest :: callers := by
  obtain ⟨front, left⟩ := sleeps
  have delivered (run : Invocation) {value : Json}
      (front : (Config.hand value run.frames).front = frame :: callers)
      (answer : run.deliver value = (.ok signal, after)) :
      signal = .yielded ⟨frame.address, .halt (frame.slept + 1) ticks⟩ ∧
        after.frames = frame.doze ticks rest :: callers := by
    unfold Invocation.deliver at answer
    split at answer
    · cases (Prod.mk.inj answer).1
    next inner others entered =>
      rw [entered] at front
      exact advance_sleep front left answer
  cases input with
  | params args => cases front
  | given value => exact delivered run front answer
  | returned value =>
      simp only [Invocation.resume, Invocation.leave] at answer
      split at answer
      · cases (Prod.mk.inj answer).1
      next inner others entered =>
        simp only [Config.handed, entered, List.tail_cons] at front
        split at answer
        · cases (Prod.mk.inj answer).1
        · split at answer
          next last =>
            rw [List.isEmpty_iff.1 last] at front
            cases front
          next => exact delivered { run with frames := others } front answer
  | proceed => exact advance_sleep front left answer

theorem Config.frames_of_go {records : List Record} {frames : List Frame}
    (goes : Config.of records run = .go frames) : run.frames = frames := by
  unfold of at goes
  split at goes
  · exact Config.go.inj goes
  · split at goes
    · exact Config.go.inj goes
    · cases goes
    · cases goes
    · cases goes

def Program.Sound.restful (sound : program.Sound) : Contract Invocation where
  heap := sound.contract.heap
  starts := sound.contract.starts
  running records run := sound.contract.running records run ∧ (Config.of records run).Drowsy
  parked records run := sound.contract.parked records run ∧ ∀ frame ∈ run.frames, frame.slept = 0
  faults := sound.contract.faults
  grow := sound.contract.grow
  start caller args isDependency starts :=
    ⟨sound.contract.start caller args isDependency starts, trivial⟩
  resume {top below run} value still parked := by
    refine ⟨sound.contract.resume value still parked.1, ?_⟩
    have goes : Config.of (top.push (.provideGiven value) :: below) run = .hand value run.frames := by
      simp [Config.of, Record.push, still.idle top (List.mem_cons_self ..)]
    rw [goes]
    exact parked.2
  step {memory flow} tick installed sound' running := by
    obtain ⟨outcome, done, keeps, moves⟩ := stepsOn sound installed sound'.shape running.1 tick
    obtain ⟨drowsy, rested⟩ := moves.drowsy running.2
    rw [done]
    unfold Terms.Keeps at keeps ⊢
    simp only at keeps ⊢
    cases reached : outcome.boundary with
    | none =>
        simp only [reached] at keeps
        exact ⟨keeps, drowsy⟩
    | some boundary =>
        cases boundary with
        | halt =>
            simp only [reached] at keeps
            exact ⟨keeps, drowsy⟩
        | await request caller =>
            simp only [reached] at keeps
            obtain ⟨parked, starts, refused⟩ := keeps
            rw [reached] at moves rested
            obtain ⟨⟨frames, goes⟩, -⟩ := moves.await_spec
            have still := rested (by simp)
            rw [goes] at still
            refine ⟨⟨parked, ?_⟩, starts, fun e known => ?_⟩
            · rw [Config.frames_of_go goes]
              exact still
            · exact ⟨(refused e known).1, (refused e known).2, drowsy⟩
        | complete value last => trivial

theorem Unstepped.restful {sound : program.Sound} {sim : Simulation Invocation} {lineage : Lineage}
    (unstepped : Unstepped sim) (holds : sound.contract.Holds ⟨sim, lineage⟩) :
    sound.restful.Holds ⟨sim, lineage⟩ where
  orders := by
    refine ⟨holds.orders.forest, fun id phase found => ?_⟩
    have active := holds.orders.admits id phase found
    obtain ⟨recipe, rfl⟩ := unstepped.flows id phase found
    exact { active with running := ⟨active.running, trivial⟩ }
  unsettled := holds.unsettled
  heap := holds.heap
  tasks := ⟨holds.tasks.numbered, holds.tasks.starts⟩

def Config.ofExchange (exchange : Exchange Invocation) : Config :=
  handed exchange.state exchange.input

theorem Config.Rested.slept (rested : config.Rested) (front : config.front = frame :: callers) :
    frame.slept = 0 := by
  cases config with
  | enter target args => cases front
  | go frames =>
      obtain rfl : frames = frame :: callers := front
      exact rested frame (List.mem_cons_self ..)
  | hand value frames =>
      cases frames with
      | nil => cases front
      | cons inner others =>
          obtain ⟨rfl, rfl⟩ := List.cons.inj front
          rw [slept_deliver]
          exact rested inner (List.mem_cons_self ..)

theorem Config.rested_of_drowsy (drowsy : (handed run input).Drowsy) (given : input ≠ .proceed) :
    (handed run input).Rested := by
  cases input with
  | proceed => exact absurd rfl given
  | params args => trivial
  | given value => exact drowsy
  | returned value => exact drowsy

theorem rested_of_replies {exchange : Exchange Invocation} {later : Flow Invocation} {heap : Heap}
    (answered : later.Answered exchange.answer boundary) (sound : later.Sound heap)
    (next : later.coroutine = exchange.next) (goesOn : boundary ≠ some .halt)
    (rested : (Config.ofFlow later).Rested) (replies : exchange.Replies input) :
    (Config.handed exchange.next input).Rested := by
  obtain ⟨command, answer, reply⟩ := replies
  obtain ⟨address, action⟩ := command
  cases boundary with
  | none =>
      obtain ⟨command', input', answer', plain, provides⟩ := answered
      obtain rfl : ⟨address, action⟩ = command' :=
        Signal.yielded.inj (Except.ok.inj (answer.symm.trans answer'))
      obtain ⟨popped, records, took, -⟩ := Flow.takeInput_of_provides provides sound.shape
      rw [Config.handed_of_takeInput took, next] at rested
      have same {other : Input} (reply : action.reply? [] none = some other) : input' = other :=
        Option.some.inj (plain.symm.trans reply)
      cases action with
      | await request => cases plain
      | halt covered total => exact reply.elim
      | load params isDependency => exact same reply ▸ rested
      | log entries => exact same reply ▸ rested
      | unload value => exact same reply ▸ rested
  | some boundary =>
      cases boundary with
      | halt => exact absurd rfl goesOn
      | await request caller =>
          obtain ⟨answer', top, below, records, -, idle⟩ := answered
          obtain ⟨rfl, rfl⟩ := Command.mk.inj
            (Signal.yielded.inj (Except.ok.inj (answer.symm.trans answer')))
          obtain ⟨value, rfl⟩ := reply
          have goes : Config.ofFlow later = .go exchange.next.frames := by
            simp only [Config.ofFlow, Config.of, records, idle top (List.mem_cons_self ..), next]
          rw [goes] at rested
          exact rested
      | complete value last =>
          have answer' : exchange.answer = .ok (.complete value) := answered
          simp [answer'] at answer

section Gives

variable {sound : program.Sound} {tick : Tick} {exchange : Exchange Invocation}

structure Advances (program : Program) (tick : Tick) (exchange : Exchange Invocation)
    (boundary : Option (Boundary Invocation)) (next : Config) : Prop where
  moves : (Config.ofExchange exchange).Moves program boundary next
  drowsy : (Config.ofExchange exchange).Drowsy
  asleep : boundary = some .halt ↔ ∃ halt, exchange.halt? tick = some halt
  answer : exchange.answer = (exchange.state.resume exchange.input).1
  rested : ∀ input, exchange.Replies input → (Config.handed exchange.next input).Rested

theorem advances_of_gives (gives : sound.restful.Gives tick exchange) :
    ∃ boundary next, Advances program tick exchange boundary next := by
  obtain ⟨flow, heap, outcome, installed, sound', running, done, exchanges⟩ := gives
  obtain ⟨outcome', done', keeps, moves⟩ := stepsOn sound installed sound'.shape running.1 tick
  obtain rfl := Except.ok.inj (done.symm.trans done')
  obtain ⟨-, later, -⟩ := Flow.step_advances sound' tick
  obtain ⟨popped, taken, took⟩ := exchanges.hands.taken
  have same : Config.ofFlow flow = .ofExchange exchange := by
    rw [Config.handed_of_takeInput took, Config.ofExchange, exchanges.hands.state]
  have drowsy : (Config.ofFlow flow).Drowsy := running.2
  have asleep : outcome.boundary = some .halt ↔ ∃ halt, exchange.halt? tick = some halt := by
    cases exchanges.speaks with
    | awake goesOn awake =>
        simp [goesOn, awake.asked exchange (List.mem_singleton_self _)]
    | asleep sleeps halts => simp [sleeps, halts]
  rw [same] at moves drowsy
  refine ⟨_, _, moves, drowsy, asleep, exchanges.hands.answer, fun input replies => ?_⟩
  have goesOn : outcome.boundary ≠ some .halt := by
    intro sleeps
    obtain ⟨halt, halts⟩ := asleep.1 sleeps
    obtain ⟨⟨address, action⟩, answer, reply⟩ := replies
    cases action with
    | halt covered total => exact reply
    | _ => simp [Exchange.halt?, answer] at halts
  have rested := (moves.drowsy drowsy).2 goesOn
  exact rested_of_replies exchanges.answered later exchanges.next goesOn rested replies

theorem Advances.sleep (advances : Advances program tick exchange boundary next)
    (sleeps : (Config.ofExchange exchange).Sleeps frame callers ticks rest) :
    frame.slept < ticks ∧
      exchange.halt? tick =
        some { traffic := .halt frame.address (frame.slept + 1) ticks, tick } ∧
      exchange.next.frames = frame.doze ticks rest :: callers := by
  obtain ⟨reached, less, -⟩ := advances.moves.sleep sleeps
  obtain ⟨halt, halts⟩ := advances.asleep.1 reached
  have answered := advances.answer
  cases answer : exchange.answer with
  | error message => simp [Exchange.halt?, answer] at halts
  | ok signal =>
      have resumed : exchange.state.resume exchange.input = (.ok signal, exchange.next) :=
        Prod.ext (answered.symm.trans answer) rfl
      obtain ⟨rfl, frames⟩ := resume_sleep sleeps resumed
      exact ⟨less, by simp [Exchange.halt?, answer], frames⟩

theorem Advances.sleeps_of_front (advances : Advances program tick exchange boundary next)
    {halt : Response} (halts : exchange.halt? tick = some halt)
    (front : exchange.next.frames = frame :: callers) {passed : Nat} (slept : frame.slept = passed + 1)
    (left : frame.rest.dropWhile Instruction.isPause = .sleep ticks :: rest) :
    ∃ earlier, (Config.ofExchange exchange).Sleeps earlier callers ticks rest ∧
      earlier.slept = passed ∧ { earlier with slept := 0, rest } = { frame with slept := 0, rest } := by
  obtain ⟨earlier, callers', ticks', rest', sleeps⟩ :=
    (advances.asleep.2 ⟨halt, halts⟩ ▸ advances.moves).sleeps_of_halt
  obtain ⟨-, -, frames⟩ := advances.sleep sleeps
  obtain ⟨same, rfl⟩ := List.cons.inj (frames.symm.trans front)
  subst same
  unfold Frame.doze at slept left ⊢
  by_cases unfinished : earlier.slept + 1 < ticks'
  · rw [if_pos unfinished] at slept left ⊢
    have busy : ¬ Instruction.isPause (.sleep ticks') = true := by
      obtain ⟨n, rfl⟩ := Nat.exists_eq_succ_of_ne_zero (Nat.ne_zero_of_lt unfinished)
      simp [Instruction.isPause]
    obtain ⟨same, rfl⟩ := List.cons.inj ((List.dropWhile_cons_of_neg busy).symm.trans left)
    obtain rfl := Instruction.sleep.inj same
    exact ⟨earlier, sleeps, Nat.succ.inj slept, rfl⟩
  · rw [if_neg unfinished] at slept
    cases slept

end Gives

end Cadence.Scenario
