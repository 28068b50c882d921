import Cadence.Flow.Step
import Cadence.Proofs.Scenario.Invocation
/-!
What is left of an invocation between two steps of its flow: the frames that are still to go on,
and the value that is on its way to the innermost of them.
-/

namespace Cadence.Scenario

inductive Config where
  | enter (target : Target) (args : List Json)
  | go (frames : List Frame)
  | hand (value : Json) (frames : List Frame)

def Target.frame (target : Target) (args : List Json) : Frame where
  address := target.address
  rest := target.method.body
  locals := target.locals args

namespace Config

def of (records : List Record) (run : Invocation) : Config :=
  match records with
  | [] => go run.frames
  | top :: _ =>
    match top.operations with
    | [] => go run.frames
    | .provideParams :: _ => enter run.entry top.params
    | .provideGiven value :: _ => hand value run.frames
    | .provideReturnAndPop :: _ => hand (top.returnValue.getD .null) run.frames.tail

def ofFlow (flow : Flow Invocation) : Config :=
  of flow.stack.records flow.coroutine

def isEntered : Config → Bool
  | enter _ _ => false
  | go _ | hand _ _ => true

/-- One step, with the boundary that it leads to. A value on its way is handed over at once. -/
inductive Moves (program : Program) : Config → Option (Boundary Invocation) → Config → Prop
  | enter {target : Target} {args : List Json} :
      Moves program (enter target args) none (go [target.frame args])
  | log {frame after : Frame} {frames : List Frame} {entries : List Json}
      (takes : frame.Takes program (.act (.log entries)) after) :
      Moves program (go (frame :: frames)) none (go (after :: frames))
  | call {frame after : Frame} {frames : List Frame} {target : Target} {args : List Json}
      {isDependency : Bool} (takes : frame.Takes program (.enter target args isDependency) after) :
      Moves program (go (frame :: frames)) none (go (target.frame args :: after :: frames))
  | halt {frame after : Frame} {frames : List Frame} {covered total : Nat}
      (takes : frame.Takes program (.act (.halt covered total)) after) :
      Moves program (go (frame :: frames)) (some .halt) (go (after :: frames))
  | await {frame after : Frame} {frames : List Frame} {request : Request Invocation}
      {caller : Address} (takes : frame.Takes program (.act (.await request)) after) :
      Moves program (go (frame :: frames)) (some (.await request caller)) (go (after :: frames))
  | unload {frame after : Frame} {frames : List Frame} {value : Json}
      (takes : frame.Takes program (.act (.unload value)) after) :
      Moves program (go (frame :: frames)) none (hand value frames)
  | deliver {frame : Frame} {frames : List Frame} {value : Json}
      {boundary : Option (Boundary Invocation)} {next : Config}
      (goesOn : Moves program (go (frame.deliver value :: frames)) boundary next) :
      Moves program (hand value (frame :: frames)) boundary next
  | complete {value : Json} {last : Option Address} :
      Moves program (hand value []) (some (.complete value last)) (go [])

theorem Moves.isEntered {program : Program} {config next : Config}
    {boundary : Option (Boundary Invocation)} (moves : config.Moves program boundary next) :
    next.isEntered = true := by
  induction moves with
  | deliver moves ih => exact ih
  | _ => rfl

theorem Moves.await_spec {program : Program} {config next : Config} {request : Request Invocation}
    {caller : Address} (moves : config.Moves program (some (.await request caller)) next) :
    (∃ frames, next = go frames) ∧
      ∀ flow, request.strategy.check flow request.recipes.length = .ok () := by
  generalize reached : some (Boundary.await request caller) = boundary at moves
  induction moves with
  | await takes =>
      obtain ⟨rfl, -⟩ := Boundary.await.inj (Option.some.inj reached)
      cases takes with
      | await left rested shapely evaluated =>
          refine ⟨⟨_, rfl⟩, fun flow => ?_⟩
          simp only [List.length_map, ← evaluated.length_eq]
          exact check_of_isShapely shapely flow
  | deliver moves ih => exact ih reached
  | halt => simp at reached
  | complete => simp at reached
  | _ => cases reached

variable {flow : Flow Invocation} {input : Input} {popped : Option Address}
  {taken : Flow Invocation} {args : List Json}

theorem takeInput_params (took : flow.takeInput = .ok (input, popped, taken)) :
    input = .params args ↔ ofFlow flow = enter flow.coroutine.entry args := by
  unfold ofFlow of
  unfold Flow.takeInput at took
  cases records : flow.stack.records with
  | nil =>
      simp only [records] at took
      cases took
  | cons top below =>
      simp only [records] at took ⊢
      rcases pending : top.operations with _ | ⟨_ | value | _, rest⟩
      all_goals
        simp only [pending] at took ⊢
        obtain ⟨rfl, -⟩ := Prod.mk.inj (Except.ok.inj took)
        simp

theorem entry_of_enter {target : Target} (begins : ofFlow flow = enter target args) :
    flow.coroutine.entry = target := by
  unfold ofFlow of at begins
  split at begins
  · cases begins
  · split at begins
    · cases begins
    · exact (Config.enter.inj begins).1
    · cases begins
    · cases begins

end Config

namespace Invocation

variable (run : Invocation)

theorem entry_advance : run.advance.2.entry = run.entry := by
  unfold advance
  split
  · rfl
  · split
    · rfl
    · simp only
      split <;> rfl

theorem entry_deliver (value : Json) : (run.deliver value).2.entry = run.entry := by
  unfold deliver
  split
  · rfl
  · exact entry_advance _

theorem entry_resume (input : Input) : (run.resume input).2.entry = run.entry := by
  unfold resume
  split
  · split <;> rfl
  · exact run.entry_deliver _
  · unfold leave
    split
    · rfl
    · simp only
      split
      · rfl
      · split
        · rfl
        · exact entry_deliver _ _
  · exact run.entry_advance

end Invocation

end Cadence.Scenario
