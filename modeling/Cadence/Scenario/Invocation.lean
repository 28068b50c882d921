import Cadence.Scenario.Basic
/-!
Running the methods of a scenario. An invocation is a coroutine that keeps one frame for each
method it has entered: the instructions that are left, the local variables, and the variable that
waits for the value of the call or await in progress.
-/

namespace Cadence.Scenario

structure Image where
  name : String
  address : String
  fields : Fields Json
  methods : List Method

abbrev Program := List Image

structure Target where
  image : Image
  offset : Nat
  method : Method

namespace Target

def address (target : Target) : Address :=
  ⟨target.image.address, target.offset⟩

def nodeId (target : Target) : String :=
  target.image.name ++ "." ++ target.method.name

/-- The parameters over the fields; a missing argument is null and extra ones are ignored. -/
def bindParams : List String → List Json → Fields Json → Fields Json
  | [], _, locals => locals
  | param :: params, args, locals =>
    bindParams params args.tail (locals.insert param (args.head?.getD .null))

def locals (target : Target) (args : List Json) : Fields Json :=
  bindParams target.method.params args target.image.fields

end Target

def Program.resolve (program : Program) (service method : String) : Option Target := do
  let image ← program.find? (·.name = service)
  let offset ← image.methods.findIdx? (·.name = method)
  let method ← image.methods[offset]?
  return ⟨image, offset, method⟩

structure Frame where
  address : Address
  rest : List Instruction
  locals : Fields Json
  slept : Nat := 0
  pendingBind : Option String := none
  unloaded : Bool := false

/-- A run of one method with the methods it calls, the innermost frame first. -/
structure Invocation where
  program : Program
  entry : Target
  frames : List Frame := []
  started : Bool := false

def Program.recipe (program : Program) (target : Target) (args : List Json) :
    Recipe Invocation where
  name := target.nodeId
  args := args
  start := { program, entry := target }

def substituteAll (locals : Fields Json) (values : List Json) : Except String (List Json) :=
  (Json.substituteItems locals values).mapError unboundMessage

def Program.evaluate (program : Program) (locals : Fields Json) (call : Call) :
    Except String (Target × List Json) := do
  let args ← substituteAll locals call.args
  match program.resolve call.service call.method with
  | some target => return (target, args)
  | none => throw s!"unknown method '{call.nodeId}'"

def Instruction.isPause : Instruction → Bool
  | sleep 0 => true
  | _ => false

inductive Move where
  | act (action : Action Invocation)
  | enter (target : Target) (args : List Json) (isDependency : Bool)

namespace Frame

def deliver (frame : Frame) (value : Json) : Frame :=
  match frame.pendingBind with
  | none => frame
  | some name =>
    { frame with pendingBind := none, locals := frame.locals.insert name value }

/--
The next instruction, sleeps of no ticks passed over. The frame moves past an instruction before
its values are evaluated; it stays at a sleep until the last tick of it.
-/
def next (program : Program) (frame : Frame) : Except String Move × Frame :=
  match frame.rest.dropWhile Instruction.isPause with
  | [] => (.ok (.act (.unload .null)), { frame with rest := [], unloaded := true })
  | .log value :: rest =>
    let logged := do
      match ← value.substitute frame.locals with
      | .arr entries => return Move.act (.log entries)
      | entry => return Move.act (.log [entry])
    (logged.mapError unboundMessage, { frame with rest })
  | .sleep ticks :: rest =>
    let covered := frame.slept + 1
    let move := Move.act (.halt covered ticks)
    if ticks ≤ covered then (.ok move, { frame with slept := 0, rest })
    else (.ok move, { frame with slept := covered, rest := .sleep ticks :: rest })
  | .call call :: rest =>
    let entered := do
      let (target, args) ← program.evaluate frame.locals call
      return Move.enter target args call.bind.isSome
    (entered, { frame with rest, pendingBind := call.bind })
  | .await await :: rest =>
    let awaited := do
      let targets ← await.calls.mapM (program.evaluate frame.locals)
      let recipes := targets.map fun (target, args) => program.recipe target args
      return Move.act (.await ⟨await.strategy, await.bind.isSome, recipes⟩)
    (awaited, { frame with rest, pendingBind := await.bind })
  | .ret value :: rest =>
    let returned := do return Move.act (.unload (← value.substitute frame.locals))
    (returned.mapError unboundMessage,
      { frame with rest := .ret value :: rest, unloaded := true })

end Frame

namespace Invocation

abbrev Answer := Except String (Signal Invocation) × Invocation

def enter (run : Invocation) (target : Target) (args : List Json) (isDependency : Bool) :
    Answer :=
  let frame : Frame :=
    { address := target.address, rest := target.method.body, locals := target.locals args }
  (.ok (.yielded ⟨target.address, .load args isDependency⟩),
    { run with frames := frame :: run.frames })

def advance (run : Invocation) : Answer :=
  match run.frames with
  | [] => (.error "no method loaded", run)
  | frame :: callers =>
    if frame.unloaded then
      (.error s!"{frame.address.location} stepped again after UNLOAD", run)
    else
      let (move, frame) := frame.next run.program
      let run := { run with frames := frame :: callers }
      match move with
      | .error message => (.error message, run)
      | .ok (.act action) => (.ok (.yielded ⟨frame.address, action⟩), run)
      | .ok (.enter target args isDependency) => run.enter target args isDependency

def deliver (run : Invocation) (value : Json) : Answer :=
  match run.frames with
  | [] => (.error "value delivered with no method loaded", run)
  | frame :: callers => { run with frames := frame.deliver value :: callers }.advance

def leave (run : Invocation) (value : Json) : Answer :=
  match run.frames with
  | [] => (.error "return value delivered with no method loaded", run)
  | frame :: callers =>
    let run := { run with frames := callers }
    if !frame.unloaded then (.error s!"{frame.address.location} popped before UNLOAD", run)
    else if callers.isEmpty then (.ok (.complete value), run)
    else run.deliver value

def resume (run : Invocation) : Input → Answer
  | .params args =>
    if run.started then (.error "entry parameters delivered twice", run)
    else { run with started := true }.enter run.entry args false
  | .given value => run.deliver value
  | .returned value => run.leave value
  | .proceed => run.advance

instance : Coroutine Invocation where
  resume := resume

end Invocation

end Cadence.Scenario
