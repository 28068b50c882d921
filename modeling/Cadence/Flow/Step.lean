import Cadence.Flow.Basic
/-!
One step of a flow: the next input is taken from the top record, the coroutine answers it, and
the answer is checked against the call stack and carried out.
-/

namespace Cadence

inductive Boundary (σ : Type) where
  | halt
  | await (request : Request σ) (caller : Address)
  | complete (value : Json) (lastAddress : Option Address)

structure Outcome (σ : Type) where
  responses : List Response
  boundary : Option (Boundary σ) := none

structure Stepped (σ : Type) where
  flow : Flow σ
  heap : Heap
  exchange : Option (Exchange σ)
  result : Except EngineError (Outcome σ)

namespace Flow

variable {σ : Type}

/--
Takes the next operation from the top record. A return value leaves together with its frame,
whose address is given back beside the input.
-/
def takeInput (flow : Flow σ) : Except EngineError (Input × Option Address × Flow σ) :=
  match flow.stack.records with
  | [] => .error (.stackPeekOutOfRange flow.stack.flow 0 0)
  | top :: below =>
    let withRecords (records : List Record) : Flow σ :=
      { flow with stack := { flow.stack with records := records } }
    match top.operations with
    | [] => .ok (.proceed, none, flow)
    | .provideParams :: rest =>
      .ok (.params top.params, none, withRecords ({ top with operations := rest } :: below))
    | .provideGiven value :: rest =>
      .ok (.given value, none, withRecords ({ top with operations := rest } :: below))
    | .provideReturnAndPop :: _ =>
      .ok (.returned (top.returnValue.getD .null), top.address?, withRecords below)

def expectFrame (flow : Flow σ) (address : Address) (command : String) :
    Except EngineError Unit := do
  let top ← flow.stack.peek 0
  match top.frame? with
  | none => .error (.noLoadedFrame flow.id command)
  | some current =>
    if current = address then .ok ()
    else .error (.addressMismatch flow.id command current.location address.location)

def finish (flow : Flow σ) (value : Json) (popped : Option Address) :
    Except EngineError (Outcome σ) :=
  match popped with
  | none => .error (.missingUnload flow.id)
  | some _ =>
    let openFrames := flow.stack.size - 1
    if 0 < openFrames then .error (.unbalancedStack flow.id openFrames)
    else .ok { responses := [], boundary := some (.complete value popped) }

/--
Enters a method. A flow's entry method takes over the dependency flag of whoever spawned the flow,
and its edge is drawn elsewhere.
-/
def load (flow : Flow σ) (heap : Heap) (address : Address) (params : List Json)
    (isDependency : Bool) (tick : Tick) :
    Except EngineError (Outcome σ × Flow σ × Heap) := do
  let caller ← flow.stack.peek 0
  let (isDependency, source?) :=
    match caller.place with
    | .frame source => (isDependency, some source)
    | .entry _ => (caller.isDependency, none)
  if (heap.get? address.object).isNone then
    .error (.unregisteredInstance flow.id address.object)
  else
    let heap :=
      if heap.hasNode address then heap else heap.setNode address address.location
    let edge := source?.toList.map fun source => Traffic.call source address params isDependency
    let responses : List Response :=
      (edge ++ [Traffic.load address params]).map fun traffic =>
        { traffic := traffic, tick := tick }
    let stack := flow.stack.push (Record.frame address params isDependency)
    return ({ responses := responses }, { flow with stack }, heap)

def log (flow : Flow σ) (address : Address) (entries : List Json) (tick : Tick) :
    Except EngineError (Outcome σ) := do
  flow.expectFrame address "LOG"
  return { responses := [{ traffic := .log address entries, tick }] }

def halt (flow : Flow σ) (address : Address) (covered total : Nat) (tick : Tick) :
    Except EngineError (Outcome σ) := do
  flow.expectFrame address "HALT"
  if covered = 0 ∨ total < covered then .error (.invalidHalt flow.id covered total)
  else
    let response : Response := { traffic := .halt address covered total, tick }
    return { responses := [response], boundary := some .halt }

def await (flow : Flow σ) (address : Address) (request : Request σ) :
    Except EngineError (Outcome σ) := do
  flow.expectFrame address "AWAIT_FLOW"
  return { responses := [], boundary := some (.await request address) }

/--
Leaves a method: the frame stays until its value has been handed over. If the caller consumes the
value, the edge back to the frame below is drawn.
-/
def unload (flow : Flow σ) (address : Address) (value : Json) (tick : Tick) :
    Except EngineError (Outcome σ) × Flow σ :=
  match flow.expectFrame address "UNLOAD" with
  | .error e => (.error e, flow)
  | .ok () =>
    match flow.stack.records with
    | [] => (.error (.stackPeekOutOfRange flow.stack.flow 0 0), flow)
    | top :: below =>
      let left := { top with returnValue := some value }.push .provideReturnAndPop
      let flow := { flow with stack := { flow.stack with records := left :: below } }
      let left : Response := { traffic := .unload address value, tick }
      if top.isDependency then
        match below with
        | [] => (.error (.stackPeekOutOfRange flow.stack.flow 1 1), flow)
        | caller :: _ =>
          let edge := caller.frame?.toList.map fun target =>
            { traffic := .resolveDependency address target value, tick }
          (.ok { responses := left :: edge }, flow)
      else (.ok { responses := [left] }, flow)

def perform (flow : Flow σ) (heap : Heap) (command : Command σ) (tick : Tick) :
    Except EngineError (Outcome σ) × Flow σ × Heap :=
  let address := command.address
  match command.action with
  | .load params isDependency =>
    match flow.load heap address params isDependency tick with
    | .ok (outcome, flow, heap) => (.ok outcome, flow, heap)
    | .error e => (.error e, flow, heap)
  | .log entries => (flow.log address entries tick, flow, heap)
  | .halt covered total => (flow.halt address covered total tick, flow, heap)
  | .await request => (flow.await address request, flow, heap)
  | .unload value =>
    let (result, flow) := flow.unload address value tick
    (result, flow, heap)

/-- One step. It counts as soon as the coroutine has been asked, whatever the answer. -/
def step [Coroutine σ] (flow : Flow σ) (heap : Heap) (tick : Tick) : Stepped σ :=
  match flow.takeInput with
  | .error e => { flow, heap, exchange := none, result := .error e }
  | .ok (input, popped, flow) =>
    let (answer, coroutine) := Coroutine.resume flow.coroutine input
    let exchange := some { flow := flow.id, state := flow.coroutine, input, answer }
    let flow := { flow with coroutine, stepsTaken := flow.stepsTaken + 1 }
    match answer with
    | .error message =>
      { flow, heap, exchange, result := .error (.coroutine flow.id message) }
    | .ok (.complete value) => { flow, heap, exchange, result := flow.finish value popped }
    | .ok (.yielded command) =>
      let (result, flow, heap) := flow.perform heap command tick
      ⟨flow, heap, exchange, result⟩

end Flow

end Cadence
