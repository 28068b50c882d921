import Cadence.Scenario.Basic
import Cadence.Scenario.Shape
/-!
Reading scenarios out of values. Calls, awaits and instructions admit no other fields than their
own; everywhere else an unknown field is passed over.
-/

namespace Cadence

def natural32 : Reader Nat := Reader.natural "u32" (UInt32.size - 1)

def natural64 : Reader Nat := Reader.natural "u64" (UInt64.size - 1)

/-! ## Limits -/

namespace Limits

def struct : Struct := ⟨"RuntimeConfig", ["max_rounds_per_tick", "max_steps_per_flow"]⟩

def count : Reader Nat := Reader.natural "usize" (UInt64.size - 1)

def enter (limits : Limits) (key : String) (value : Json) : Except ShapeError Limits := do
  match key with
  | "max_rounds_per_tick" => return { limits with rounds := ← count value }
  | "max_steps_per_flow" => return { limits with steps := ← count value }
  | _ => return limits

def decode : Reader Limits :=
  struct.read enter {}

end Limits

namespace Scenario

/-! ## Calls -/

namespace Call

def struct : Struct := ⟨"CallDef", ["service", "method", "args", "bind"]⟩

structure Draft where
  service : Option String := none
  method : Option String := none
  args : List Json := []
  bind : Option String := none

def enter (draft : Draft) (key : String) (value : Json) : Except ShapeError Draft := do
  match key with
  | "service" => return { draft with service := some (← Reader.text value) }
  | "method" => return { draft with method := some (← Reader.text value) }
  | "args" => return { draft with args := ← Reader.list Reader.any value }
  | "bind" => return { draft with bind := ← Reader.optional Reader.text value }
  | _ => throw (.unknownField key struct.fields)

def decode : Reader Call := fun value => do
  let draft ← struct.read enter {} value
  let service ← struct.require value "service" draft.service
  let method ← struct.require value "method" draft.method
  return { service, method, args := draft.args, bind := draft.bind }

end Call

/-! ## Awaits -/

namespace Await

def struct : Struct := ⟨"AwaitDef", ["strategy", "calls", "bind"]⟩

structure Draft where
  strategy : Strategy := .single
  calls : Option (List Call) := none
  bind : Option String := none

def readStrategy : Reader Strategy :=
  Reader.variant [("single", .single), ("wait_for_all", .all), ("race", .race)]

def enter (draft : Draft) (key : String) (value : Json) : Except ShapeError Draft := do
  match key with
  | "strategy" => return { draft with strategy := ← readStrategy value }
  | "calls" => return { draft with calls := some (← Reader.list Call.decode value) }
  | "bind" => return { draft with bind := ← Reader.optional Reader.text value }
  | _ => throw (.unknownField key struct.fields)

def decode : Reader Await := fun value => do
  let draft ← struct.read enter {} value
  let calls ← struct.require value "calls" draft.calls
  return { strategy := draft.strategy, calls, bind := draft.bind }

end Await

/-! ## Instructions -/

namespace Instruction

def struct : Struct := ⟨"RawInstruction", ["log", "sleep", "call", "await", "return"]⟩

structure Draft where
  log : Option Json := none
  sleep : Option Nat := none
  call : Option Call := none
  await : Option Await := none
  ret : Option Json := none

def Draft.toList (draft : Draft) : List Instruction :=
  (draft.log.map .log).toList ++ (draft.sleep.map .sleep).toList ++ (draft.call.map .call).toList
    ++ (draft.await.map .await).toList ++ (draft.ret.map .ret).toList

/-- Null is a value to log or to return; elsewhere it counts as absent. -/
def enter (draft : Draft) (key : String) (value : Json) : Except ShapeError Draft := do
  match key with
  | "log" => return { draft with log := some value }
  | "sleep" => return { draft with sleep := ← Reader.optional natural32 value }
  | "call" => return { draft with call := ← Reader.optional Call.decode value }
  | "await" => return { draft with await := ← Reader.optional Await.decode value }
  | "return" => return { draft with ret := some value }
  | _ => throw (.unknownField key struct.fields)

def decode : Reader Instruction := fun value => do
  let draft ← struct.read enter {} value
  match draft.toList with
  | [instruction] => return instruction
  | found => throw (.instructionCount found.length)

end Instruction

/-! ## Methods and services -/

namespace Method

def struct : Struct := ⟨"MethodDef", ["name", "params", "body"]⟩

structure Draft where
  name : Option String := none
  params : List String := []
  body : List Instruction := []

def enter (draft : Draft) (key : String) (value : Json) : Except ShapeError Draft := do
  match key with
  | "name" => return { draft with name := some (← Reader.text value) }
  | "params" => return { draft with params := ← Reader.list Reader.text value }
  | "body" => return { draft with body := ← Reader.list Instruction.decode value }
  | _ => return draft

def decode : Reader Method := fun value => do
  let draft ← struct.read enter {} value
  let name ← struct.require value "name" draft.name
  return { name, params := draft.params, body := draft.body }

end Method

namespace Service

def struct : Struct := ⟨"ServiceDef", ["name", "class", "fields", "methods"]⟩

structure Draft where
  name : Option String := none
  className : Option String := none
  fields : Fields Json := []
  methods : List Method := []

def enter (draft : Draft) (key : String) (value : Json) : Except ShapeError Draft := do
  match key with
  | "name" => return { draft with name := some (← Reader.text value) }
  | "class" => return { draft with className := ← Reader.optional Reader.text value }
  | "fields" => return { draft with fields := ← Reader.fields value }
  | "methods" => return { draft with methods := ← Reader.list Method.decode value }
  | _ => return draft

def decode : Reader Service := fun value => do
  let draft ← struct.read enter {} value
  let name ← struct.require value "name" draft.name
  return { name, className := draft.className, fields := draft.fields, methods := draft.methods }

end Service

/-! ## Timers, intervals and effects -/

structure Period where
  name : Option String := none
  ticks : Option Nat := none
  call : Option Call := none

/-- Reads a field of a timer or interval whose ticks stand under the key `unit`. -/
def Period.enter (unit : String) (draft : Period) (key : String) (value : Json) :
    Except ShapeError Period := do
  if key = "name" then return { draft with name := some (← Reader.text value) }
  else if key = unit then return { draft with ticks := some (← natural64 value) }
  else if key = "call" then return { draft with call := some (← Call.decode value) }
  else return draft

def Timer.struct : Struct := ⟨"TimerDef", ["name", "after", "call"]⟩

def Timer.decode : Reader Timer := fun value => do
  let draft ← struct.read (Period.enter "after") {} value
  let name ← struct.require value "name" draft.name
  let after ← struct.require value "after" draft.ticks
  let call ← struct.require value "call" draft.call
  return ⟨name, after, call⟩

def Interval.struct : Struct := ⟨"IntervalDef", ["name", "every", "call"]⟩

def Interval.decode : Reader Interval := fun value => do
  let draft ← struct.read (Period.enter "every") {} value
  let name ← struct.require value "name" draft.name
  let every ← struct.require value "every" draft.ticks
  let call ← struct.require value "call" draft.call
  return ⟨name, every, call⟩

namespace Collapse

def struct : Struct := ⟨"EffectDef", ["id", "nodes"]⟩

structure Draft where
  id : Option String := none
  nodes : Option (List String) := none

def enter (draft : Draft) (key : String) (value : Json) : Except ShapeError Draft := do
  match key with
  | "id" => return { draft with id := some (← Reader.text value) }
  | "nodes" => return { draft with nodes := some (← Reader.list Reader.text value) }
  | _ => return draft

def decode : Reader Collapse := fun value => do
  let draft ← struct.read enter {} value
  let id ← struct.require value "id" draft.id
  let nodes ← struct.require value "nodes" draft.nodes
  return ⟨id, nodes⟩

end Collapse

/-! ## Scenarios -/

def struct : Struct :=
  ⟨"Scenario", ["runtime", "services", "entry", "timers", "intervals", "effects"]⟩

structure Draft where
  limits : Option Limits := none
  services : Option (List Service) := none
  entry : List Call := []
  timers : List Timer := []
  intervals : List Interval := []
  effects : List Collapse := []

def enter (draft : Draft) (key : String) (value : Json) : Except ShapeError Draft := do
  match key with
  | "runtime" => return { draft with limits := ← Reader.optional Limits.decode value }
  | "services" => return { draft with services := some (← Reader.list Service.decode value) }
  | "entry" => return { draft with entry := ← Reader.list Call.decode value }
  | "timers" => return { draft with timers := ← Reader.list Timer.decode value }
  | "intervals" => return { draft with intervals := ← Reader.list Interval.decode value }
  | "effects" => return { draft with effects := ← Reader.list Collapse.decode value }
  | _ => return draft

def decode : Reader Scenario := fun value => do
  let draft ← struct.read enter {} value
  let services ← struct.require value "services" draft.services
  return { limits := draft.limits, services, entry := draft.entry, timers := draft.timers,
           intervals := draft.intervals, effects := draft.effects }

end Scenario

end Cadence
