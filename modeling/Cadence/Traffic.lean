import Cadence.Heap
/-!
What a tick reports: the traffic that each step of a flow produced, and the flows that completed,
each with the flows that its completion cancelled.
-/

namespace Cadence

inductive Traffic where
  | load (address : Address) (params : List Json)
  | log (address : Address) (entries : List Json)
  | sendData (source target : Address) (params : List Json)
  | callDependency (source target : Address) (params : List Json)
  | resolveDependency (source target : Address) (value : Json)
  | unload (address : Address) (value : Json)
  | halt (address : Address) (covered total : Nat)

namespace Traffic

def label : Traffic → String
  | load _ _ => "LOAD"
  | log _ _ => "LOG"
  | sendData _ _ _ => "SEND_DATA"
  | callDependency _ _ _ => "CALL_DEPENDENCY"
  | resolveDependency _ _ _ => "RESOLVE_DEPENDENCY"
  | unload _ _ => "UNLOAD"
  | halt _ _ _ => "HALT"

def addresses : Traffic → List Address
  | load address _ | log address _ | unload address _ | halt address _ _ => [address]
  | sendData source target _ | callDependency source target _
  | resolveDependency source target _ => [source, target]

/-- The edge of a call: a dependency if the caller consumes the value, else only data sent. -/
def call (source target : Address) (params : List Json) (isDependency : Bool) : Traffic :=
  if isDependency then callDependency source target params else sendData source target params

end Traffic

/-- An event with its tick; `isAutoPop` marks it as held back inside a collapsed effect. -/
structure Response where
  traffic : Traffic
  tick : Tick
  isAutoPop : Bool := false

structure Cancellation where
  id : FlowId
  name : String
  parent : FlowId
  caller : Option Address
  rootCaller : Option Address
  openFrames : List Address
  spawnedAt : Tick
  cancelledAt : Tick

/-- The record of a flow that completed; `order` is its place among all completions. -/
structure Completion where
  id : FlowId
  name : String
  value : Json
  lastAddress : Option Address
  spawnedAt : Tick
  completedAt : Tick
  order : Nat

inductive Report where
  | yielded (flow : FlowId) (name : String) (responses : List Response)
  | constructed (flow : FlowId) (name : String) (value : Json) (cancelled : List Cancellation)

namespace Report

def flow : Report → FlowId
  | yielded flow _ _ | constructed flow _ _ _ => flow

def responses : Report → List Response
  | yielded _ _ responses => responses
  | constructed _ _ _ _ => []

def markAutoPop : Report → Report
  | yielded flow name responses =>
    yielded flow name (responses.map fun response => { response with isAutoPop := true })
  | constructed flow name value cancelled => constructed flow name value cancelled

end Report

structure TickReport where
  tick : Tick
  reports : List Report := []

def TickReport.isEmpty (report : TickReport) : Bool :=
  report.reports.isEmpty

end Cadence
