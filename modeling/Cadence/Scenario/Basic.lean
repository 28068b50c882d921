import Cadence.Scenario.Reference
import Cadence.Simulation.Basic
/-!
Scenario documents: services with methods in a small instruction language, the calls, timers and
intervals that start flows, and collapsed effects.
-/

namespace Cadence.Scenario

/-- A call of a method; `bind` names the local variable that takes its value. -/
structure Call where
  service : String
  method : String
  args : List Json := []
  bind : Option String := none

def Call.nodeId (call : Call) : String :=
  call.service ++ "." ++ call.method

structure Await where
  strategy : Strategy := .single
  calls : List Call
  bind : Option String := none

inductive Instruction where
  | log (value : Json)
  | sleep (ticks : Nat)
  | call (call : Call)
  | await (await : Await)
  | ret (value : Json)

structure Method where
  name : String
  params : List String := []
  body : List Instruction := []

structure Service where
  name : String
  className : Option String := none
  fields : Fields Json := []
  methods : List Method := []

def Service.object (service : Service) : Object where
  className := service.className.getD service.name
  fields := service.fields

def Service.nodeId (service : Service) (method : Method) : String :=
  service.name ++ "." ++ method.name

structure Timer where
  name : String
  after : Nat
  call : Call

structure Interval where
  name : String
  every : Nat
  call : Call

structure Collapse where
  id : String
  nodes : List String

end Scenario

structure Scenario where
  limits : Option Limits := none
  services : List Scenario.Service
  entry : List Scenario.Call := []
  timers : List Scenario.Timer := []
  intervals : List Scenario.Interval := []
  effects : List Scenario.Collapse := []

end Cadence
