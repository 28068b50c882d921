import Cadence.Heap
/-!
The call stack of a flow. Its bottom record stands for the caller of the flow's entry method; each
loaded method puts a frame on top, which leaves once its return value has been handed back.
-/

namespace Cadence

inductive Operation where
  | provideParams
  | provideGiven (value : Json)
  | provideReturnAndPop

inductive Place where
  | entry (caller : Option Address)
  | frame (address : Address)

/-- One record of a call stack; pending operations are taken from the front. -/
structure Record where
  place : Place
  params : List Json
  isDependency : Bool
  returnValue : Option Json := none
  operations : List Operation := []

namespace Record

def entry (caller : Option Address) (params : List Json) (isDependency : Bool) : Record where
  place := .entry caller
  params := params
  isDependency := isDependency
  operations := [.provideParams]

def frame (address : Address) (params : List Json) (isDependency : Bool) : Record where
  place := .frame address
  params := params
  isDependency := isDependency

def frame? (record : Record) : Option Address :=
  match record.place with
  | .frame address => some address
  | .entry _ => none

def address? (record : Record) : Option Address :=
  match record.place with
  | .frame address => some address
  | .entry caller => caller

def push (record : Record) (operation : Operation) : Record :=
  { record with operations := record.operations ++ [operation] }

end Record

structure Stack where
  flow : FlowId
  records : List Record := []

namespace Stack

def push (stack : Stack) (record : Record) : Stack :=
  { stack with records := record :: stack.records }

def pop (stack : Stack) : Except EngineError (Record × Stack) :=
  match stack.records with
  | [] => .error (.stackUnderflow stack.flow)
  | top :: below => .ok (top, { stack with records := below })

def peek (stack : Stack) (n : Nat) : Except EngineError Record :=
  match stack.records[n]? with
  | some record => .ok record
  | none => .error (.stackPeekOutOfRange stack.flow stack.records.length n)

def modify (stack : Stack) (n : Nat) (change : Record → Record) : Except EngineError Stack :=
  match stack.records[n]? with
  | some record => .ok { stack with records := stack.records.set n (change record) }
  | none => .error (.stackPeekOutOfRange stack.flow stack.records.length n)

def root (stack : Stack) : Except EngineError Record :=
  match stack.records.getLast? with
  | some record => .ok record
  | none => .error (.stackUnderflow stack.flow)

def openFrames (stack : Stack) : List Address :=
  stack.records.reverse.filterMap Record.frame?

def current? (stack : Stack) : Option Address :=
  stack.records.head?.bind Record.frame?

def size (stack : Stack) : Nat :=
  stack.records.length

end Stack

end Cadence
