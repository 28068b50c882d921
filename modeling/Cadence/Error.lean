/-!
What can go wrong while a simulation runs. Every cause but the two budgets is a breach of the
contract between the engine and the methods it steps.
-/

namespace Cadence

/-- Flows are numbered from one in the order of their creation. -/
abbrev FlowId := Nat

abbrev TaskId := Nat

abbrev Tick := Nat

inductive EngineError where
  | stackUnderflow (flow : FlowId)
  | stackPeekOutOfRange (flow : FlowId) (depth requested : Nat)
  | notActive (flow : FlowId)
  | alreadySuspended (flow : FlowId)
  | cancelNotAlive (flow : FlowId)
  | unregisteredInstance (flow : FlowId) (object : String)
  | pageFault (location : String)
  | missingUnload (flow : FlowId)
  | unbalancedStack (flow : FlowId) (openFrames : Nat)
  | addressMismatch (flow : FlowId) (command expected found : String)
  | noLoadedFrame (flow : FlowId) (command : String)
  | resumeWithoutSuspension (flow : FlowId)
  | invalidAwait (flow : FlowId) (reason : String)
  | invalidHalt (flow : FlowId) (covered total : Nat)
  | coroutine (flow : FlowId) (message : String)
  | unknownTask (task : TaskId)
  | tickBudgetExceeded (tick : Tick) (rounds : Nat)
  | stepBudgetExceeded (flow : FlowId) (steps : Nat)
  deriving DecidableEq

namespace EngineError

def isBudgetExhausted : EngineError → Bool
  | tickBudgetExceeded _ _ | stepBudgetExceeded _ _ => true
  | _ => false

def cause : EngineError → String
  | stackUnderflow flow => s!"flow {flow}: execution stack underflow"
  | stackPeekOutOfRange flow depth requested =>
    s!"flow {flow}: peek({requested}) beyond stack depth {depth}"
  | notActive flow => s!"flow {flow} is not active"
  | alreadySuspended flow => s!"flow {flow} is already suspended"
  | cancelNotAlive flow =>
    s!"flow {flow} cannot be cancelled: it is neither active nor suspended"
  | unregisteredInstance flow object =>
    s!"flow {flow} loaded a method on '{object}', which was never registered on the heap"
  | pageFault location => s!"page fault: no node registered for address '{location}'"
  | missingUnload flow => s!"flow {flow} finished without a preceding UNLOAD"
  | unbalancedStack flow openFrames => s!"flow {flow} finished with {openFrames} open frame(s)"
  | addressMismatch flow command expected found =>
    s!"flow {flow}: {command} issued at '{found}' but the current frame is '{expected}'"
  | noLoadedFrame flow command => s!"flow {flow}: {command} issued before any method was loaded"
  | resumeWithoutSuspension flow =>
    s!"flow {flow} was marked resumed but never received its awaited value"
  | invalidAwait flow reason => s!"flow {flow}: invalid await: {reason}"
  | invalidHalt flow covered total => s!"flow {flow}: HALT {covered}/{total} is out of range"
  | coroutine flow message => s!"flow {flow}: coroutine step failed: {message}"
  | unknownTask task => s!"scheduled task {task} does not exist"
  | tickBudgetExceeded tick rounds =>
    s!"tick {tick} did not reach a fixed point within {rounds} rounds"
  | stepBudgetExceeded flow steps =>
    s!"flow {flow} did not reach a tick boundary within {steps} steps"

def message (error : EngineError) : String :=
  if error.isBudgetExhausted then error.cause
  else error.cause ++ " (runtime/compiler mismatch, please report it)"

end EngineError

end Cadence
