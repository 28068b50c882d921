import Cadence.Error
/-!
Remarks on input that is accepted but probably not meant.
-/

namespace Cadence

inductive Warning where
  | awaitsCancelled (flow dependency : FlowId)
  | arityMismatch (context node : String) (params args : Nat)
  | ignoredBind (context : String)
  | nothingRuns
  | stoppedEarly (active suspended : Nat)
  deriving DecidableEq

def Warning.message : Warning → String
  | awaitsCancelled flow dependency =>
    s!"Flow {flow} awaits cancelled flow {dependency}; it will never resolve through it"
  | arityMismatch context node params args =>
    s!"{context}: '{node}' takes {params} params but is called with {args} args"
  | ignoredBind context =>
    s!"{context}: bind on an awaited call is ignored, bind the await instead"
  | nothingRuns => "Scenario has no entry calls, timers or intervals; nothing will run"
  | stoppedEarly active suspended =>
    s!"Stopped with {active} active and {suspended} suspended flows"

end Cadence
