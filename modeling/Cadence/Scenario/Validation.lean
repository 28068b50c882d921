import Cadence.Scenario.Basic
/-!
What a scenario has to satisfy before it may run: unique names, calls that reach a declared
method, awaits of a proper shape, and no variable used before it is bound.
-/

namespace Cadence

inductive ValidationError where
  | emptyScenario
  | emptyServiceName
  | duplicateService (name : String)
  | duplicateMethod (service method : String)
  | unknownService (context service : String)
  | unknownMethod (context service method : String)
  | invalidAwait (context : String) (strategy : Strategy) (calls : Nat)
  | unboundVariable (context name : String)
  | unknownEffectNode (effect node : String)
  deriving DecidableEq

def ValidationError.message : ValidationError → String
  | emptyScenario => "Scenario declares no services"
  | emptyServiceName => "Service has empty or whitespace-only name"
  | duplicateService name => s!"Duplicate service name: '{name}'"
  | duplicateMethod service method => s!"Service '{service}' declares method '{method}' twice"
  | unknownService context service => s!"{context} references unknown service '{service}'"
  | unknownMethod context service method =>
    s!"{context} references unknown method '{service}.{method}'"
  | invalidAwait context strategy calls =>
    s!"{context}: {strategy.label} await cannot take {calls} calls"
  | unboundVariable context name => s!"{context} uses '${name}' before it is bound"
  | unknownEffectNode effect node => s!"Effect '{effect}' lists unknown node '{node}'"

inductive Finding where
  | error (error : ValidationError)
  | warning (warning : Warning)
  deriving DecidableEq

def Finding.error? : Finding → Option ValidationError
  | error e => some e
  | warning _ => none

def Finding.warning? : Finding → Option Warning
  | error _ => none
  | warning w => some w

/-- The characters of the Unicode property `White_Space`. -/
def isBlank (c : Char) : Bool :=
  let n := c.toNat
  (9 ≤ n && n ≤ 13) || n = 0x20 || n = 0x85 || n = 0xa0 || n = 0x1680
    || (0x2000 ≤ n && n ≤ 0x200a) || n = 0x2028 || n = 0x2029 || n = 0x202f || n = 0x205f
    || n = 0x3000

namespace Scenario

/-- The method that a call reaches: the first of its name in the first service of its name. -/
def resolve (scenario : Scenario) (context : String) (call : Call) :
    Except ValidationError (Service × Method) :=
  match scenario.services.find? (·.name = call.service) with
  | none => .error (.unknownService context call.service)
  | some service =>
    match service.methods.find? (·.name = call.method) with
    | none => .error (.unknownMethod context call.service call.method)
    | some method => .ok (service, method)

def arityWarning? (context : String) (call : Call) (method : Method) : Option Warning :=
  if call.args.length = method.params.length then none
  else some (.arityMismatch context call.nodeId method.params.length call.args.length)

def checkTarget (scenario : Scenario) (context : String) (call : Call) : List Finding :=
  match scenario.resolve context call with
  | .error e => [.error e]
  | .ok (_, method) => (arityWarning? context call method).toList.map .warning

def checkBound (context : String) (bound : List String) (value : Json) : List Finding :=
  (value.references.filter (· ∉ bound)).map fun name => .error (.unboundVariable context name)

def checkCall (scenario : Scenario) (context : String) (bound : List String) (call : Call) :
    List Finding :=
  scenario.checkTarget context call ++ call.args.flatMap (checkBound context bound)

def Await.isShapely (await : Await) : Bool :=
  match await.strategy with
  | .single => await.calls.length = 1
  | .race => await.calls.length ≠ 0
  | .all => true

def Instruction.bind? : Instruction → Option String
  | call made => made.bind
  | await awaited => awaited.bind
  | log _ | sleep _ | ret _ => none

def checkAwaitedCall (scenario : Scenario) (context : String) (bound : List String)
    (call : Call) : List Finding :=
  scenario.checkCall context bound call
    ++ (if call.bind.isSome then [.warning (.ignoredBind context)] else [])

def checkInstruction (scenario : Scenario) (context : String) (bound : List String) :
    Instruction → List Finding
  | .log value | .ret value => checkBound context bound value
  | .sleep _ => []
  | .call call => scenario.checkCall context bound call
  | .await await =>
    (if await.isShapely then []
      else [.error (.invalidAwait context await.strategy await.calls.length)])
      ++ await.calls.flatMap (scenario.checkAwaitedCall context bound)

def checkBody (scenario : Scenario) (context : String) :
    List String → List Instruction → List Finding
  | _, [] => []
  | bound, instruction :: rest =>
    scenario.checkInstruction context bound instruction
      ++ scenario.checkBody context (instruction.bind?.toList ++ bound) rest

def checkMethod (scenario : Scenario) (service : Service) (method : Method) : List Finding :=
  scenario.checkBody (service.nodeId method) (service.fields.keys ++ method.params) method.body

def checkMethods (scenario : Scenario) (service : Service) :
    List String → List Method → List Finding
  | _, [] => []
  | seen, method :: methods =>
    (if method.name ∈ seen then [.error (.duplicateMethod service.name method.name)] else [])
      ++ scenario.checkMethod service method
      ++ scenario.checkMethods service (method.name :: seen) methods

/-- Checks the services; one without a name is passed over once that has been noted. -/
def checkServices (scenario : Scenario) : List String → List Service → List Finding
  | _, [] => []
  | seen, service :: services =>
    if service.name.toList.all isBlank then
      .error .emptyServiceName :: scenario.checkServices seen services
    else
      (if service.name ∈ seen then [.error (.duplicateService service.name)] else [])
        ++ scenario.checkMethods service [] service.methods
        ++ scenario.checkServices (service.name :: seen) services

inductive Launch where
  | entry (number : Nat) (call : Call)
  | timer (timer : Timer)
  | interval (interval : Interval)

def Launch.context : Launch → String
  | entry number _ => s!"Entry #{number}"
  | timer t => s!"Timer '{t.name}'"
  | interval i => s!"Interval '{i.name}'"

def Launch.call : Launch → Call
  | entry _ made => made
  | timer t => t.call
  | interval i => i.call

def launches (scenario : Scenario) : List Launch :=
  (scenario.entry.zipIdx 1).map (fun (call, number) => .entry number call)
    ++ scenario.timers.map .timer ++ scenario.intervals.map .interval

def checkLaunch (scenario : Scenario) (launch : Launch) : List Finding :=
  scenario.checkCall launch.context [] launch.call

def nodes (scenario : Scenario) : List String :=
  scenario.services.flatMap fun service => service.methods.map service.nodeId

def checkEffect (scenario : Scenario) (effect : Collapse) : List Finding :=
  (effect.nodes.filter (· ∉ scenario.nodes)).map fun node =>
    .error (.unknownEffectNode effect.id node)

/-- Everything there is to say about a scenario, in the order of the document. -/
def findings (scenario : Scenario) : List Finding :=
  if scenario.services.isEmpty then [.error .emptyScenario]
  else
    let found := scenario.checkServices [] scenario.services
      ++ scenario.launches.flatMap scenario.checkLaunch
      ++ scenario.effects.flatMap scenario.checkEffect
    if (found.filterMap Finding.error?).isEmpty && scenario.launches.isEmpty then
      found ++ [.warning .nothingRuns]
    else found

def errors (scenario : Scenario) : List ValidationError :=
  scenario.findings.filterMap Finding.error?

def warnings (scenario : Scenario) : List Warning :=
  scenario.findings.filterMap Finding.warning?

def errorText (scenario : Scenario) : String :=
  "\n".intercalate (scenario.errors.map ValidationError.message)

def isValid (scenario : Scenario) : Bool :=
  scenario.errors.isEmpty

end Scenario

end Cadence
