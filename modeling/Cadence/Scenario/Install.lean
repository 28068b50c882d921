import Cadence.Scenario.Invocation
import Cadence.Scenario.Validation
/-!
Installing a scenario into a simulation: its services become objects on the heap, its effects are
registered, and its entry calls, timers and intervals are started.
-/

namespace Cadence.Scenario

structure Bundle where
  program : Program
  entryFlows : List FlowId := []
  tasks : List TaskId := []

def Bundle.addressOf (bundle : Bundle) (service method : String) : Option Address :=
  (bundle.program.resolve service method).map Target.address

/-- An installation, also one that was broken off: what it changed stays changed. -/
structure Installation (σ : Type) where
  simulation : Simulation σ
  bundle : Bundle
  warnings : List Warning := []
  failure : Option ValidationError := none

namespace Service

def nameMethods {σ : Type} (service : Service) (address : String) (sim : Simulation σ) :
    Simulation σ :=
  service.methods.zipIdx.foldl
    (fun sim (method, offset) => sim.setNode ⟨address, offset⟩ (service.nodeId method)) sim

def install {σ : Type} (service : Service) (sim : Simulation σ) : Image × Simulation σ :=
  let (address, sim) := sim.register service.object
  (⟨service.name, address, service.fields, service.methods⟩, service.nameMethods address sim)

end Service

def installServices {σ : Type} : List Service → Simulation σ → Program × Simulation σ
  | [], sim => ([], sim)
  | service :: services, sim =>
    let (image, sim) := service.install sim
    let (program, sim) := installServices services sim
    (image :: program, sim)

def registerEffects {σ : Type} (effects : List Collapse) (sim : Simulation σ) : Simulation σ :=
  effects.foldl (fun sim effect => sim.addEffect effect.id effect.nodes) sim

variable {σ : Type}

def Launch.start (launch : Launch) (recipe : Recipe σ) (done : Installation σ) :
    Installation σ :=
  match launch with
  | .entry _ _ =>
    let (id, simulation) := done.simulation.spawn recipe
    { done with
      simulation, bundle := { done.bundle with entryFlows := done.bundle.entryFlows ++ [id] } }
  | .timer t =>
    let (id, simulation) := done.simulation.schedule t.name (.ofTimer t.after) recipe
    { done with simulation, bundle := { done.bundle with tasks := done.bundle.tasks ++ [id] } }
  | .interval i =>
    let (id, simulation) := done.simulation.schedule i.name (.ofInterval i.every) recipe
    { done with simulation, bundle := { done.bundle with tasks := done.bundle.tasks ++ [id] } }

def launchAll (scenario : Scenario) (wrap : Invocation → σ) :
    List Launch → Installation σ → Installation σ
  | [], done => done
  | launch :: launches, done =>
    let call := launch.call
    match scenario.resolve launch.context call with
    | .error e => { done with failure := some e }
    | .ok (_, method) =>
      let warnings := done.warnings ++ (arityWarning? launch.context call method).toList
      let done := { done with warnings }
      match done.bundle.program.resolve call.service call.method with
      | none =>
        { done with failure := some (.unknownMethod launch.context call.service call.method) }
      | some target =>
        let recipe := (done.bundle.program.recipe target call.args).map wrap
        launchAll scenario wrap launches (launch.start recipe done)

def install (scenario : Scenario) (wrap : Invocation → σ) (sim : Simulation σ) :
    Installation σ :=
  let (program, sim) := installServices scenario.services sim
  let sim := registerEffects scenario.effects sim
  scenario.launchAll wrap scenario.launches { simulation := sim, bundle := { program := program } }

end Cadence.Scenario
