import Cadence.Proofs.Scenario.Launching
import Cadence.Proofs.Scenario.Placement
/-!
# Installation

Scenarios are installed into simulations with a past: other scenarios may have been installed before,
and anything else may have been done in between, to the heap as well. A valid scenario always installs
as a whole, and none of its methods shares an address with another.
-/

namespace Cadence

variable {σ : Type}

/-- A simulation, and the programs that were installed in it since its heap was last emptied. -/
structure Host (σ : Type) where
  sim : Simulation σ
  programs : List Scenario.Program := []

inductive Host.Event (σ : Type) where
  | operation (operation : Simulation.Operation σ)
  | heap (operation : Heap.Operation)
  | install (scenario : Scenario) (wrap : Scenario.Invocation → σ)

namespace Host

def apply [Coroutine σ] (host : Host σ) : Event σ → Host σ
  | .operation .reset => ⟨host.sim.reset, []⟩
  | .operation operation => { host with sim := operation.apply host.sim }
  | .heap .reset => ⟨{ host.sim with heap := host.sim.heap.reset }, []⟩
  | .heap (.allocate object) =>
    { host with sim := { host.sim with heap := (host.sim.heap.allocate object).2 } }
  | .heap (.register object) => { host with sim := (host.sim.register object).2 }
  | .install scenario wrap =>
    let done := scenario.install wrap host.sim
    ⟨done.simulation, host.programs ++ [done.bundle.program]⟩

def after [Coroutine σ] (limits : Limits) (events : List (Event σ)) : Host σ :=
  events.foldl apply ⟨Simulation.withLimits limits, []⟩

structure Sound (host : Host σ) : Prop where
  placed : host.sim.heap.Placed
  homes : ∀ program ∈ host.programs, ∀ image ∈ program, host.sim.heap.Taken image.address

end Host

namespace Scenario

def prepared (scenario : Scenario) (sim : Simulation σ) : Installation σ where
  simulation := registerEffects scenario.effects (installServices scenario.services sim).2
  bundle := { program := (installServices scenario.services sim).1 }

theorem registerEffects_heap (effects : List Collapse) (sim : Simulation σ) :
    (registerEffects effects sim).heap = sim.heap := by
  induction effects generalizing sim with
  | nil => rfl
  | cons effect effects ih => exact ih (sim.addEffect effect.id effect.nodes)

theorem settles_scenario (scenario : Scenario) (wrap : Invocation → σ) (sim : Simulation σ) :
    Settles scenario.services (scenario.install wrap sim).bundle.program sim.heap
      (scenario.install wrap sim).simulation.heap := by
  obtain ⟨heap, program⟩ :=
    Installation.launchAll_keeps scenario wrap scenario.launches (scenario.prepared sim)
  have same : (scenario.install wrap sim).simulation.heap =
      (installServices scenario.services sim).2.heap :=
    heap.trans (registerEffects_heap ..)
  rw [same, show (scenario.install wrap sim).bundle.program = _ from program]
  exact settles_installServices scenario.services sim

end Scenario

namespace Host

variable {host : Host σ}

theorem Sound.goOn (sound : host.Sound) {sim : Simulation σ}
    (continues : host.sim.heap.Continues sim.heap) {programs : List Scenario.Program}
    (homes : ∀ program ∈ programs, program ∈ host.programs ∨
      ∀ image ∈ program, sim.heap.Taken image.address) : Sound ⟨sim, programs⟩ := by
  refine ⟨continues.placed sound.placed, fun program member image inside => ?_⟩
  rcases homes program member with known | fresh
  · exact continues.taken _ (sound.homes program known image inside)
  · exact fresh image inside

theorem sound_of_empty (empty : host.sim.heap = .empty) (programs : host.programs = []) :
    host.Sound where
  placed entry member := by simp [empty, Heap.empty] at member
  homes program member := by simp [programs] at member

variable [Coroutine σ]

theorem Sound.apply (sound : host.Sound) (event : Event σ) : (host.apply event).Sound := by
  cases event with
  | operation operation =>
      rcases operation.continues host.sim with rfl | continues
      · exact sound_of_empty rfl rfl
      · cases operation with
        | reset => exact sound_of_empty rfl rfl
        | _ => exact sound.goOn continues fun _ known => .inl known
  | heap operation =>
      cases operation with
      | allocate object =>
          exact sound.goOn (host.sim.heap.continues_allocate object) fun _ known => .inl known
      | register object =>
          exact sound.goOn (host.sim.heap.continues_register object) fun _ known => .inl known
      | reset => exact sound_of_empty rfl rfl
  | install scenario wrap =>
      have settles := scenario.settles_scenario wrap host.sim
      refine sound.goOn settles.continues fun program member => ?_
      rcases List.mem_append.1 member with known | last
      · exact .inl known
      · obtain rfl := List.mem_singleton.1 last
        exact .inr fun image inside => (settles.homes image inside).1

theorem sound_after (limits : Limits) (events : List (Event σ)) : (after limits events).Sound := by
  have kept (host : Host σ) (sound : host.Sound) : (events.foldl apply host).Sound := by
    induction events generalizing host with
    | nil => exact sound
    | cons event events ih => exact ih _ (sound.apply event)
  exact kept _ (sound_of_empty rfl rfl)

end Host

namespace Scenario

variable {scenario : Scenario} {program : Program}

theorem names_of_isValid (valid : scenario.isValid = true) :
    (scenario.services.map Service.name).Nodup ∧
      ∀ service ∈ scenario.services, (service.methods.map Method.name).Nodup := by
  have clean : Clean scenario.findings := by simpa [isValid, errors, Clean] using valid
  rw [clean_findings, clean_checkServices, fresh_nil] at clean
  obtain ⟨-, ⟨⟨distinct, checked⟩, -⟩, -⟩ := clean
  exact ⟨distinct, fun service member => (checked service member).methods⟩

/-- What installing a scenario on a host comes to. Lists go in the order of the document. -/
structure Installs (scenario : Scenario) (wrap : Invocation → σ) (host : Host σ)
    (done : Installation σ) : Prop where
  succeeds : done.failure = none
  depicts : List.Forall₂ Service.Depicts scenario.services done.bundle.program
  objects : done.simulation.heap.toList = host.sim.heap.toList ++
    (scenario.services.zip done.bundle.program).map fun (service, image) =>
      (image.address, service.object)
  found : ∀ entry ∈ scenario.services.zip done.bundle.program,
    done.simulation.heap.get? entry.2.address = some entry.1.object
  kept : ∀ place object, host.sim.heap.get? place = some object →
    done.simulation.heap.get? place = some object
  addressed : (scenario.services.flatMap fun service => service.methods.map fun method =>
    done.bundle.addressOf service.name method.name) = done.bundle.program.addresses.map some
  narrow : ∀ address ∈ done.bundle.program.addresses, address.offset < UInt32.size
  distinct : done.bundle.program.addresses.Nodup
  fresh : ∀ program ∈ host.programs, ∀ address ∈ program.addresses,
    address ∉ done.bundle.program.addresses
  translated : done.bundle.program.addresses.map done.simulation.heap.nodeAt =
    scenario.nodes.map .ok
  others : ∀ address, address ∉ done.bundle.program.addresses →
    done.simulation.heap.nodeAt address = host.sim.heap.nodeAt address
  entryFlows : done.bundle.entryFlows =
    List.range' (host.sim.flows.phases.size + 1) scenario.entry.length
  tasks : done.bundle.tasks = List.range' (host.sim.tasks.tasks.length + 1)
    (scenario.timers.length + scenario.intervals.length)
  unusedFlows : ∀ id ∈ done.bundle.entryFlows, host.sim.flows.find? id = none
  unusedTasks : ∀ id ∈ done.bundle.tasks, host.sim.tasks.find? id = none
  runs : List.Forall₂
    (fun launch id => launch.Runs id wrap done.bundle.program done.simulation)
    scenario.launches (done.bundle.entryFlows ++ done.bundle.tasks)

theorem flatMap_of_depicts {α : Type} {services : List Service} {program : Program}
    (depicts : List.Forall₂ Service.Depicts services program) (f : String → Method → α) :
    (services.flatMap fun service => service.methods.map (f service.name)) =
      program.flatMap fun image => image.methods.map (f image.name) := by
  induction depicts with
  | nil => rfl
  | cons depicted rest ih =>
      rw [List.flatMap_cons, List.flatMap_cons, depicted.name, depicted.methods, ih]

theorem Image.nodes_labels (image : Image) :
    image.labels.map Prod.snd = image.methods.map fun method => image.name ++ "." ++ method.name := by
  have places : image.methods = image.methods.zipIdx.map Prod.fst := (List.zipIdx_map_fst ..).symm
  conv_rhs => rw [places, List.map_map]
  rw [labels, List.map_map]
  rfl

theorem nodes_of_depicts (depicts : List.Forall₂ Service.Depicts scenario.services program) :
    scenario.nodes = program.labels.map Prod.snd := by
  have nodes := flatMap_of_depicts depicts fun service method => service ++ "." ++ method.name
  rw [Program.labels, List.map_flatMap]
  exact nodes.trans (List.flatMap_congr fun image _ => image.nodes_labels.symm)

theorem names_of_depicts {services : List Service} {program : Program}
    (depicts : List.Forall₂ Service.Depicts services program) :
    program.map Image.name = services.map Service.name := by
  induction depicts with
  | nil => rfl
  | cons depicted rest ih => rw [List.map_cons, List.map_cons, depicted.name, ih]

theorem grows_prepared (scenario : Scenario) (sim : Simulation σ) :
    sim.Grows (scenario.prepared sim).simulation :=
  (installServices_spec scenario.services sim).2.1.trans (registerEffects_grows ..)

theorem launched_install (valid : scenario.isValid = true) (wrap : Invocation → σ)
    (sim : Simulation σ) : Installation.Launched wrap scenario.launches (scenario.prepared sim)
      (scenario.install wrap sim) := by
  obtain ⟨depicts, -⟩ := installServices_spec scenario.services sim
  have declared : ∀ launch ∈ scenario.launches, scenario.Reaches launch.call :=
    fun launch member => ((sound_of_isValid valid).launches launch member).reached
  exact Installation.launched_launchAll wrap declared fun launch member =>
    reaches_of_depicts depicts (declared launch member)

theorem filter_launches (scenario : Scenario) :
    scenario.launches.filter (·.isEntry = true) =
        (scenario.entry.zipIdx 1).map (fun (call, number) => .entry number call) ∧
      scenario.launches.filter (·.isEntry = false) =
        scenario.timers.map .timer ++ scenario.intervals.map .interval := by
  constructor
  · simp [launches, List.filter_append, List.filter_map, Function.comp_def, Launch.isEntry]
  · simp [launches, List.filter_append, List.filter_map, Function.comp_def, Launch.isEntry]

theorem ids_install (valid : scenario.isValid = true) (wrap : Invocation → σ)
    (sim : Simulation σ) :
    (scenario.install wrap sim).bundle.entryFlows =
        List.range' (sim.flows.phases.size + 1) scenario.entry.length ∧
      (scenario.install wrap sim).bundle.tasks = List.range' (sim.tasks.tasks.length + 1)
        (scenario.timers.length + scenario.intervals.length) := by
  have launched := launched_install valid wrap sim
  have grows := scenario.grows_prepared sim
  obtain ⟨entries, tasks⟩ := filter_launches scenario
  have flowIds := launched.ids true
  have taskIds := launched.ids false
  rw [entries, Installation.count, if_pos rfl, grows.flows, List.length_map,
    List.length_zipIdx] at flowIds
  rw [tasks, Installation.count, if_neg Bool.false_ne_true, grows.tasks, List.length_append,
    List.length_map, List.length_map] at taskIds
  exact ⟨flowIds, taskIds⟩

theorem runs_install (valid : scenario.isValid = true) (wrap : Invocation → σ)
    (sim : Simulation σ) :
    List.Forall₂ (fun launch id => launch.Runs id wrap (scenario.install wrap sim).bundle.program
        (scenario.install wrap sim).simulation)
      scenario.launches ((scenario.install wrap sim).bundle.entryFlows ++
        (scenario.install wrap sim).bundle.tasks) := by
  have launched := launched_install valid wrap sim
  obtain ⟨entries, tasks⟩ := filter_launches scenario
  have inOrder : scenario.launches = scenario.launches.filter (·.isEntry = true) ++
      scenario.launches.filter (·.isEntry = false) := by
    rw [entries, tasks, launches, List.append_assoc]
  have flowIds : (scenario.install wrap sim).bundle.entryFlows = _ := launched.ids true
  have taskIds : (scenario.install wrap sim).bundle.tasks = _ := launched.ids false
  have both : List.Forall₂ _ (scenario.launches.filter (·.isEntry = true) ++
      scenario.launches.filter (·.isEntry = false)) _ :=
    List.rel_append (launched.runs true) (launched.runs false)
  rw [← inOrder] at both
  rw [flowIds, taskIds, launched.precedes.program]
  exact both

/-- A valid scenario installs as a whole, whatever was done before. -/
theorem valid_scenarios_install [Coroutine σ] (valid : scenario.isValid = true)
    (narrow : ∀ service ∈ scenario.services, service.methods.length < UInt32.size)
    (wrap : Invocation → σ) (limits : Limits) (events : List (Host.Event σ)) :
    Installs scenario wrap (Host.after limits events)
      (scenario.install wrap (Host.after limits events).sim) := by
  have sound := Host.sound_after limits events
  generalize Host.after limits events = host at sound ⊢
  -- Services are settled on the heap first, and launches leave the heap alone.
  have settles := scenario.settles_scenario wrap host.sim
  have launched := launched_install valid wrap host.sim
  obtain ⟨flowIds, taskIds⟩ := ids_install valid wrap host.sim
  obtain ⟨services, methods⟩ := names_of_isValid valid
  have images : ∀ image ∈ (scenario.install wrap host.sim).bundle.program,
      ∃ service ∈ scenario.services, service.Depicts image := fun image member =>
    exists_of_forall₂ settles.depicts member
  have distinct := Program.nodup_addresses settles.apart
  refine ⟨launched.precedes.failure, settles.depicts, settles.objects, settles.found sound.placed,
    settles.kept sound.placed, ?_, ?_, distinct, ?_, ?_, settles.others, flowIds, taskIds, ?_, ?_,
    runs_install valid wrap host.sim⟩
  · rw [← addressOf_labels (names_of_depicts settles.depicts ▸ services) fun image member => ?_]
    · exact flatMap_of_depicts settles.depicts fun service method =>
        (scenario.install wrap host.sim).bundle.addressOf service method.name
    · obtain ⟨service, known, depicted⟩ := images image member
      rw [depicted.methods]
      exact methods service known
  · intro address member
    obtain ⟨label, inside, rfl⟩ := List.mem_map.1 member
    obtain ⟨image, known, inside⟩ := List.mem_flatMap.1 inside
    obtain ⟨offset, method, here, rfl⟩ := Image.mem_labels.1 inside
    obtain ⟨service, declared, depicted⟩ := images image known
    rw [depicted.methods] at here
    exact Nat.lt_trans (List.getElem?_eq_some_iff.1 here).1 (narrow service declared)
  · intro program member address earlier here
    obtain ⟨other, known, same⟩ := Program.object_of_mem_addresses earlier
    obtain ⟨image, inside, same'⟩ := Program.object_of_mem_addresses here
    exact (settles.homes image inside).2 (same' ▸ same ▸ sound.homes program member other known)
  · rw [nodes_of_depicts settles.depicts, Program.addresses, List.map_map, List.map_map]
    exact List.map_congr_left settles.labelled
  · intro id member
    have beyond := (List.mem_range'_1.1 (flowIds ▸ member)).1
    exact FlowTable.find?_eq_none_of_size_lt beyond
  · intro id member
    have beyond := (List.mem_range'_1.1 (taskIds ▸ member)).1
    cases id with
    | zero => rfl
    | succ n => exact List.getElem?_eq_none (Nat.le_of_succ_le_succ beyond)

/-- Two services that become equal objects. -/
def twins : Scenario where
  services := ["Left", "Right"].map fun name =>
    { name, className := some "Worker", fields := [("n", .int 1)],
      methods := [{ name := "work", body := [.ret (.str "$n")] }, { name := "rest" }] }
  entry := [{ service := "Right", method := "work" }, { service := "Left", method := "rest" }]
  timers := [⟨"later", 2, { service := "Left", method := "work" }⟩]
  intervals := [⟨"again", 3, { service := "Right", method := "rest" }⟩]
  effects := [⟨"quiet", ["Left.rest"]⟩]

theorem twins_install_twice :
    twins.isValid = true ∧
      (∀ service ∈ twins.services, service.methods.length < UInt32.size) ∧
      let host : Host Invocation := Host.after {} [.install twins id, .operation .tick]
      Installs twins id host (twins.install id host.sim) :=
  ⟨by decide, by decide, valid_scenarios_install (by decide) (by decide) id {} _⟩

end Scenario

end Cadence
