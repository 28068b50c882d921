import Cadence.Scenario.Install
import Cadence.Proofs.Scenario.Contract
import Cadence.Proofs.Simulation.Session
import Mathlib.Data.List.Forall2
/-!
Installing a scenario that validation accepts does not fail, and its flows never break the
protocol: a tick stops short only where a budget is exhausted.
-/

namespace Cadence

variable {σ : Type}

structure Simulation.Grows (sim after : Simulation σ) : Prop where
  heap : sim.heap.Grows after.heap
  flows : after.flows = sim.flows
  tasks : after.tasks = sim.tasks
  now : after.now = sim.now
  journal : after.journal = sim.journal
  replay : after.replay = sim.replay

namespace Simulation.Grows

variable {sim middle after : Simulation σ}

theorem refl (sim : Simulation σ) : sim.Grows sim :=
  ⟨.refl sim.heap, rfl, rfl, rfl, rfl, rfl⟩

theorem trans (earlier : sim.Grows middle) (later : middle.Grows after) : sim.Grows after :=
  ⟨earlier.heap.trans later.heap, later.flows.trans earlier.flows,
    later.tasks.trans earlier.tasks, later.now.trans earlier.now,
    later.journal.trans earlier.journal, later.replay.trans earlier.replay⟩

theorem foldl {α : Type} {change : Simulation σ → α → Simulation σ}
    (each : ∀ (sim : Simulation σ) item, sim.Grows (change sim item)) (items : List α) (sim : Simulation σ) :
    sim.Grows (items.foldl change sim) := by
  induction items generalizing sim with
  | nil => exact refl sim
  | cons item items ih => exact (each sim item).trans (ih _)

end Simulation.Grows

namespace Scenario

structure Service.Depicts (service : Service) (image : Image) : Prop where
  name : image.name = service.name
  fields : image.fields = service.fields
  methods : image.methods = service.methods

theorem Service.install_spec (service : Service) (sim : Simulation σ) :
    service.Depicts (service.install sim).1 ∧ sim.Grows (service.install sim).2 ∧
      ((service.install sim).2.heap.get? (service.install sim).1.address).isSome = true := by
  have registered : sim.Grows (sim.register service.object).2 :=
    ⟨sim.heap.grows_register service.object, rfl, rfl, rfl, rfl, rfl⟩
  have each (sim' : Simulation σ) (entry : Method × Nat) : sim'.Grows
      (sim'.setNode ⟨(sim.register service.object).1, entry.2⟩ (service.nodeId entry.1)) :=
    ⟨sim'.heap.grows_setNode _ _, rfl, rfl, rfl, rfl, rfl⟩
  have named : (sim.register service.object).2.Grows (service.install sim).2 :=
    Simulation.Grows.foldl each _ _
  refine ⟨⟨rfl, rfl, rfl⟩, registered.trans named, named.heap.objects _ ?_⟩
  exact Option.isSome_of_eq_some (sim.heap.get?_register service.object)

theorem installServices_spec (services : List Service) (sim : Simulation σ) :
    List.Forall₂ Service.Depicts services (installServices services sim).1 ∧
      sim.Grows (installServices services sim).2 ∧
      ∀ image ∈ (installServices services sim).1,
        ((installServices services sim).2.heap.get? image.address).isSome = true := by
  induction services generalizing sim with
  | nil => exact ⟨.nil, .refl sim, by simp [installServices]⟩
  | cons service services ih =>
      obtain ⟨depicts, grows, present⟩ := service.install_spec sim
      obtain ⟨depicts', grows', present'⟩ := ih (service.install sim).2
      refine ⟨.cons depicts depicts', grows.trans grows', fun image member => ?_⟩
      rcases List.mem_cons.1 member with rfl | member
      · exact grows'.heap.objects _ present
      · exact present' image member

theorem registerEffects_grows (effects : List Collapse) (sim : Simulation σ) :
    sim.Grows (registerEffects effects sim) := by
  have each (sim' : Simulation σ) (effect : Collapse) :
      sim'.Grows (sim'.addEffect effect.id effect.nodes) := ⟨.refl sim'.heap, rfl, rfl, rfl, rfl, rfl⟩
  exact Simulation.Grows.foldl each effects sim

variable {scenario : Scenario} {services : List Service} {program : Program}

theorem find?_image (depicts : List.Forall₂ Service.Depicts services program) {name : String}
    {service : Service} (found : services.find? (·.name = name) = some service) :
    ∃ image, program.find? (·.name = name) = some image ∧ service.Depicts image := by
  induction depicts with
  | nil => simp at found
  | @cons first image services images depicted rest ih =>
      by_cases same : first.name = name
      · have here : image.name = name := depicted.name.trans same
        obtain rfl : first = service := by simpa [same] using found
        exact ⟨image, by simp [here], depicted⟩
      · have elsewhere : image.name ≠ name := fun here => same (depicted.name.symm.trans here)
        obtain ⟨image', later, depicted'⟩ := ih (by simpa [same] using found)
        exact ⟨image', by simpa [elsewhere] using later, depicted'⟩

theorem reaches_of_depicts (depicts : List.Forall₂ Service.Depicts scenario.services program)
    {call : Call} (reaches : scenario.Reaches call) : program.Reaches call := by
  obtain ⟨service, method, inServices, inMethods⟩ := reaches
  obtain ⟨image, inProgram, depicted⟩ := find?_image depicts inServices
  rw [← depicted.methods] at inMethods
  cases place : image.methods.findIdx? (·.name = call.method) with
  | none =>
      have unnamed := List.findIdx?_eq_none_iff.1 place method (List.mem_of_find?_eq_some inMethods)
      simp [List.find?_some inMethods] at unnamed
  | some offset =>
      obtain ⟨inside, -⟩ := List.findIdx?_eq_some_iff_getElem.1 place
      refine ⟨⟨image, offset, image.methods[offset]⟩, ?_⟩
      simp [Program.resolve, inProgram, place, inside]

theorem Sound.installed (sound : scenario.Sound)
    (depicts : List.Forall₂ Service.Depicts scenario.services program) : program.Sound where
  methods image member method declared := by
    obtain ⟨service, known, depicted⟩ := exists_of_forall₂ depicts member
    rw [depicted.methods] at declared
    rw [depicted.fields]
    exact (sound.methods service known method declared).mono
      (fun _ => reaches_of_depicts depicts) fun _ => id

variable {done : Installation σ}

theorem launchAll_cons {launch : Launch} (launches : List Launch) (wrap : Invocation → σ)
    (declared : scenario.Reaches launch.call) (reached : done.bundle.program.Reaches launch.call) :
    ∃ target warnings,
      done.bundle.program.resolve launch.call.service launch.call.method = some target ∧
        scenario.launchAll wrap (launch :: launches) done =
          scenario.launchAll wrap launches
            (launch.start ((done.bundle.program.recipe target launch.call.args).map wrap)
              { done with warnings }) := by
  obtain ⟨service, method, known⟩ := resolve_of_reaches declared launch.context
  obtain ⟨target, found⟩ := reached
  refine ⟨target, done.warnings ++ (arityWarning? launch.context launch.call method).toList,
    found, ?_⟩
  simp only [launchAll, known, found]

variable [Coroutine σ] {contract : Contract σ} {lineage : Lineage}

theorem Launch.start_spec (launch : Launch) (done : Installation σ) {recipe : Recipe σ}
    (starts : contract.starts recipe.start) (holds : contract.Holds ⟨done.simulation, lineage⟩) :
    (launch.start recipe done).failure = done.failure ∧
      (launch.start recipe done).bundle.program = done.bundle.program ∧
      ∃ lineage, contract.Holds ⟨(launch.start recipe done).simulation, lineage⟩ := by
  cases launch with
  | entry number call => exact ⟨rfl, rfl, _, holds.spawn starts⟩
  | timer t => exact ⟨rfl, rfl, _, holds.schedule t.name (.ofTimer t.after) starts⟩
  | interval i => exact ⟨rfl, rfl, _, holds.schedule i.name (.ofInterval i.every) starts⟩

theorem launchAll_spec {launches : List Launch} (wrap : Invocation → σ) (program : Program)
    (starts : ∀ target : Target, target.Within program →
      contract.starts (wrap { program, entry := target }))
    (same : done.bundle.program = program) (fine : done.failure = none)
    (holds : contract.Holds ⟨done.simulation, lineage⟩)
    (declared : ∀ launch ∈ launches, scenario.Reaches launch.call)
    (reached : ∀ launch ∈ launches, program.Reaches launch.call) :
    (scenario.launchAll wrap launches done).failure = none ∧
      (scenario.launchAll wrap launches done).bundle.program = program ∧
      ∃ lineage, contract.Holds ⟨(scenario.launchAll wrap launches done).simulation, lineage⟩ := by
  induction launches generalizing done lineage with
  | nil => exact ⟨fine, same, lineage, holds⟩
  | cons launch launches ih =>
      subst same
      obtain ⟨target, warnings, found, next⟩ := launchAll_cons launches wrap
        (declared launch (List.mem_cons_self ..)) (reached launch (List.mem_cons_self ..))
      let warned : Installation σ := { done with warnings }
      let recipe : Recipe σ := (done.bundle.program.recipe target launch.call.args).map wrap
      have begins : contract.starts recipe.start := starts target (within_of_resolve found)
      obtain ⟨fine', same', lineage', holds'⟩ := launch.start_spec warned begins holds
      rw [next]
      exact ih same' (fine'.trans fine) holds'
        (fun other member => declared other (List.mem_cons_of_mem _ member))
        (fun other member => reached other (List.mem_cons_of_mem _ member))

theorem Sound.install_spec (sound : scenario.Sound) (limits : Limits) :
    (scenario.install id (Simulation.withLimits limits)).failure = none ∧
      ∃ (sound : (scenario.install id (Simulation.withLimits limits)).bundle.program.Sound)
        (lineage : Lineage), sound.contract.Holds
          ⟨(scenario.install id (Simulation.withLimits limits)).simulation, lineage⟩ := by
  let fresh : Simulation Invocation := Simulation.withLimits limits
  let program : Program := (installServices scenario.services fresh).1
  let ready : Simulation Invocation :=
    registerEffects scenario.effects (installServices scenario.services fresh).2
  obtain ⟨depicts, grows, present⟩ := installServices_spec scenario.services fresh
  have effects := registerEffects_grows scenario.effects (installServices scenario.services fresh).2
  have grows : fresh.Grows ready := grows.trans effects
  have installed : ∀ image ∈ program, (ready.heap.get? image.address).isSome = true :=
    fun image member => effects.heap.objects _ (present image member)
  have sound' : program.Sound := sound.installed depicts
  have holds : sound'.contract.Holds ⟨ready, []⟩ :=
    Contract.holds_of_empty _ grows.flows grows.tasks installed
  have declared : ∀ launch ∈ scenario.launches, scenario.Reaches launch.call :=
    fun launch member => (sound.launches launch member).reached
  have reached : ∀ launch ∈ scenario.launches, program.Reaches launch.call :=
    fun launch member => reaches_of_depicts depicts (declared launch member)
  have starts : ∀ target : Target, target.Within program →
      sound'.contract.starts (id { program, entry := target }) :=
    fun target within => ⟨target, within, rfl⟩
  let begun : Installation Invocation := { simulation := ready, bundle := { program } }
  have begun_holds : sound'.contract.Holds ⟨begun.simulation, []⟩ := holds
  obtain ⟨fine, same, lineage, holds'⟩ :=
    launchAll_spec id program starts rfl rfl begun_holds declared reached
  have kept : (scenario.install id (Simulation.withLimits limits)).bundle.program = program := same
  rw [kept]
  exact ⟨fine, sound', lineage, holds'⟩

theorem Sound.install (sound : scenario.Sound) (limits : Limits) :
    (scenario.install id (Simulation.withLimits limits)).failure = none ∧
      ∃ (program : Program) (sound : program.Sound) (lineage : Lineage), sound.contract.Holds
        ⟨(scenario.install id (Simulation.withLimits limits)).simulation, lineage⟩ := by
  obtain ⟨fine, sound, lineage, holds⟩ := sound.install_spec limits
  exact ⟨fine, _, sound, lineage, holds⟩

/-- Installing a scenario into a fresh simulation succeeds, and so does every tick after that,
unless it exhausts a budget. The ticks go on where one has failed. -/
structure KeepsProtocol (scenario : Scenario) (limits : Limits) : Prop where
  installs : (scenario.install id (Simulation.withLimits limits)).failure = none
  ticks : ∀ n : Nat,
    let sim := Simulation.tick.after^[n]
      (scenario.install id (Simulation.withLimits limits)).simulation
    (∃ report later, Simulation.tick sim = .ok report later) ∨
      ∃ e later, Simulation.tick sim = .error e later ∧ e.isBudgetExhausted = true

/-- Valid scenarios never break the protocol between the engine and their methods. -/
theorem valid_scenarios_keep_the_protocol (valid : scenario.isValid = true) (limits : Limits) :
    scenario.KeepsProtocol limits := by
  obtain ⟨fine, program, sound, lineage, holds⟩ := (sound_of_isValid valid).install limits
  refine ⟨fine, fun n => ?_⟩
  obtain ⟨lineage, holds⟩ := holds.ticks n
  have ticked := Simulation.tick_spec holds
  intro sim
  cases done : Simulation.tick sim with
  | ok report later => exact .inl ⟨report, later, rfl⟩
  | error e later =>
      rw [done] at ticked
      rcases ticked.1 with fault | exhausted
      · exact fault.elim
      · exact .inr ⟨e, later, rfl, exhausted⟩

/-- A worker that is called by name races against a clock, and starts over in every third tick. -/
def raceOnTheClock : Scenario where
  services := [
    { name := "Clock",
      methods := [{ name := "wait", params := ["value"], body := [.sleep 2, .ret (.str "$value")] }] },
    { name := "Worker",
      fields := [("greeting", .str "hello")],
      methods := [
        { name := "work",
          body := [
            .call { service := "Clock", method := "wait", args := [.str "$greeting"],
                    bind := some "said" },
            .ret (.str "$said")] },
        { name := "main",
          body := [
            .await { strategy := .race, bind := some "first",
                     calls := [{ service := "Worker", method := "work" },
                       { service := "Clock", method := "wait", args := [.str "late"] }] },
            .log (.str "$first")] }] }]
  intervals := [⟨"again", 3, { service := "Worker", method := "main" }⟩]

theorem race_on_the_clock_keeps_the_protocol :
    raceOnTheClock.isValid = true ∧ raceOnTheClock.KeepsProtocol { rounds := 1, steps := 30 } :=
  ⟨by decide, valid_scenarios_keep_the_protocol (by decide) _⟩

end Scenario

end Cadence
