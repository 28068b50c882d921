import Cadence.Proofs.Effect
import Cadence.Proofs.Scenario.Installation
import Cadence.Proofs.Simulation.Routing
/-!
# Node ids

A node id joins two names with a dot, and names may have dots themselves. Validation compares the
names of services and those of each service's methods, but never the ids. So two methods can share
a node id, and this is settled by their names alone.
-/

namespace Cadence

/-- The second pair of names divides the same text at a later dot. -/
def Straddles (service method service' method' : String) : Prop :=
  ∃ middle, service' = service ++ "." ++ middle ∧ method = middle ++ "." ++ method'

def Joined (service method service' method' : String) : Prop :=
  (service = service' ∧ method = method') ∨ Straddles service method service' method' ∨
    Straddles service' method' service method

variable {service method service' method' : String}

theorem Straddles.join_eq (straddles : Straddles service method service' method') :
    service ++ "." ++ method = service' ++ "." ++ method' := by
  obtain ⟨middle, rfl, rfl⟩ := straddles
  simp only [String.append_assoc]

theorem straddles_of_front {front : List Char}
    (longer : service'.toList = service.toList ++ '.' :: front)
    (rest : method.toList = front ++ '.' :: method'.toList) :
    Straddles service method service' method' := by
  refine ⟨String.ofList front, ?_, ?_⟩
  · rw [← String.toList_inj, longer]
    simp
  · rw [← String.toList_inj, rest]
    simp

theorem join_eq_iff : service ++ "." ++ method = service' ++ "." ++ method' ↔
    Joined service method service' method' := by
  constructor
  · intro same
    -- Both first names are prefixes of one text, and what the longer one has more begins with a dot.
    have chars : service.toList ++ '.' :: method.toList = service'.toList ++ '.' :: method'.toList := by
      simpa using congrArg String.toList same
    rcases List.append_eq_append_iff.1 chars with ⟨between, longer, rest⟩ | ⟨between, longer, rest⟩
    · cases between with
      | nil =>
          rw [List.append_nil, String.toList_inj] at longer
          exact .inl ⟨longer.symm, by simpa [String.toList_inj] using rest⟩
      | cons dot front =>
          obtain ⟨rfl, behind⟩ := List.cons.inj rest
          exact .inr (.inl (straddles_of_front longer behind))
    · cases between with
      | nil =>
          rw [List.append_nil, String.toList_inj] at longer
          exact .inl ⟨longer, by simpa [String.toList_inj, eq_comm] using rest⟩
      | cons dot front =>
          obtain ⟨rfl, behind⟩ := List.cons.inj rest
          exact .inr (.inr (straddles_of_front longer behind))
  · rintro (⟨rfl, rfl⟩ | straddles | straddles)
    · rfl
    · exact straddles.join_eq
    · exact straddles.join_eq.symm

namespace EffectTable

theorem affecting?_single (id node there : String) :
    (empty.register id [node]).affecting? there = if node = there then some id else none := by
  have listed : (Effect.ofNodes id [node]).lists there = decide (node = there) := by
    rw [Bool.eq_iff_iff, Effect.lists_ofNodes, List.mem_singleton, decide_eq_true_iff, eq_comm]
  have only : (empty.register id [node]).effects = [Effect.ofNodes id [node]] := rfl
  rw [affecting?, only, List.filter_singleton, listed]
  by_cases same : node = there
  · rw [decide_eq_true same, if_pos same]
    rfl
  · rw [decide_eq_false same, if_neg same]
    rfl

theorem isInternal_single {heap : Heap} {id node there : String} {responses : List Response}
    {address : Address} (nonempty : responses ≠ [])
    (only : ∀ response ∈ responses, ∀ touched ∈ response.traffic.addresses, touched = address)
    (found : heap.nodeAt address = .ok there) :
    (empty.register id [node]).isInternal heap responses = .ok true ↔ node = there := by
  rw [isInternal_iff nonempty]
  constructor
  · rintro ⟨effect, affects⟩
    obtain ⟨response, member⟩ := List.exists_mem_of_ne_nil _ nonempty
    obtain ⟨touched, inside⟩ := List.exists_mem_of_ne_nil _ response.traffic.addresses_ne_nil
    obtain ⟨place, located, affecting⟩ := affects response member touched inside
    rw [only response member touched inside, found] at located
    obtain rfl := Except.ok.inj located
    by_contra differs
    rw [affecting?_single, if_neg differs] at affecting
    cases affecting
  · rintro rfl
    refine ⟨id, fun response member touched inside => ⟨node, ?_, ?_⟩⟩
    · rw [only response member touched inside, found]
    · rw [affecting?_single, if_pos rfl]

end EffectTable

namespace Scenario

variable {σ : Type} {scenario : Scenario}

theorem addressOf_of_declared (valid : scenario.isValid = true) (wrap : Invocation → σ)
    (sim : Simulation σ) {service : Service} (known : service ∈ scenario.services)
    {method : Method} (declared : method ∈ service.methods) :
    ∃ image ∈ (scenario.install wrap sim).bundle.program, image.name = service.name ∧
      ∃ offset : Nat, service.methods[offset]? = some method ∧
        (scenario.install wrap sim).bundle.addressOf service.name method.name =
          some ⟨image.address, offset⟩ ∧
        (scenario.install wrap sim).simulation.heap.nodeAt ⟨image.address, offset⟩ =
          .ok (service.nodeId method) := by
  have settles := scenario.settles_scenario wrap sim
  obtain ⟨services, methods⟩ := names_of_isValid valid
  obtain ⟨image, member, depicted⟩ := exists_of_forall₂ settles.depicts.flip known
  obtain ⟨offset, inside, here⟩ := List.getElem_of_mem declared
  have here : image.methods[offset]? = some method := by
    rw [depicted.methods, List.getElem?_eq_getElem inside, here]
  have named : (image.methods.map Method.name).Nodup := depicted.methods ▸ methods service known
  have resolved := resolve_of_mem (names_of_depicts settles.depicts ▸ services) member named here
  have label : (⟨image.address, offset⟩, image.name ++ "." ++ method.name) ∈
      (scenario.install wrap sim).bundle.program.labels :=
    List.mem_flatMap.2 ⟨image, member, Image.mem_labels.2 ⟨offset, method, here, rfl⟩⟩
  refine ⟨image, member, depicted.name, offset, depicted.methods ▸ here, ?_, ?_⟩
  · rw [← depicted.name, Bundle.addressOf, resolved]
    rfl
  · rw [settles.labelled _ label, depicted.name]
    rfl

structure ToldApart (done : Installation σ) (service : Service) (method : Method)
    (service' : Service) (method' : Method) (address address' : Address) : Prop where
  first : done.bundle.addressOf service.name method.name = some address
  second : done.bundle.addressOf service'.name method'.name = some address'
  addresses : address = address' ↔ service.name = service'.name ∧ method.name = method'.name
  nodes : service.nodeId method = service'.nodeId method' ↔
    Joined service.name method.name service'.name method'.name
  translations : done.simulation.heap.nodeAt address = done.simulation.heap.nodeAt address' ↔
    Joined service.name method.name service'.name method'.name
  effects : ∀ id responses, responses ≠ [] →
    (∀ response ∈ responses, ∀ touched ∈ response.traffic.addresses, touched = address') →
    ((EffectTable.empty.register id [service.nodeId method]).isInternal done.simulation.heap
        responses = .ok true ↔
      Joined service.name method.name service'.name method'.name)

/-- Services and methods that are named apart have the same node where one dot of their ids can be
taken for another, and only there. -/
theorem nodes_coincide_where_names_straddle (valid : scenario.isValid = true)
    (wrap : Invocation → σ) (sim : Simulation σ) :
    ∀ service ∈ scenario.services, ∀ method ∈ service.methods,
      ∀ service' ∈ scenario.services, ∀ method' ∈ service'.methods,
        ∃ address address', ToldApart (scenario.install wrap sim) service method service' method'
          address address' := by
  intro service known method declared service' known' method' declared'
  obtain ⟨image, member, named, offset, here, found, node⟩ :=
    addressOf_of_declared valid wrap sim known declared
  obtain ⟨image', member', named', offset', here', found', node'⟩ :=
    addressOf_of_declared valid wrap sim known' declared'
  have apart := (scenario.settles_scenario wrap sim).apart
  have joined : service.nodeId method = service'.nodeId method' ↔
      Joined service.name method.name service'.name method'.name := join_eq_iff
  refine ⟨⟨image.address, offset⟩, ⟨image'.address, offset'⟩, found, found', ⟨fun same => ?_, ?_⟩,
    joined, ?_, fun id responses nonempty only => ?_⟩
  · obtain ⟨home, rfl⟩ := Address.mk.inj same
    have one : image = image' := List.inj_on_of_nodup_map apart member member' home
    have names : service.name = service'.name := by rw [← named, ← named', one]
    obtain rfl : service = service' :=
      List.inj_on_of_nodup_map (names_of_isValid valid).1 known known' names
    exact ⟨rfl, congrArg Method.name (Option.some.inj (here.symm.trans here'))⟩
  · rintro ⟨services, methods⟩
    rw [services, methods] at found
    exact Option.some.inj (found.symm.trans found')
  · rw [node, node', Except.ok.injEq, joined]
  · rw [EffectTable.isInternal_single nonempty only node', joined]

theorem nodes_tell_apart (plain : ∀ service ∈ scenario.services, '.' ∉ service.name.toList) :
    ∀ service ∈ scenario.services, ∀ method, ∀ service' ∈ scenario.services, ∀ method',
      Service.nodeId service method = Service.nodeId service' method' →
        service.name = service'.name ∧ method.name = method'.name := by
  intro service known method service' known' method' same
  rcases join_eq_iff.1 same with equal | ⟨middle, longer, -⟩ | ⟨middle, longer, -⟩
  · exact equal
  · exact absurd (by simp [longer]) (plain service' known')
  · exact absurd (by simp [longer]) (plain service known)

def outer : Service where
  name := "A"
  methods := [{ name := "B.C" }, { name := "C" }]

def inner : Service where
  name := "A.B"
  methods := [{ name := "C" }]

/-- Two services of which one continues the name of the other. -/
def dotted : Scenario where
  services := [outer, inner]
  entry := [{ service := "A.B", method := "C" }, { service := "A", method := "B.C" }]

theorem dotted_methods_are_told_apart :
    dotted.isValid = true ∧ ∀ method ∈ outer.methods, ∀ method' ∈ inner.methods,
      ∃ address address', ToldApart (dotted.install id (Simulation.withLimits {})) outer method
        inner method' address address' :=
  ⟨by decide, fun method declared method' declared' =>
    nodes_coincide_where_names_straddle (by decide) id (Simulation.withLimits {}) outer
      (List.mem_cons_self ..) method declared inner
      (List.mem_cons_of_mem _ (List.mem_cons_self ..)) method' declared'⟩

theorem valid_scenarios_can_share_nodes :
    ¬ ∀ scenario : Scenario, scenario.isValid = true →
      ∀ service ∈ scenario.services, ∀ method ∈ service.methods,
        ∀ service' ∈ scenario.services, ∀ method' ∈ service'.methods,
          service.nodeId method = service'.nodeId method' →
            service.name = service'.name ∧ method.name = method'.name := by
  intro all
  have same := all dotted (by decide) outer (List.mem_cons_self ..) { name := "B.C" }
    (List.mem_cons_self ..) inner (List.mem_cons_of_mem _ (List.mem_cons_self ..)) { name := "C" }
    (List.mem_cons_self ..) (by decide)
  exact absurd same.1 (by decide)

end Scenario

end Cadence
