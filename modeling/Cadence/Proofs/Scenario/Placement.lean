import Cadence.Proofs.Scenario.Install
import Cadence.Proofs.Scenario.WellFormed
import Cadence.Proofs.Simulation.Objects
/-!
# Where services are placed

Installing services puts one object each on the heap, at addresses that were never handed out
before, and labels every method with its node. Nothing that was there is touched.
-/

namespace Cadence

namespace Heap

variable {heap : Heap} {address other : Address} {labels : List (Address × String)}

theorem nodeAt_setNode (heap : Heap) (address other : Address) (node : String) :
    (heap.setNode address node).nodeAt other =
      if other = address then .ok node else heap.nodeAt other := by
  by_cases same : other = address
  · simp [nodeAt, setNode, same]
  · have apart : other.location ≠ address.location := fun joined =>
      same (Address.location_inj.1 joined)
    simp only [nodeAt, setNode, Fields.find?_insert_of_ne _ _ apart, if_neg same]

def label (heap : Heap) (labels : List (Address × String)) : Heap :=
  labels.foldl (fun heap label => heap.setNode label.1 label.2) heap

theorem objects_label (heap : Heap) (labels : List (Address × String)) :
    (heap.label labels).objects = heap.objects ∧ (heap.label labels).salts = heap.salts := by
  induction labels generalizing heap with
  | nil => exact ⟨rfl, rfl⟩
  | cons first labels ih => exact ih (heap.setNode first.1 first.2)

theorem nodeAt_label_of_not_mem (absent : address ∉ labels.map Prod.fst) :
    (heap.label labels).nodeAt address = heap.nodeAt address := by
  induction labels generalizing heap with
  | nil => rfl
  | cons first labels ih =>
      rw [List.map_cons, List.mem_cons, not_or] at absent
      obtain ⟨differs, absent⟩ := absent
      show ((heap.setNode first.1 first.2).label labels).nodeAt address = _
      rw [ih absent, nodeAt_setNode, if_neg differs]

theorem nodeAt_label (distinct : (labels.map Prod.fst).Nodup) {node : String}
    (member : (address, node) ∈ labels) : (heap.label labels).nodeAt address = .ok node := by
  induction labels generalizing heap with
  | nil => simp at member
  | cons first labels ih =>
      obtain ⟨fresh, distinct⟩ := List.nodup_cons.1 distinct
      show ((heap.setNode first.1 first.2).label labels).nodeAt address = _
      rcases List.mem_cons.1 member with rfl | member
      · rw [nodeAt_label_of_not_mem fresh, nodeAt_setNode, if_pos rfl]
      · exact ih distinct member

end Heap

namespace Scenario

variable {σ : Type}

def Image.labels (image : Image) : List (Address × String) :=
  image.methods.zipIdx.map fun (method, offset) =>
    (⟨image.address, offset⟩, image.name ++ "." ++ method.name)

namespace Program

def labels (program : Program) : List (Address × String) :=
  program.flatMap Image.labels

def addresses (program : Program) : List Address :=
  program.labels.map Prod.fst

end Program

variable {image : Image} {program : Program} {address : Address}

theorem Image.mem_labels {label : Address × String} : label ∈ image.labels ↔
    ∃ offset method, image.methods[offset]? = some method ∧
      label = (⟨image.address, offset⟩, image.name ++ "." ++ method.name) := by
  simp only [labels, List.mem_map, Prod.exists, List.mem_zipIdx_iff_getElem?]
  exact ⟨fun ⟨method, offset, here, same⟩ => ⟨offset, method, here, same.symm⟩,
    fun ⟨offset, method, here, same⟩ => ⟨method, offset, here, same.symm⟩⟩

theorem Image.object_of_mem_labels {label : Address × String} (member : label ∈ image.labels) :
    label.1.object = image.address := by
  obtain ⟨offset, method, -, rfl⟩ := mem_labels.1 member
  rfl

theorem Image.nodup_labels (image : Image) : (image.labels.map Prod.fst).Nodup := by
  have offsets : image.labels.map (fun label => label.1.offset) =
      List.range' 0 image.methods.length := by
    simp only [labels, List.map_map, Function.comp_def]
    exact List.zipIdx_map_snd ..
  have distinct : ((image.labels.map Prod.fst).map Address.offset).Nodup := by
    rw [List.map_map, Function.comp_def, offsets]
    exact List.nodup_range'
  exact distinct.of_map _

theorem Program.object_of_mem_addresses (member : address ∈ program.addresses) :
    ∃ image ∈ program, address.object = image.address := by
  obtain ⟨label, inside, rfl⟩ := List.mem_map.1 member
  obtain ⟨image, known, inside⟩ := List.mem_flatMap.1 inside
  exact ⟨image, known, Image.object_of_mem_labels inside⟩

theorem Program.addresses_cons (image : Image) (program : Program) :
    Program.addresses (image :: program) = image.labels.map Prod.fst ++ program.addresses := by
  simp [Program.addresses, Program.labels]

theorem Program.nodup_addresses (apart : (program.map Image.address).Nodup) :
    program.addresses.Nodup := by
  induction program with
  | nil => exact List.nodup_nil
  | cons image program ih =>
      obtain ⟨fresh, apart⟩ := List.nodup_cons.1 apart
      rw [Program.addresses_cons]
      refine List.nodup_append'.2 ⟨image.nodup_labels, ih apart, fun address here there => ?_⟩
      obtain ⟨label, inside, rfl⟩ := List.mem_map.1 here
      obtain ⟨other, known, same⟩ := object_of_mem_addresses there
      rw [Image.object_of_mem_labels inside] at same
      exact fresh (List.mem_map.2 ⟨other, known, same.symm⟩)

theorem Service.nameMethods_eq (service : Service) (address : String) (sim : Simulation σ)
    {image : Image} (depicted : service.Depicts image) (here : image.address = address) :
    service.nameMethods address sim = { sim with heap := sim.heap.label image.labels } := by
  have each (methods : List (Method × Nat)) (sim : Simulation σ) :
      methods.foldl (fun sim entry => sim.setNode ⟨address, entry.2⟩ (service.nodeId entry.1)) sim =
        { sim with heap := sim.heap.label (methods.map fun entry =>
          (⟨address, entry.2⟩, service.nodeId entry.1)) } := by
    induction methods generalizing sim with
    | nil => rfl
    | cons entry methods ih => exact ih _
  rw [nameMethods, Image.labels, depicted.methods, depicted.name, here]
  exact each service.methods.zipIdx sim

structure Settles (services : List Service) (program : Program) (heap after : Heap) : Prop where
  depicts : List.Forall₂ Service.Depicts services program
  objects : after.toList = heap.toList ++
    (services.zip program).map fun (service, image) => (image.address, service.object)
  continues : heap.Continues after
  homes : ∀ image ∈ program, after.Taken image.address ∧ ¬ heap.Taken image.address
  apart : (program.map Image.address).Nodup
  labelled : ∀ label ∈ program.labels, after.nodeAt label.1 = .ok label.2
  others : ∀ address, address ∉ program.addresses → after.nodeAt address = heap.nodeAt address
  kept : heap.Placed → ∀ place object, heap.get? place = some object → after.get? place = some object
  found : heap.Placed → ∀ entry ∈ services.zip program,
    after.get? entry.2.address = some entry.1.object

theorem settles_nil (heap : Heap) : Settles [] [] heap heap where
  depicts := .nil
  objects := (List.append_nil _).symm
  continues := .refl heap
  homes image member := by simp at member
  apart := List.nodup_nil
  labelled label member := by simp [Program.labels] at member
  others _ _ := rfl
  kept _ _ _ found := found
  found _ entry member := by simp at member

theorem settles_install (service : Service) (sim : Simulation σ) :
    Settles [service] [(service.install sim).1] sim.heap (service.install sim).2.heap := by
  obtain ⟨depicted, -, -⟩ := service.install_spec sim
  let image := (service.install sim).1
  have here : image.address = (sim.heap.register service.object).1 := rfl
  have installed : (service.install sim).2.heap =
      (sim.heap.register service.object).2.label image.labels :=
    congrArg Simulation.heap
      (service.nameMethods_eq _ (sim.register service.object).2 depicted here)
  obtain ⟨objects, salts⟩ := (sim.heap.register service.object).2.objects_label image.labels
  have labels : Program.labels [image] = image.labels := List.append_nil _
  have fresh : ¬ sim.heap.Taken image.address := Heap.not_taken_allocateHash
  have continues := Heap.continues_of_same objects salts
  have found (place : String) : (service.install sim).2.heap.get? place =
      if place = image.address then some service.object else sim.heap.get? place := by
    rw [installed, Heap.get?, objects]
    exact sim.heap.get?_registerBy Object.contentHash service.object place
  rw [installed] at found ⊢
  refine ⟨.cons depicted .nil, ?_, (sim.heap.continues_register _).trans continues, ?_, by simp, ?_,
    fun address absent => ?_, fun placed place object known => ?_, fun _ entry member => ?_⟩
  · rw [Heap.toList, objects]
    exact List.reverse_cons
  · rw [List.forall_mem_singleton]
    exact ⟨continues.taken _ (Heap.taken_register.2 (.inr rfl)), fresh⟩
  · intro label member
    exact Heap.nodeAt_label image.nodup_labels (labels ▸ member)
  · rw [Program.addresses, labels] at absent
    exact Heap.nodeAt_label_of_not_mem absent
  · have apart : place ≠ image.address := fun same => fresh (same ▸ placed.taken known)
    rw [found, if_neg apart, known]
  · obtain rfl : entry = (service, image) := by simpa using member
    rw [found, if_pos rfl]

theorem Settles.append {services services' : List Service} {program program' : Program}
    {heap middle after : Heap} (first : Settles services program heap middle)
    (rest : Settles services' program' middle after) :
    Settles (services ++ services') (program ++ program') heap after := by
  have length : services.length = program.length := first.depicts.length_eq
  have moved (image : Image) (member : image ∈ program') : ∀ other ∈ program,
      other.address ≠ image.address := fun other known same =>
    (rest.homes image member).2 (same ▸ (first.homes other known).1)
  have addresses : Program.addresses (program ++ program') = program.addresses ++ program'.addresses := by
    simp [Program.addresses, Program.labels]
  refine ⟨List.rel_append first.depicts rest.depicts, ?_, first.continues.trans rest.continues,
    fun image member => ?_, ?_, fun label member => ?_, fun address absent => ?_,
    fun placed place object known => ?_, fun placed entry member => ?_⟩
  · rw [rest.objects, first.objects, List.zip_append length, List.map_append, List.append_assoc]
  · rcases List.mem_append.1 member with member | member
    · exact ⟨rest.continues.taken _ (first.homes image member).1, (first.homes image member).2⟩
    · exact ⟨(rest.homes image member).1, fun taken =>
        (rest.homes image member).2 (first.continues.taken _ taken)⟩
  · rw [List.map_append]
    refine List.nodup_append'.2 ⟨first.apart, rest.apart, fun place here there => ?_⟩
    obtain ⟨other, known, rfl⟩ := List.mem_map.1 here
    obtain ⟨image, member, same⟩ := List.mem_map.1 there
    exact moved image member other known same.symm
  · rw [Program.labels, List.flatMap_append] at member
    rcases List.mem_append.1 member with member | member
    · rw [rest.others label.1 fun there => ?_]
      · exact first.labelled label member
      · obtain ⟨other, known, inside⟩ := List.mem_flatMap.1 member
        obtain ⟨image, moved', same⟩ := Program.object_of_mem_addresses there
        exact moved image moved' other known ((Image.object_of_mem_labels inside).symm.trans same)
    · exact rest.labelled label member
  · rw [addresses, List.mem_append, not_or] at absent
    rw [rest.others address absent.2, first.others address absent.1]
  · exact rest.kept (first.continues.placed placed) place object (first.kept placed place object known)
  · rw [List.zip_append length] at member
    rcases List.mem_append.1 member with member | member
    · exact rest.kept (first.continues.placed placed) _ _ (first.found placed entry member)
    · exact rest.found (first.continues.placed placed) entry member

theorem settles_installServices (services : List Service) (sim : Simulation σ) :
    Settles services (installServices services sim).1 sim.heap
      (installServices services sim).2.heap := by
  induction services generalizing sim with
  | nil => exact settles_nil sim.heap
  | cons service services ih =>
      exact (settles_install service sim).append (ih (service.install sim).2)

theorem resolve_of_mem (names : (program.map Image.name).Nodup) (member : image ∈ program)
    (methods : (image.methods.map Method.name).Nodup) {offset : Nat} {method : Method}
    (here : image.methods[offset]? = some method) :
    program.resolve image.name method.name = some ⟨image, offset, method⟩ := by
  obtain ⟨inside, same⟩ := List.getElem?_eq_some_iff.1 here
  have place : image.methods.findIdx? (·.name = method.name) = some offset := by
    refine List.findIdx?_eq_some_iff_getElem.2 ⟨inside, by simp [same], fun earlier before => ?_⟩
    have apart := List.pairwise_iff_getElem.1 (List.pairwise_map.1 methods) earlier offset
      (Nat.lt_trans before inside) inside before
    simpa [same] using apart
  simp [Program.resolve, find?_of_nodup names member, place, here]

theorem addressOf_labels (names : (program.map Image.name).Nodup)
    (methods : ∀ image ∈ program, (image.methods.map Method.name).Nodup) :
    (program.flatMap fun image => image.methods.map fun method =>
      (program.resolve image.name method.name).map Target.address) =
        program.addresses.map some := by
  rw [Program.addresses, Program.labels, List.map_flatMap, List.map_flatMap]
  refine List.flatMap_congr fun image member => ?_
  have places : image.methods = image.methods.zipIdx.map Prod.fst := (List.zipIdx_map_fst ..).symm
  rw [Image.labels, List.map_map, List.map_map]
  conv_lhs => rw [places, List.map_map]
  refine List.map_congr_left fun entry inside => ?_
  have here := List.mem_zipIdx_iff_getElem?.1 inside
  simp only [Function.comp, resolve_of_mem names member (methods image member) here]
  rfl

end Scenario

end Cadence
