import Cadence.Heap
/-!
Heaps only grow: neither an object nor the node of a method location is ever lost. Loading a method
gives its location a node, so that heaps on which different methods were loaded stay alike.
-/

namespace Cadence.Heap

variable {heap middle after : Heap} {address other : Address}

structure Grows (heap after : Heap) : Prop where
  objects : ∀ object, (heap.get? object).isSome = true → (after.get? object).isSome = true
  nodes : ∀ address, heap.hasNode address = true → after.hasNode address = true

theorem Grows.refl (heap : Heap) : heap.Grows heap :=
  ⟨fun _ present => present, fun _ present => present⟩

theorem Grows.trans (earlier : heap.Grows middle) (later : middle.Grows after) :
    heap.Grows after :=
  ⟨fun object present => later.objects object (earlier.objects object present),
    fun address present => later.nodes address (earlier.nodes address present)⟩

theorem hasNode_setNode_self (heap : Heap) (address : Address) (node : String) :
    (heap.setNode address node).hasNode address = true := by
  simp [hasNode, setNode]

theorem hasNode_setNode {node : String} (present : heap.hasNode other = true) :
    (heap.setNode address node).hasNode other = true := by
  by_cases same : other.location = address.location
  · simp [hasNode, setNode, same]
  · simpa [hasNode, setNode, Fields.find?_insert_of_ne _ _ same] using present

theorem grows_setNode (heap : Heap) (address : Address) (node : String) :
    heap.Grows (heap.setNode address node) :=
  ⟨fun _ present => present, fun _ present => hasNode_setNode present⟩

theorem get?_register (heap : Heap) (object : Object) :
    (heap.register object).2.get? (heap.register object).1 = some object :=
  List.lookup_cons_self

theorem grows_register (heap : Heap) (object : Object) : heap.Grows (heap.register object).2 where
  objects name present := by
    obtain ⟨found, present⟩ := Option.isSome_iff_exists.1 present
    show (List.lookup name (_ :: heap.objects)).isSome = true
    rw [List.lookup_cons]
    split
    · rfl
    · simp [show List.lookup name heap.objects = some found from present]
  nodes _ present := present

def ensureNode (heap : Heap) (address : Address) : Heap :=
  if heap.hasNode address then heap else heap.setNode address address.location

theorem grows_ensureNode (heap : Heap) (address : Address) :
    heap.Grows (heap.ensureNode address) := by
  unfold ensureNode
  split
  · exact .refl heap
  · exact grows_setNode ..

theorem hasNode_ensureNode (heap : Heap) (address : Address) :
    (heap.ensureNode address).hasNode address = true := by
  unfold ensureNode
  split
  next present => exact present
  next => exact hasNode_setNode_self ..

theorem nodeAt_of_hasNode (present : heap.hasNode address = true) :
    ∃ node, heap.nodeAt address = .ok node := by
  obtain ⟨node, found⟩ := Option.isSome_iff_exists.1 present
  exact ⟨node, by simp [nodeAt, found]⟩

structure Within (heap more : Heap) : Prop where
  objects : more.objects = heap.objects
  nodes : ∀ location, more.nodes.find? location = heap.nodes.find? location ∨
    heap.nodes.find? location = none ∧ more.nodes.find? location = some location

theorem Within.refl (heap : Heap) : heap.Within heap :=
  ⟨rfl, fun _ => .inl rfl⟩

theorem Within.trans (within : heap.Within middle) (within' : middle.Within after) :
    heap.Within after where
  objects := within'.objects.trans within.objects
  nodes location := by
    rcases within'.nodes location with same' | ⟨absent', default'⟩
    · rw [same']
      exact within.nodes location
    · rcases within.nodes location with same | ⟨-, default⟩
      · exact .inr ⟨same.symm.trans absent', default'⟩
      · rw [absent'] at default
        cases default

theorem Within.get? (within : heap.Within after) (object : String) :
    after.get? object = heap.get? object := by
  rw [Heap.get?, within.objects]
  rfl

theorem Within.nodeAt (within : heap.Within after) (present : heap.hasNode address = true) :
    after.nodeAt address = heap.nodeAt address := by
  rcases within.nodes address.location with same | ⟨absent, -⟩
  · simp only [Heap.nodeAt, same]
  · simp [hasNode, absent] at present

theorem find?_ensureNode (heap : Heap) (address : Address) (location : String) :
    (heap.ensureNode address).nodes.find? location =
      if location = address.location then
        some ((heap.nodes.find? location).getD location)
      else heap.nodes.find? location := by
  unfold ensureNode hasNode
  by_cases here : location = address.location
  · subst here
    cases found : heap.nodes.find? address.location with
    | none => simp [setNode]
    | some node => simp [found]
  · rw [if_neg here]
    split
    · rfl
    · exact Fields.find?_insert_of_ne _ _ here

theorem objects_ensureNode (heap : Heap) (address : Address) :
    (heap.ensureNode address).objects = heap.objects := by
  unfold ensureNode
  split <;> rfl

theorem within_ensureNode (heap : Heap) (address : Address) :
    heap.Within (heap.ensureNode address) where
  objects := objects_ensureNode heap address
  nodes location := by
    rw [find?_ensureNode]
    split
    · cases found : heap.nodes.find? location with
      | none => exact .inr ⟨rfl, rfl⟩
      | some node => exact .inl rfl
    · exact .inl rfl

theorem Within.ensureNode (within : heap.Within after) (address : Address) :
    (heap.ensureNode address).Within (after.ensureNode address) where
  objects := by
    rw [objects_ensureNode, objects_ensureNode]
    exact within.objects
  nodes location := by
    rw [find?_ensureNode, find?_ensureNode]
    split
    · rcases within.nodes location with same | ⟨absent, default⟩
      · exact .inl (by rw [same])
      · exact .inl (by rw [absent, default]; rfl)
    · exact within.nodes location

end Cadence.Heap
