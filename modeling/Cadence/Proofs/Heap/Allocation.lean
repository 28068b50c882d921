import Cadence.Proofs.Heap
import Cadence.Proofs.Heap.Numbering
import Mathlib.Data.List.Nodup
/-!
# Allocation

What a heap has handed out since it was last emptied. No address is handed out twice, under any hash
of the content, and each object is found at its own address and nowhere else.
-/

namespace Cadence.Heap

variable {heap : Heap} {hash other address place : String} {object found : Object}

def count (heap : Heap) (hash : String) : Nat :=
  (heap.salts.find? hash).getD 0

def Taken (heap : Heap) (address : String) : Prop :=
  ∃ hash salt, 0 < salt ∧ salt ≤ heap.count hash ∧ address = hash ++ "_" ++ toString salt

theorem allocateHash_fst (heap : Heap) (hash : String) :
    (heap.allocateHash hash).1 = hash ++ "_" ++ toString (heap.count hash + 1) := rfl

theorem count_allocateHash (heap : Heap) (hash other : String) :
    (heap.allocateHash hash).2.count other = heap.count other + if hash = other then 1 else 0 := by
  by_cases same : hash = other
  · subst same
    simp [count, allocateHash]
  · simp [count, allocateHash, Fields.find?_insert_of_ne _ _ (Ne.symm same), same]

theorem taken_allocateHash :
    (heap.allocateHash hash).2.Taken address ↔
      heap.Taken address ∨ address = (heap.allocateHash hash).1 := by
  rw [allocateHash_fst]
  constructor
  · rintro ⟨other, salt, positive, bound, rfl⟩
    rw [count_allocateHash] at bound
    by_cases old : salt ≤ heap.count other
    · exact .inl ⟨other, salt, positive, old, rfl⟩
    · by_cases same : hash = other
      · subst same
        obtain rfl : salt = heap.count hash + 1 := by rw [if_pos rfl] at bound; omega
        exact .inr rfl
      · rw [if_neg same] at bound
        exact absurd bound old
  · rintro (⟨other, salt, positive, bound, rfl⟩ | rfl)
    · exact ⟨other, salt, positive, by rw [count_allocateHash]; omega, rfl⟩
    · exact ⟨hash, heap.count hash + 1, by omega, by simp [count_allocateHash], rfl⟩

theorem not_taken_allocateHash : ¬ heap.Taken (heap.allocateHash hash).1 := by
  rintro ⟨other, salt, -, bound, same⟩
  obtain ⟨rfl, rfl⟩ := numbered_inj (c := '_') rfl rfl (heap.allocateHash_fst hash ▸ same)
  omega

theorem get?_registerBy (hashOf : Object → String) (heap : Heap) (object : Object)
    (place : String) :
    (heap.registerBy hashOf object).2.get? place =
      if place = (heap.allocateHash (hashOf object)).1 then some object else heap.get? place := by
  show List.lookup place (((heap.allocateHash (hashOf object)).1, object) :: heap.objects) = _
  by_cases here : place = (heap.allocateHash (hashOf object)).1
  · rw [if_pos here, here, List.lookup_cons_self]
  · rw [if_neg here, List.lookup_cons, beq_false_of_ne here]
    rfl

inductive Operation where
  | allocate (object : Object)
  | register (object : Object)
  | reset

/-- An address, what it was handed out for, and whether that was registered under it. -/
structure Allocation where
  address : String
  object : Object
  registered : Bool

structure Ledger where
  heap : Heap := empty
  allocations : List Allocation := []

namespace Ledger

def apply (hash : Object → String) (ledger : Ledger) : Operation → Ledger
  | .allocate object =>
    let (address, heap) := ledger.heap.allocateBy hash object
    ⟨heap, ledger.allocations ++ [⟨address, object, false⟩]⟩
  | .register object =>
    let (address, heap) := ledger.heap.registerBy hash object
    ⟨heap, ledger.allocations ++ [⟨address, object, true⟩]⟩
  | .reset => { heap := ledger.heap.reset }

def after (hash : Object → String) (operations : List Operation) : Ledger :=
  operations.foldl (apply hash) {}

def addresses (ledger : Ledger) : List String :=
  ledger.allocations.map Allocation.address

def registered (ledger : Ledger) : List (String × Object) :=
  (ledger.allocations.filter Allocation.registered).map fun made => (made.address, made.object)

def countBefore (hash : Object → String) (ledger : Ledger) (n : Nat) (under : String) : Nat :=
  (ledger.allocations.take n).countP (hash ·.object = under)

/-- The heap answers as the ledger says. The salt of an allocation counts those under its hash. -/
structure Faithful (hash : Object → String) (ledger : Ledger) : Prop where
  distinct : ledger.addresses.Nodup
  salted : ∀ n made, ledger.allocations[n]? = some made → made.address =
    hash made.object ++ "_" ++ toString (ledger.countBefore hash n (hash made.object) + 1)
  found : ∀ place object, ledger.heap.get? place = some object ↔
    ⟨place, object, true⟩ ∈ ledger.allocations
  listed : ledger.heap.toList = ledger.registered

structure Kept (hash : Object → String) (ledger : Ledger) : Prop extends Faithful hash ledger where
  taken : ∀ address, ledger.heap.Taken address ↔ address ∈ ledger.addresses
  count : ∀ under, ledger.heap.count under =
    ledger.countBefore hash ledger.allocations.length under

variable {hash : Object → String} {ledger after : Ledger}

theorem countBefore_length (hash : Object → String) (ledger : Ledger) (under : String) :
    ledger.countBefore hash ledger.allocations.length under =
      ledger.allocations.countP (hash ·.object = under) := by
  rw [countBefore, List.take_length]

theorem kept_empty (hash : Object → String) : Kept hash {} where
  distinct := List.nodup_nil
  salted n made present := by simp at present
  found place object := by simp [get?, empty]
  listed := rfl
  taken address := by
    simp only [addresses, List.map_nil, List.not_mem_nil, iff_false]
    rintro ⟨hash, salt, positive, bound, -⟩
    exact absurd (Nat.lt_of_lt_of_le positive bound) (by simp [Heap.count, empty])
  count under := rfl

theorem Kept.allocate (kept : Kept hash ledger) (object : Object) (registered : Bool)
    (allocations : after.allocations = ledger.allocations ++
      [⟨(ledger.heap.allocateHash (hash object)).1, object, registered⟩])
    (salts : after.heap.salts = (ledger.heap.allocateHash (hash object)).2.salts)
    (found : ∀ place, after.heap.get? place =
      if registered ∧ place = (ledger.heap.allocateHash (hash object)).1 then some object
      else ledger.heap.get? place)
    (listed : after.heap.toList = ledger.heap.toList ++
      if registered then [((ledger.heap.allocateHash (hash object)).1, object)] else []) :
    Kept hash after := by
  let address := (ledger.heap.allocateHash (hash object)).1
  -- The salt of an allocation counts those of its digest, so that no address comes twice.
  have fresh : address ∉ ledger.addresses := fun member =>
    not_taken_allocateHash ((kept.taken address).2 member)
  have addresses : after.addresses = ledger.addresses ++ [address] := by
    simp [Ledger.addresses, allocations, address]
  have before (n : Nat) (inside : n ≤ ledger.allocations.length) (under : String) :
      after.countBefore hash n under = ledger.countBefore hash n under := by
    rw [countBefore, allocations, List.take_append_of_le_length inside, countBefore]
  refine ⟨⟨?_, fun n made present => ?_, fun place other => ?_, ?_⟩, fun other => ?_, fun under => ?_⟩
  · rw [addresses]
    exact kept.distinct.append (List.nodup_singleton _) (by simpa using fresh)
  · rw [allocations] at present
    rcases Nat.lt_or_ge n ledger.allocations.length with inside | outside
    · rw [List.getElem?_append_left inside] at present
      rw [before n (Nat.le_of_lt inside)]
      exact kept.salted n made present
    · rw [List.getElem?_append_right outside, List.getElem?_singleton] at present
      split at present
      next last =>
        obtain rfl : n = ledger.allocations.length := by omega
        obtain rfl := Option.some.inj present
        rw [before _ (Nat.le_refl _), ← kept.count, allocateHash_fst]
      next => cases present
  · rw [found, allocations, List.mem_append]
    by_cases here : registered = true ∧ place = address
    · obtain ⟨rfl, rfl⟩ := here
      have unknown : ⟨address, other, true⟩ ∉ ledger.allocations := fun member =>
        fresh (List.mem_map_of_mem member)
      simp [address, unknown, eq_comm]
    · rw [if_neg here, kept.found]
      simp only [List.mem_singleton, Allocation.mk.injEq, iff_self_or]
      rintro ⟨same, -, kind⟩
      exact absurd ⟨kind.symm, same⟩ here
  · rw [listed, kept.listed, Ledger.registered, Ledger.registered, allocations]
    cases registered <;> simp
  · rw [addresses, List.mem_append, List.mem_singleton, ← kept.taken, ← taken_allocateHash]
    simp only [Taken, Heap.count, salts]
  · have counted : after.heap.count under =
        (ledger.heap.allocateHash (hash object)).2.count under := by rw [Heap.count, salts]; rfl
    rw [counted, count_allocateHash, kept.count, countBefore_length, countBefore_length, allocations]
    simp [List.countP_append, List.countP_singleton]

theorem Kept.apply (kept : Kept hash ledger) (operation : Operation) :
    Kept hash (ledger.apply hash operation) := by
  cases operation with
  | allocate object =>
      refine kept.allocate object false rfl rfl (fun place => ?_) ?_
      · rw [if_neg (by simp)]
        rfl
      · exact (List.append_nil _).symm
  | register object =>
      refine kept.allocate object true rfl rfl (fun place => ?_) ?_
      · simp only [true_and]
        exact get?_registerBy hash ledger.heap object place
      · simp [Ledger.apply, registerBy, allocateBy, toList, allocateHash]
  | reset => exact kept_empty hash

/-- Whatever is asked of a heap, it answers as its ledger says; once it is emptied, the same
operations hand out the same addresses again. -/
theorem heap_keeps_its_ledger (hash : Object → String) (operations : List Operation) :
    Faithful hash (Ledger.after hash operations) ∧ ∀ earlier,
      Ledger.after hash (earlier ++ .reset :: operations) = Ledger.after hash operations := by
  constructor
  · have kept : ∀ ledger, Kept hash ledger → Kept hash (operations.foldl (apply hash) ledger) := by
      induction operations with
      | nil => exact fun ledger kept => kept
      | cons operation operations ih => exact fun ledger kept => ih _ (kept.apply operation)
    exact (kept {} (kept_empty hash)).toFaithful
  · intro earlier
    rw [Ledger.after, List.foldl_append, List.foldl_cons]
    rfl

end Ledger

end Cadence.Heap
