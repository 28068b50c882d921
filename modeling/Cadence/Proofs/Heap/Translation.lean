import Cadence.Proofs.Heap.Numbering
import Mathlib.Data.List.Induction
/-!
# Translation

Which node a method location has after any changes to a heap: the one that it was last given itself.
The table is kept under the text of the locations, and no two locations have the same text.
-/

namespace Cadence.Heap

inductive Change where
  | allocate (object : Object)
  | register (object : Object)
  | setNode (address : Address) (node : String)
  | reset

namespace Change

def apply (heap : Heap) : Change → Heap
  | allocate object => (heap.allocate object).2
  | register object => (heap.register object).2
  | setNode address node => heap.setNode address node
  | reset => heap.reset

def Forgets (address : Address) : Change → Prop
  | setNode other _ => other = address
  | reset => True
  | allocate _ | register _ => False

end Change

def changed (changes : List Change) : Heap :=
  changes.foldl Change.apply empty

/-- The node was given to exactly this address, and neither was another one later on nor was the
heap emptied. -/
def LastNamed (changes : List Change) (address : Address) (node : String) : Prop :=
  ∃ before later, changes = before ++ .setNode address node :: later ∧
    ∀ change ∈ later, ¬ change.Forgets address

variable {heap : Heap} {changes : List Change} {change : Change} {address : Address}
  {node : String}

theorem not_lastNamed_nil : ¬ LastNamed [] address node := by
  rintro ⟨before, later, split, -⟩
  simp at split

theorem lastNamed_concat : LastNamed (changes ++ [change]) address node ↔
    change = .setNode address node ∨ ¬ change.Forgets address ∧ LastNamed changes address node := by
  constructor
  · rintro ⟨before, later, split, kept⟩
    cases later using List.reverseRecOn with
    | nil =>
        obtain ⟨-, last⟩ := List.append_inj' split rfl
        exact .inl (List.singleton_inj.1 last)
    | append_singleton later last =>
        rw [← List.cons_append, ← List.append_assoc] at split
        obtain ⟨front, same⟩ := List.append_inj' split rfl
        obtain rfl := List.singleton_inj.1 same
        rw [List.forall_mem_append, List.forall_mem_singleton] at kept
        exact .inr ⟨kept.2, before, later, front, kept.1⟩
  · intro named
    cases named with
    | inl last =>
        subst last
        exact ⟨changes, [], rfl, by simp⟩
    | inr earlier =>
        obtain ⟨remembers, before, later, rfl, kept⟩ := earlier
        refine ⟨before, later ++ [change], by simp, ?_⟩
        rw [List.forall_mem_append, List.forall_mem_singleton]
        exact ⟨kept, remembers⟩

theorem find?_apply : (change.apply heap).nodes.find? address.location = some node ↔
    change = .setNode address node ∨
      ¬ change.Forgets address ∧ heap.nodes.find? address.location = some node := by
  cases change with
  | allocate object => simp [Change.apply, Change.Forgets, allocate, allocateBy, allocateHash]
  | register object =>
      simp [Change.apply, Change.Forgets, register, registerBy, allocateBy, allocateHash]
  | reset => simp [Change.apply, Change.Forgets, empty]
  | setNode other named =>
      by_cases same : other = address
      · subst same
        simp [Change.apply, Change.Forgets, setNode]
      · have apart : address.location ≠ other.location := fun alike =>
          same (Address.location_inj.1 alike).symm
        simp [Change.apply, Change.Forgets, setNode, Fields.find?_insert_of_ne _ _ apart, same]

theorem find?_changed : (changed changes).nodes.find? address.location = some node ↔
    LastNamed changes address node := by
  induction changes using List.reverseRecOn with
  | nil =>
      have nothing : (changed []).nodes.find? address.location = none := rfl
      simp [nothing, not_lastNamed_nil]
  | append_singleton changes change ih =>
      have last : changed (changes ++ [change]) = change.apply (changed changes) := by
        simp [changed]
      rw [last, find?_apply, lastNamed_concat, ih]

theorem nodeAt_eq_ok : heap.nodeAt address = .ok node ↔
    heap.nodes.find? address.location = some node := by
  unfold nodeAt
  split <;> simp_all

theorem nodeAt_eq_error : heap.nodeAt address = .error (.pageFault address.location) ↔
    heap.nodes.find? address.location = none := by
  unfold nodeAt
  split <;> simp_all

/-- No two locations share their text. So a location is translated to the node that was last given
to exactly its address, and is a page fault if there is none. -/
theorem locations_never_alias : Function.Injective Address.location ∧
    ∀ (changes : List Change) (address : Address),
      (∀ node, (changed changes).nodeAt address = .ok node ↔ LastNamed changes address node) ∧
      ((changed changes).nodeAt address = .error (.pageFault address.location) ↔
        ∀ node, ¬ LastNamed changes address node) ∧
      ((changed changes).hasNode address = true ↔ ∃ node, LastNamed changes address node) := by
  constructor
  · exact fun _ _ => Address.location_inj.1
  · intro changes address
    refine ⟨fun node => ?_, ?_, ?_⟩
    · rw [nodeAt_eq_ok, find?_changed]
    · rw [nodeAt_eq_error, Option.eq_none_iff_forall_ne_some]
      exact forall_congr' fun node => not_congr find?_changed
    · rw [hasNode, Option.isSome_iff_exists]
      exact exists_congr fun node => find?_changed

example : (changed [.setNode ⟨"a.1", 2⟩ "deep", .setNode ⟨"a", 12⟩ "flat"]).nodeAt ⟨"a.1", 2⟩ =
    .ok "deep" := by decide

end Cadence.Heap
