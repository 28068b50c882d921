import Cadence.Proofs.FlowTable.Lookup
import Mathlib.Data.List.Perm.Subperm
import Mathlib.Logic.Relation
/-!
The search through the await graph finds exactly the live flows that a flow waits for, directly or
through other live flows, whatever the graph looks like.
-/

namespace Cadence.FlowTable

open Relation

variable {σ : Type} {table : FlowTable σ} {root a b : Nat}

def Awaits (table : FlowTable σ) (a b : FlowId) : Prop :=
  b ∈ table.dependencies a ∧ table.isLive b = true

theorem mem_unseen {seen ids : List FlowId} :
    b ∈ table.graph.unseen seen ids ↔ b ∈ ids ∧ table.isLive b = true ∧ b ∉ seen := by
  induction ids generalizing seen with
  | nil => simp [AwaitGraph.unseen]
  | cons id ids ih =>
      unfold AwaitGraph.unseen
      split
      next fresh =>
        rw [List.mem_cons, ih, List.mem_cons, List.mem_cons]
        constructor
        · rintro (rfl | ⟨listed, live, unseen⟩)
          · exact ⟨.inl rfl, fresh⟩
          · exact ⟨.inr listed, live, fun h => unseen (.inr h)⟩
        · rintro ⟨listed, live, unseen⟩
          by_cases same : b = id
          · exact .inl same
          · exact .inr ⟨listed.resolve_left same, live, fun h => h.elim same unseen⟩
      next stale =>
        rw [ih, List.mem_cons]
        constructor
        · rintro ⟨listed, rest⟩
          exact ⟨.inr listed, rest⟩
        · rintro ⟨rfl | listed, rest⟩
          · exact (stale rest).elim
          · exact ⟨listed, rest⟩

theorem nodup_unseen (table : FlowTable σ) (seen ids : List FlowId) :
    (table.graph.unseen seen ids).Nodup := by
  induction ids generalizing seen with
  | nil => exact List.nodup_nil
  | cons id ids ih =>
      unfold AwaitGraph.unseen
      split
      · refine List.nodup_cons.2 ⟨fun again => ?_, ih _⟩
        exact (mem_unseen.1 again).2.2 (List.mem_cons_self ..)
      · exact ih _

/-- What holds while the search from `root` has reached `found` and still has to look at `queue`. -/
structure Search (table : FlowTable σ) (root : FlowId) (queue found : List FlowId) : Prop where
  nodup : found.Nodup
  fresh : root ∉ found
  reached : ∀ b ∈ found, TransGen table.Awaits root b
  queued : ∀ b ∈ queue, b = root ∨ b ∈ found
  closed : ∀ a, a = root ∨ a ∈ found → a ∉ queue → ∀ b, table.Awaits a b → b = root ∨ b ∈ found

theorem Search.start (table : FlowTable σ) (root : FlowId) : table.Search root [root] [] where
  nodup := List.nodup_nil
  fresh := List.not_mem_nil
  reached := by simp
  queued := by simp
  closed := by
    rintro a (rfl | impossible) unqueued
    · simp at unqueued
    · simp at impossible

theorem Search.step {id : FlowId} {queue found : List FlowId}
    (search : table.Search root (id :: queue) found) :
    table.Search root (queue ++ table.graph.unseen (root :: found) (table.dependencies id))
      (found ++ table.graph.unseen (root :: found) (table.dependencies id)) := by
  have reachedId : ReflTransGen table.Awaits root id := by
    rcases search.queued id (List.mem_cons_self ..) with rfl | known
    · exact .refl
    · exact (search.reached id known).to_reflTransGen
  constructor
  · refine List.nodup_append.2 ⟨search.nodup, nodup_unseen .., fun b known c new same => ?_⟩
    exact (mem_unseen.1 new).2.2 (List.mem_cons_of_mem _ (same ▸ known))
  · intro again
    rcases List.mem_append.1 again with known | new
    · exact search.fresh known
    · exact (mem_unseen.1 new).2.2 (List.mem_cons_self ..)
  · intro b member
    rcases List.mem_append.1 member with known | new
    · exact search.reached b known
    · obtain ⟨listed, live, -⟩ := mem_unseen.1 new
      exact TransGen.tail' reachedId ⟨listed, live⟩
  · intro b member
    rcases List.mem_append.1 member with old | new
    · exact (search.queued b (List.mem_cons_of_mem _ old)).imp_right (List.mem_append_left _)
    · exact .inr (List.mem_append_right _ new)
  · intro a member unqueued b awaits
    have old : a = root ∨ a ∈ found := by
      refine member.imp_right fun h => (List.mem_append.1 h).resolve_right fun new => ?_
      exact unqueued (List.mem_append_right _ new)
    by_cases same : a = id
    · by_cases known : b ∈ root :: found
      · exact (List.mem_cons.1 known).imp_right (List.mem_append_left _)
      · refine .inr (List.mem_append_right _ (mem_unseen.2 ⟨same ▸ awaits.1, awaits.2, known⟩))
    · have passed : a ∉ id :: queue := by
        intro h
        rcases List.mem_cons.1 h with h | h
        · exact same h
        · exact unqueued (List.mem_append_left _ h)
      exact (search.closed a old passed b awaits).imp_right (List.mem_append_left _)

theorem Search.length_le {queue found : List FlowId} (search : table.Search root queue found) :
    found.length ≤ table.phases.size := by
  have inside : found ⊆ List.range' 1 table.phases.size := by
    intro b member
    obtain ⟨c, -, -, live⟩ := TransGen.tail'_iff.1 (search.reached b member)
    have bounds := le_size_of_isLive live
    rw [List.mem_range'_1]
    omega
  simpa using (List.subperm_of_subset search.nodup inside).length_le

theorem Search.finish {fuel : Nat} {queue found : List FlowId}
    (search : table.Search root queue found)
    (enough : queue.length + table.phases.size ≤ fuel + found.length) :
    table.Search root [] (table.graph.explore root fuel queue found) := by
  induction fuel generalizing queue found with
  | zero =>
      have bound := search.length_le
      have empty : queue = [] := List.eq_nil_of_length_eq_zero (by omega)
      rw [empty] at search
      exact search
  | succ fuel ih =>
      cases queue with
      | nil => exact search
      | cons id queue =>
          refine ih search.step ?_
          simp only [List.length_append, List.length_cons] at enough ⊢
          omega

/-- Fuel that is enough is as good as more. -/
theorem Search.explore_add {fuel : Nat} {queue found : List FlowId}
    (search : table.Search root queue found)
    (enough : queue.length + table.phases.size ≤ fuel + found.length) (more : Nat) :
    table.graph.explore root (fuel + more) queue found =
      table.graph.explore root fuel queue found := by
  induction fuel generalizing queue found with
  | zero =>
      have bound := search.length_le
      have empty : queue = [] := List.eq_nil_of_length_eq_zero (by omega)
      rw [empty]
      cases more <;> rfl
  | succ fuel ih =>
      rw [Nat.add_right_comm]
      cases queue with
      | nil => rfl
      | cons id queue =>
          refine ih search.step ?_
          simp only [List.length_append, List.length_cons] at enough ⊢
          omega

theorem explore_eq_liveDescendants {fuel : Nat} (enough : table.phases.size < fuel) (root : FlowId) :
    table.graph.explore root fuel [root] [] = table.liveDescendants root := by
  obtain ⟨more, rfl⟩ := Nat.exists_eq_add_of_le (Nat.succ_le_of_lt enough)
  exact (Search.start table root).explore_add (by simp; omega) more

theorem search_liveDescendants (table : FlowTable σ) (root : FlowId) :
    table.Search root [] (table.liveDescendants root) :=
  (Search.start table root).finish (by simp; omega)

theorem nodup_liveDescendants (table : FlowTable σ) (root : FlowId) :
    (table.liveDescendants root).Nodup :=
  (search_liveDescendants table root).nodup

theorem mem_liveDescendants :
    b ∈ table.liveDescendants root ↔ b ≠ root ∧ TransGen table.Awaits root b := by
  have search := search_liveDescendants table root
  constructor
  · intro found
    exact ⟨fun same => search.fresh (same ▸ found), search.reached b found⟩
  · rintro ⟨distinct, path⟩
    have found : b = root ∨ b ∈ table.liveDescendants root := by
      clear distinct
      induction path with
      | single awaits => exact search.closed root (.inl rfl) List.not_mem_nil _ awaits
      | tail _ awaits ih => exact search.closed _ ih List.not_mem_nil _ awaits
    exact found.resolve_left distinct

theorem isLive_of_mem_liveDescendants (found : b ∈ table.liveDescendants root) :
    table.isLive b = true := by
  obtain ⟨-, path⟩ := mem_liveDescendants.1 found
  obtain ⟨-, -, -, live⟩ := TransGen.tail'_iff.1 path
  exact live

end Cadence.FlowTable
