import Cadence.Proofs.FlowTable.Boundary
/-!
Flows of two kinds. Where the flows of each kind wait for flows of that kind only, settling the waits
of one kind does not touch the other one.
-/

namespace Cadence.FlowTable

open Relation

variable {σ : Type} {kept : FlowId → Bool} {table after : FlowTable σ}
  {root id child : Nat} {flow : Flow σ} {wait : Wait} {tick : Tick} {parent : FlowId}
  {caller : Option Address} {ids : List FlowId}

def Closed (kept : FlowId → Bool) (table : FlowTable σ) : Prop :=
  ∀ id, ∀ child ∈ table.dependencies id, kept child = kept id

theorem Closed.reached (closed : table.Closed kept) (path : ReflTransGen table.Awaits root id) :
    kept id = kept root := by
  induction path with
  | refl => rfl
  | tail _ awaits ih => exact (closed _ _ awaits.1).trans ih

theorem Closed.spared (closed : table.Closed kept)
    (spares : ∀ id, Spares tick (table.find? id) (after.find? id)) : after.Closed kept := by
  intro id child member
  exact closed id child (dependencies_congr (Spares.dependencies (spares id) member) ▸ member)

theorem Closed.settled (closed : table.Closed kept) (settled : Settled table tick after) :
    after.Closed kept := by
  intro id child member
  obtain ⟨flow, wait, found, listed⟩ := suspended_of_mem_dependencies member
  exact closed id child (dependencies_of_suspended (settled.suspended found) ▸ listed)

theorem Closed.withdraw (closed : table.Closed kept) (id : Nat) : (table.withdraw id).Closed kept := by
  intro other child member
  refine closed other child ?_
  unfold FlowTable.withdraw at member
  cases found : table.suspended? id with
  | none => simpa only [found] using member
  | some pair =>
      simp only [found] at member
      rw [dependencies_put (suspended?_eq_some.1 found)] at member
      split at member
      · simp [Phase.dependencies] at member
      · exact member

theorem Closed.cancelTree (closed : table.Closed kept) (id : Nat) (parent : FlowId)
    (caller : Option Address) (tick : Tick) :
    (table.cancelTree id parent caller tick).2.Closed kept :=
  closed.spared (spares_cancelTree table id parent caller tick)

theorem kept_liveDescendants (closed : table.Closed kept) :
    ∀ id ∈ root :: table.liveDescendants root, kept id = kept root :=
  fun _ member => closed.reached (mem_tree_iff.1 member)

theorem find?_tearDownLosers_of_kept (closed : table.Closed kept) {winner : Option FlowId} {here : Address}
    (others : ∀ id ∈ ids, kept id = false) (known : kept child = true) :
    (tearDownLosers winner parent here tick ids table).2.find? child = table.find? child := by
  induction ids generalizing table with
  | nil => rfl
  | cons id ids ih =>
      have others' : ∀ id ∈ ids, kept id = false := fun other member =>
        others other (List.mem_cons_of_mem _ member)
      unfold tearDownLosers
      split
      · refine (ih (closed.cancelTree id parent (some here) tick) others').trans ?_
        refine find?_cancelTree_of_unreached fun path => ?_
        have same := closed.reached path
        rw [known, others id (List.mem_cons_self ..)] at same
        cases same
      · exact ih closed others'

theorem find?_settle_of_kept (closed : table.Closed kept) {cancelled : List Cancellation}
    (done : settle id tick table = .ok cancelled after) (other : kept id = false)
    (known : kept child = true) : after.find? child = table.find? child := by
  have distinct : child ≠ id := by
    rintro rfl
    rw [known] at other
    cases other
  cases found : table.suspended? id with
  | none =>
      simp only [settle, found] at done
      injection done with _ same
      rw [same]
  | some pair =>
      obtain ⟨flow, wait⟩ := pair
      have waits := suspended?_eq_some.1 found
      cases outcome : table.outcome? wait with
      | none =>
          simp only [settle, found, outcome] at done
          injection done with _ same
          rw [same]
      | some result =>
          obtain ⟨value, released⟩ := result
          obtain ⟨cancelled', settled⟩ := settle_of_satisfied waits outcome tick
          have decided : (table.decided id wait released tick).find? child = table.find? child := by
            unfold decided
            split
            · refine (find?_tearDownLosers_of_kept (closed.withdraw id) (fun dependency member => ?_)
                known).trans ((find?_withdraw waits child).trans (if_neg distinct))
              rw [closed id dependency (dependencies_of_suspended waits ▸ member)]
              exact other
            · rfl
          rw [settled] at done
          split at done
          next resumed =>
            injection done with _ same
            subst same
            obtain ⟨-, -, stack, waiting, -, rfl⟩ := resume_ok resumed
            exact (find?_put_of_ne _ _ distinct).trans decided
          next => cases done

theorem find?_settleEach_of_kept (closed : table.Closed kept) {cancelled : List Cancellation}
    (done : settleEach tick ids table = .ok cancelled after) (others : ∀ id ∈ ids, kept id = false)
    (known : kept child = true) : after.find? child = table.find? child := by
  induction ids generalizing table cancelled with
  | nil =>
      injection done with _ same
      rw [same]
  | cons id ids ih =>
      obtain ⟨earlier, mid, later, first, rest, -⟩ := settleEach_cons_ok.1 done
      have others' : ∀ id ∈ ids, kept id = false := fun other member =>
        others other (List.mem_cons_of_mem _ member)
      refine (ih (closed.settled (settle_ok first).1) rest others').trans ?_
      exact find?_settle_of_kept closed first (others id (List.mem_cons_self ..)) known

variable {old : Flow σ} {request : Request σ} {here : Address}

theorem Closed.completing (closed : table.Closed kept) (found : table.find? id = some (.active old))
    (done : Completion) : (table.completing id done).Closed kept := by
  intro other child member
  have member : child ∈ (table.put id (some (.completed done))).dependencies other := member
  rw [dependencies_put found] at member
  split at member
  · cases member
  · exact closed other child member

theorem Closed.awaiting (closed : table.Closed kept) (found : table.find? id = some (.active old))
    (new : ∀ child : Nat, table.phases.size < child →
      child ≤ table.phases.size + request.recipes.length → kept child = kept id) :
    (table.awaiting id flow request here tick).Closed kept := by
  intro other child member
  obtain ⟨flow', wait, waits, listed⟩ := suspended_of_mem_dependencies member
  rcases suspended_awaiting found waits with ⟨rfl, -, fresh⟩ | before
  · obtain ⟨beyond, inside, -⟩ := fresh child listed
    exact new child beyond inside
  · exact closed other child (dependencies_of_suspended before ▸ listed)

theorem ready_awaiting (unsettled : table.Unsettled) (found : table.find? id = some (.active old))
    {other : Nat} (ready : other ∈ (table.awaiting id flow request here tick).ready) : other = id := by
  obtain ⟨flow', wait, waits, satisfied⟩ := mem_ready.1 ready
  rcases suspended_awaiting found waits with ⟨same, -⟩ | before
  · exact same
  · rw [outcome?_congr (completed?_awaiting found flow request here tick)] at satisfied
    exact absurd (unsettled other flow' wait before) satisfied

theorem kept_ready_completing (unsettled : table.Unsettled) (closed : table.Closed kept)
    (found : table.find? id = some (.active old)) {done : Completion} {other : Nat}
    (ready : other ∈ (table.completing id done).ready) : kept other = kept id := by
  obtain ⟨flow', wait, waits, satisfied⟩ := mem_ready.1 ready
  rw [find?_completing found] at waits
  split at waits
  · cases waits
  next distinct =>
    by_cases listed : id ∈ wait.dependencies
    · exact (closed other id (dependencies_of_suspended waits ▸ listed)).symm
    · have same : (table.completing id done).outcome? wait = table.outcome? wait :=
        outcome?_local fun child member =>
          completed?_completing found done fun same => listed (same ▸ member)
      rw [same] at satisfied
      exact absurd (unsettled other flow' wait waits) satisfied

theorem find?_waiting_of_kept (closed : table.Closed kept) (unsettled : table.Unsettled)
    (found : table.find? id = some (.active old)) (other : kept id = false)
    (new : ∀ child : Nat, table.phases.size < child →
      child ≤ table.phases.size + request.recipes.length → kept child = kept id)
    {cancelled : List Cancellation}
    (done : resolve tick (table.awaiting id flow request here tick) = .ok cancelled after)
    (known : kept child = true) : after.find? child = table.find? child := by
  have distinct : child ≠ id := by
    rintro rfl
    rw [known] at other
    cases other
  refine (find?_settleEach_of_kept (closed.awaiting found new) done (fun waiting ready => ?_)
    known).trans ?_
  · rw [ready_awaiting unsettled found ready, other]
  · obtain ⟨size, others, -⟩ := awaiting_spec found flow request here tick
    by_cases inside : child ≤ table.phases.size
    · exact others child distinct inside
    · have beyond : table.phases.size + request.recipes.length < child := by
        by_contra within
        rw [new child (by omega) (by omega), other] at known
        cases known
      rw [find?_eq_none_of_size_lt (size.symm ▸ beyond)]
      exact (find?_eq_none_of_size_lt (by omega)).symm

theorem find?_completed_of_kept (closed : table.Closed kept) (unsettled : table.Unsettled)
    (found : table.find? id = some (.active old)) (other : kept id = false) {done : Completion}
    {cancelled : List Cancellation}
    (settled : resolve tick (table.completing id done) = .ok cancelled after)
    (known : kept child = true) : after.find? child = table.find? child := by
  have distinct : child ≠ id := by
    rintro rfl
    rw [known] at other
    cases other
  refine (find?_settleEach_of_kept (closed.completing found done) settled (fun waiting ready => ?_)
    known).trans ((find?_completing found done child).trans (if_neg distinct))
  rw [kept_ready_completing unsettled closed found ready, other]

end Cadence.FlowTable
