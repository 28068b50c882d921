import Cadence.Proofs.Engine
import Cadence.Proofs.FlowTable.Search
/-!
Cancelling a flow takes everything with it that it waits for, and changes no other flow.
-/

namespace Cadence.FlowTable

open Relation

variable {σ : Type} {table after : FlowTable σ} {tick : Tick} {parent : FlowId}
  {caller : Option Address} {ids : List FlowId} {root id x : Nat}

theorem tearDown_spec (parent : FlowId) (caller : Option Address) (tick : Tick)
    (ids : List FlowId) (table : FlowTable σ) :
    (∀ x flow, x ∈ ids → table.live? x = some flow →
      (tearDown parent caller tick ids table).2.find? x =
        some (.cancelled (flow.cancellation parent caller tick))) ∧
    (∀ x, x ∉ ids ∨ table.live? x = none →
      (tearDown parent caller tick ids table).2.find? x = table.find? x) := by
  induction ids generalizing table with
  | nil => exact ⟨by simp, fun _ _ => rfl⟩
  | cons id ids ih =>
      unfold tearDown
      cases found : table.live? id with
      | none =>
          refine ⟨fun x flow member live => ?_, fun x spared => ?_⟩
          · rcases List.mem_cons.1 member with rfl | member
            · simp [found] at live
            · exact (ih table).1 x flow member live
          · exact (ih table).2 x (spared.imp_left fun h member => h (List.mem_cons_of_mem _ member))
      | some flow =>
          obtain ⟨old, present⟩ : ∃ old, table.find? id = some old := by
            rcases live?_eq_some.1 found with h | ⟨_, h⟩ <;> exact ⟨_, h⟩
          let next := table.put id (some (.cancelled (flow.cancellation parent caller tick)))
          have here : next.find? id = some (.cancelled (flow.cancellation parent caller tick)) :=
            find?_put_self present
          have dead : next.live? id = none := by simp [live?, here]
          have elsewhere (x : Nat) (distinct : x ≠ id) : next.find? x = table.find? x :=
            find?_put_of_ne table _ distinct
          refine ⟨fun x flow' member live => ?_, fun x spared => ?_⟩
          · by_cases same : x = id
            · subst same
              obtain rfl : flow = flow' := by simpa [found] using live
              exact ((ih next).2 x (.inr dead)).trans here
            · refine (ih next).1 x flow' ((List.mem_cons.1 member).resolve_left same) ?_
              simpa only [live?, elsewhere x same] using live
          · have distinct : x ≠ id := by
              rintro rfl
              rcases spared with h | h
              · exact h (List.mem_cons_self ..)
              · simp [found] at h
            have spared' : x ∉ ids ∨ next.live? x = none := by
              refine spared.imp (fun h member => h (List.mem_cons_of_mem _ member)) fun h => ?_
              simpa only [live?, elsewhere x distinct] using h
            exact ((ih next).2 x spared').trans (elsewhere x distinct)

@[simp] theorem size_tearDown (ids : List FlowId) (table : FlowTable σ) :
    (tearDown parent caller tick ids table).2.phases.size = table.phases.size := by
  induction ids generalizing table with
  | nil => rfl
  | cons id ids ih =>
      unfold tearDown
      split
      · exact ih table
      · exact (ih _).trans (size_put ..)

@[simp] theorem completions_tearDown (ids : List FlowId) (table : FlowTable σ) :
    (tearDown parent caller tick ids table).2.completions = table.completions := by
  induction ids generalizing table with
  | nil => rfl
  | cons id ids ih =>
      unfold tearDown
      split
      · exact ih table
      · exact (ih _).trans (completions_put ..)

theorem mem_tree_iff :
    x ∈ root :: table.liveDescendants root ↔ ReflTransGen table.Awaits root x := by
  rw [List.mem_cons, mem_liveDescendants]
  constructor
  · rintro (rfl | ⟨-, path⟩)
    · exact .refl
    · exact path.to_reflTransGen
  · intro path
    by_cases same : x = root
    · exact .inl same
    · rcases reflTransGen_iff_eq_or_transGen.1 path with h | h
      · exact .inl h
      · exact .inr ⟨same, h⟩

theorem find?_cancelTree_of_reached {flow : Flow σ}
    (path : ReflTransGen table.Awaits root x) (live : table.live? x = some flow) :
    (table.cancelTree root parent caller tick).2.find? x =
      some (.cancelled (flow.cancellation parent caller tick)) :=
  (tearDown_spec parent caller tick _ table).1 x flow (mem_tree_iff.2 path) live

theorem find?_cancelTree_of_unreached (apart : ¬ ReflTransGen table.Awaits root x) :
    (table.cancelTree root parent caller tick).2.find? x = table.find? x :=
  (tearDown_spec parent caller tick _ table).2 x (.inl fun member => apart (mem_tree_iff.1 member))

/-- Between two phases of a flow nothing has happened, or the flow has been cancelled. -/
inductive Spares (tick : Tick) : Option (Phase σ) → Option (Phase σ) → Prop
  | same (phase : Option (Phase σ)) : Spares tick phase phase
  | active (flow : Flow σ) (parent : FlowId) (caller : Option Address) :
      Spares tick (some (.active flow)) (some (.cancelled (flow.cancellation parent caller tick)))
  | suspended (flow : Flow σ) (wait : Wait) (parent : FlowId) (caller : Option Address) :
      Spares tick (some (.suspended flow wait))
        (some (.cancelled (flow.cancellation parent caller tick)))

theorem Spares.trans {first second third : Option (Phase σ)} (h : Spares tick first second)
    (h' : Spares tick second third) : Spares tick first third := by
  cases h with
  | same => exact h'
  | active flow parent caller => cases h' with | same => exact .active flow parent caller
  | suspended flow wait parent caller =>
      cases h' with | same => exact .suspended flow wait parent caller

theorem spares_tearDown (parent : FlowId) (caller : Option Address) (tick : Tick)
    (ids : List FlowId) (table : FlowTable σ) (x : Nat) :
    Spares tick (table.find? x) ((tearDown parent caller tick ids table).2.find? x) := by
  have spec := tearDown_spec parent caller tick ids table
  by_cases member : x ∈ ids
  · cases live : table.live? x with
    | none => rw [spec.2 x (.inr live)]; exact .same _
    | some flow =>
        rw [spec.1 x flow member live]
        rcases live?_eq_some.1 live with found | ⟨wait, found⟩ <;> rw [found]
        · exact .active flow parent caller
        · exact .suspended flow wait parent caller
  · rw [spec.2 x (.inl member)]; exact .same _

theorem spares_cancelTree (table : FlowTable σ) (root : Nat) (parent : FlowId)
    (caller : Option Address) (tick : Tick) (x : Nat) :
    Spares tick (table.find? x) ((table.cancelTree root parent caller tick).2.find? x) :=
  spares_tearDown ..

def tearDownLosers (winner : Option FlowId) (parent : FlowId) (caller : Address) (tick : Tick) :
    List FlowId → FlowTable σ → List Cancellation × FlowTable σ
  | [], table => ([], table)
  | id :: ids, table =>
    if some id ≠ winner ∧ table.isLive id then
      let (first, table) := table.cancelTree id parent (some caller) tick
      let (rest, table) := tearDownLosers winner parent caller tick ids table
      (first ++ rest, table)
    else tearDownLosers winner parent caller tick ids table

/-- No cancellation fails: a loser is only cancelled if it is live when its turn comes. -/
theorem cancelLosers_eq (winner : Option FlowId) (parent : FlowId) (caller : Address) (tick : Tick)
    (ids : List FlowId) (table : FlowTable σ) :
    cancelLosers winner parent caller tick ids table =
      .ok (tearDownLosers winner parent caller tick ids table).1
        (tearDownLosers winner parent caller tick ids table).2 := by
  induction ids generalizing table with
  | nil => rfl
  | cons id ids ih =>
      have looked : (get : Engine (FlowTable σ) (FlowTable σ)) table = .ok table table := rfl
      rw [cancelLosers, Engine.bind_of_ok looked]
      dsimp only
      by_cases lost : some id ≠ winner ∧ table.isLive id = true
      · have first : cancel id parent (some caller) tick table =
            .ok (table.cancelTree id parent (some caller) tick).1
              (table.cancelTree id parent (some caller) tick).2 := by
          rw [cancel, if_pos lost.2]
        rw [if_pos lost, Engine.bind_of_ok first, Engine.bind_of_ok (ih _), tearDownLosers,
          if_pos lost]
        rfl
      · have first : (pure [] : Engine (FlowTable σ) (List Cancellation)) table = .ok [] table :=
          rfl
        rw [if_neg lost, Engine.bind_of_ok first, Engine.bind_of_ok (ih _), tearDownLosers,
          if_neg lost]
        rfl

theorem spares_tearDownLosers (winner : Option FlowId) (parent : FlowId) (caller : Address)
    (tick : Tick) (ids : List FlowId) (table : FlowTable σ) (x : Nat) :
    Spares tick (table.find? x)
      ((tearDownLosers winner parent caller tick ids table).2.find? x) := by
  induction ids generalizing table with
  | nil => exact .same _
  | cons id ids ih =>
      unfold tearDownLosers
      split
      · exact (spares_cancelTree table id parent (some caller) tick x).trans (ih _)
      · exact ih table

@[simp] theorem size_tearDownLosers {caller : Address} (winner : Option FlowId)
    (ids : List FlowId) (table : FlowTable σ) :
    (tearDownLosers winner parent caller tick ids table).2.phases.size = table.phases.size := by
  induction ids generalizing table with
  | nil => rfl
  | cons id ids ih =>
      unfold tearDownLosers
      split
      · exact (ih _).trans (size_tearDown ..)
      · exact ih table

@[simp] theorem completions_tearDownLosers {caller : Address} (winner : Option FlowId)
    (ids : List FlowId) (table : FlowTable σ) :
    (tearDownLosers winner parent caller tick ids table).2.completions = table.completions := by
  induction ids generalizing table with
  | nil => rfl
  | cons id ids ih =>
      unfold tearDownLosers
      split
      · exact (ih _).trans (completions_tearDown ..)
      · exact ih table

end Cadence.FlowTable
