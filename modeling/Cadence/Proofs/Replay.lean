import Cadence.Effect
/-!
What the store of held-back results contains: each result that was held back, in the order in which
they were, marked and otherwise unchanged.
-/

namespace Cadence

def Report.unmark : Report → Report
  | .yielded flow name responses =>
    .yielded flow name (responses.map fun response => { response with isAutoPop := false })
  | .constructed flow name value cancelled => .constructed flow name value cancelled

@[simp] theorem Report.unmark_markAutoPop (report : Report) :
    report.markAutoPop.unmark = report.unmark := by
  cases report <;> simp [markAutoPop, unmark]

@[simp] theorem Report.markAutoPop_markAutoPop (report : Report) :
    report.markAutoPop.markAutoPop = report.markAutoPop := by
  cases report <;> simp [markAutoPop]

namespace ReplayStore

def results (store : ReplayStore) : List Report :=
  store.held.flatMap TickReport.reports

def since (store earlier : ReplayStore) : List Report :=
  (store.results.drop earlier.results.length).map Report.unmark

variable {store : ReplayStore} {tick : Tick} {result : Report} {held : List Report}

theorem reports_mark (report : TickReport) :
    (mark report).reports.map Report.unmark = report.reports.map Report.unmark := by
  simp [mark, Function.comp_def]

theorem results_hold (store : ReplayStore) (tick : Tick) (result : Report) :
    (store.hold tick result).results.map Report.unmark =
      store.results.map Report.unmark ++ [result.unmark] := by
  unfold hold
  cases held : store.held.getLast? with
  | none =>
      have nothing : store.held = [] := List.getLast?_eq_none_iff.1 held
      simp [results, nothing, reports_mark]
  | some last =>
      obtain ⟨earlier, split⟩ : ∃ earlier, store.held = earlier ++ [last] :=
        List.getLast?_eq_some_iff.1 held
      simp only
      split <;> simp [results, split, reports_mark]

theorem results_foldl_hold (held : List Report) (store : ReplayStore) (tick : Tick) :
    (held.foldl (·.hold tick) store).results.map Report.unmark =
      store.results.map Report.unmark ++ held.map Report.unmark := by
  induction held generalizing store with
  | nil => simp
  | cons result held ih => rw [List.foldl_cons, ih, results_hold]; simp

/-- The store holds these results, with one report for each tick up to `now` that has any. -/
structure Orderly (store : ReplayStore) (now : Tick) (buffered : List Report) : Prop where
  filled : ∀ report ∈ store.held, report.reports ≠ []
  rising : (store.held.map TickReport.tick).Pairwise (· < ·)
  bounded : ∀ report ∈ store.held, report.tick ≤ now
  results : store.results = buffered.map Report.markAutoPop

variable {now : Tick} {buffered : List Report}

theorem orderly_empty (now : Tick) : Orderly {} now [] where
  filled := by simp
  rising := .nil
  bounded := by simp
  results := rfl

theorem Orderly.mono (orderly : store.Orderly now buffered) {later : Tick} (after : now ≤ later) :
    store.Orderly later buffered :=
  { orderly with bounded := fun report member => Nat.le_trans (orderly.bounded report member) after }

theorem Orderly.hold_eq (orderly : store.Orderly now buffered) (result : Report) :
    ∃ earlier reports, (store.hold now result).held =
        earlier ++ [mark { tick := now, reports := reports ++ [result] }] ∧
      earlier <+: store.held ∧ (∀ report ∈ earlier, report.tick < now) ∧
      store.results = earlier.flatMap TickReport.reports ++ reports := by
  unfold ReplayStore.hold ReplayStore.results
  cases held : store.held.getLast? with
  | none =>
      have nothing : store.held = [] := List.getLast?_eq_none_iff.1 held
      exact ⟨[], [], rfl, by simp, by simp, by simp [nothing]⟩
  | some last =>
      obtain ⟨earlier, split⟩ : ∃ earlier, store.held = earlier ++ [last] :=
        List.getLast?_eq_some_iff.1 held
      have bound : last.tick ≤ now := orderly.bounded last (by simp [split])
      have rising := orderly.rising
      rw [split, List.map_append, List.pairwise_append] at rising
      have before : ∀ report ∈ earlier, report.tick < last.tick := fun report member =>
        rising.2.2 _ (List.mem_map_of_mem member) _ (List.mem_singleton_self _)
      simp only [split]
      by_cases same : last.tick = now
      · rw [if_pos same, List.dropLast_concat, ← same]
        exact ⟨earlier, last.reports, rfl, List.prefix_append .., before, by simp⟩
      · rw [if_neg same]
        refine ⟨earlier ++ [last], [], rfl, List.prefix_rfl, ?_, by simp⟩
        intro report member
        cases List.mem_append.1 member with
        | inl member => exact Nat.lt_of_lt_of_le (before report member) bound
        | inr member =>
            obtain rfl := List.mem_singleton.1 member
            exact Nat.lt_of_le_of_ne bound same

theorem Orderly.hold (orderly : store.Orderly now buffered) (result : Report) :
    (store.hold now result).Orderly now (buffered ++ [result]) := by
  obtain ⟨earlier, reports, held, part, before, split⟩ := orderly.hold_eq result
  have whole := orderly.results.symm.trans split
  have marked : reports.map Report.markAutoPop = reports := by
    obtain ⟨first, second, -, -, marked⟩ := List.map_eq_append_iff.1 whole
    simp [← marked]
  refine ⟨?_, ?_, ?_, ?_⟩
  · rw [held, List.forall_mem_append]
    exact ⟨fun report member => orderly.filled report (part.subset member), by simp [mark]⟩
  · rw [held, List.map_append, List.pairwise_append]
    refine ⟨orderly.rising.sublist (part.sublist.map _), List.pairwise_singleton .., ?_⟩
    simpa [mark] using before
  · rw [held, List.forall_mem_append]
    exact ⟨fun report member => orderly.bounded report (part.subset member), by simp [mark]⟩
  · rw [ReplayStore.results, held, List.map_append, whole]
    simp [mark, marked]

theorem Orderly.foldl_hold (orderly : store.Orderly now buffered) (results : List Report) :
    (results.foldl (·.hold now) store).Orderly now (buffered ++ results) := by
  induction results generalizing store buffered with
  | nil => simpa using orderly
  | cons result results ih =>
      rw [List.foldl_cons, List.append_cons]
      exact ih (orderly.hold result)

end ReplayStore

end Cadence
