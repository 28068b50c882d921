import Cadence.Proofs.Replay
import Cadence.Proofs.Simulation.Alongside
import Cadence.Proofs.Simulation.Probe
/-!
Collapsing effects never changes what a simulation does. A tick with effects is run beside one
without, in which every result surfaces; with effects each of these results either surfaces or is
held back.
-/

namespace Cadence

open Contract Engine

/-- A list split in two, both parts in their old order. -/
inductive Split {α : Type} : List α → List α → List α → Prop
  | nil : Split [] [] []
  | left {whole first second : List α} (a : α) (rest : Split whole first second) :
      Split (a :: whole) (a :: first) second
  | right {whole first second : List α} (a : α) (rest : Split whole first second) :
      Split (a :: whole) first (a :: second)

namespace Split

variable {α : Type} {whole whole' first first' second second' : List α}

theorem append (split : Split whole first second) (split' : Split whole' first' second') :
    Split (whole ++ whole') (first ++ first') (second ++ second') := by
  induction split with
  | nil => exact split'
  | left a rest ih => exact .left a ih
  | right a rest ih => exact .right a ih

theorem all_left (whole : List α) : Split whole whole [] := by
  induction whole with
  | nil => exact .nil
  | cons a whole ih => exact .left a ih

end Split

def Divided (tick : Tick) (before after : ReplayStore) (whole surfaced : List Report) : Prop :=
  ∃ held : List Report, after = held.foldl (·.hold tick) before ∧
    Split whole surfaced (held.map Report.unmark)

namespace Divided

variable {tick : Tick} {before middle after : ReplayStore}
  {whole whole' surfaced surfaced' : List Report}

theorem surface (tick : Tick) (store : ReplayStore) (results : List Report) :
    Divided tick store store results results :=
  ⟨[], rfl, .all_left results⟩

theorem hold (store : ReplayStore) {result : Report} (unmarked : result.unmark = result) :
    Divided tick store (store.hold tick result) [result] [] :=
  ⟨[result], rfl, by simpa [unmarked] using Split.right result .nil⟩

theorem append (earlier : Divided tick before middle whole surfaced)
    (later : Divided tick middle after whole' surfaced') :
    Divided tick before after (whole ++ whole') (surfaced ++ surfaced') := by
  obtain ⟨held, rfl, split⟩ := earlier
  obtain ⟨held', rfl, split'⟩ := later
  refine ⟨held ++ held', by rw [List.foldl_append], ?_⟩
  rw [List.map_append]
  exact split.append split'

end Divided

theorem Report.unmark_yielded {tick : Tick} {responses : List Response}
    (issued : Issued tick responses) (flow : FlowId) (name : String) :
    (Report.yielded flow name responses).unmark = .yielded flow name responses := by
  have same : responses.map (fun response => { response with isAutoPop := false }) = responses := by
    refine (List.map_congr_left fun response member => ?_).trans responses.map_id
    obtain ⟨-, unmarked⟩ := issued response member
    rw [← unmarked]
    rfl
  rw [unmark, same]

def Pairing.plain (effects : EffectTable) (tick : Tick) (before : ReplayStore) : Pairing where
  effects := effects
  effects' := {}
  heaps heap more := heap = more
  told surfaced whole replay _ := Divided tick before replay whole surfaced

theorem Pairing.plain_lasts (effects : EffectTable) (tick : Tick) (before : ReplayStore) :
    (plain effects tick before).Lasts tick where
  heaps := Heap.lasting_eq
  surface result told := told.append (.surface tick _ [result])
  route {surfaced whole replay _ heap _ responses internal internal'} flow name told same covers issued
      _ found := by
    have nothing : EffectTable.isInternal {} heap responses = .ok false := by
      simp [EffectTable.isInternal, EffectTable.isEmpty]
    obtain rfl := Except.ok.inj (nothing.symm.trans found)
    cases internal with
    | true => exact told.append (.hold _ (Report.unmark_yielded issued _ _))
    | false => exact told.append (.surface tick replay _)

namespace Simulation

variable {σ : Type}

def collapse (sim : Simulation σ) (effects : EffectTable) (replay : ReplayStore) : Simulation σ :=
  { sim with effects, replay }

variable [Coroutine σ] {right : Simulation σ}

theorem collapse_holds {contract : Contract σ} {lineage : Lineage}
    (holds : contract.Holds ⟨right, lineage⟩) (effects : EffectTable) (replay : ReplayStore) :
    contract.Holds ⟨right.collapse effects replay, lineage⟩ :=
  ⟨holds.orders, holds.unsettled, holds.heap, holds.tasks⟩

/-- Two simulations that differ at most in their effects and in what these hold back. -/
def AsideFromEffects (left right : Simulation σ) : Prop :=
  left.collapse {} {} = right.collapse {} {}

theorem tick_beside_plain (limits : Limits) (operations : List (Simulation.Operation σ))
    (effects : EffectTable) (replay replay' : ReplayStore) :
    Agree (fun report plain left right => left.AsideFromEffects right ∧ report.tick = plain.tick ∧
        Divided plain.tick replay left.replay plain.reports report.reports)
      AsideFromEffects (Simulation.tick ((session limits operations).collapse effects replay))
      (Simulation.tick ((session limits operations).collapse {} replay')) := by
  obtain ⟨lineage, holds⟩ := session_kept limits operations
  have aside {left right : Simulation σ} {surfaced whole : List Report} {tick : Tick}
      (beside : Beside (.plain effects tick replay) surfaced whole left right) :
      left.AsideFromEffects right := by
    rw [beside.same, show left.heap = right.heap from beside.heaps.symm]
    rfl
  refine (coupled_tick ((session limits operations).collapse effects replay)
    ((session limits operations).collapse {} replay') (Pairing.plain_lasts effects _ replay)
    ⟨rfl, rfl, rfl, .surface _ replay []⟩ ⟨lineage, collapse_holds holds {} replay'⟩).imp ?_ ?_
  · rintro report plain left right ⟨told, told', beside⟩
    exact ⟨aside beside, told.trans told'.symm, told' ▸ beside.told⟩
  · rintro left right ⟨_, _, beside⟩
    exact aside beside

/--
Effects are transparent. With whatever effects, a tick succeeds or fails alike and leaves the same
behind; what surfaces and what is held back are a split of what surfaces without effects.
-/
theorem effects_are_transparent (limits : Limits) (operations : List (Simulation.Operation σ))
    (effects effects' : EffectTable) (replay replay' : ReplayStore) :
    let sim := session limits operations
    Agree (fun _ _ => AsideFromEffects) AsideFromEffects
        (Simulation.tick (sim.collapse effects replay))
        (Simulation.tick (sim.collapse effects' replay')) ∧
      Agree (fun report plain after _ => report.tick = plain.tick ∧ ∃ held,
          after.replay.results.map Report.unmark = replay.results.map Report.unmark ++ held ∧
            Split plain.reports report.reports held) AsideFromEffects
        (Simulation.tick (sim.collapse effects replay))
        (Simulation.tick (sim.collapse {} replay')) := by
  intro sim
  have plain := tick_beside_plain limits operations effects replay replay'
  have plain' := tick_beside_plain limits operations effects' replay' replay'
  constructor
  · refine (plain.common plain').imp ?_ ?_
    · rintro _ _ _ _ ⟨_, _, ⟨aside, -⟩, aside', -⟩
      exact aside.trans aside'.symm
    · rintro _ _ ⟨_, aside, aside'⟩
      exact aside.trans aside'.symm
  · refine plain.imp ?_ fun _ _ aside => aside
    rintro report plain after _ ⟨-, same, held, stored, split⟩
    refine ⟨same, held.map Report.unmark, ?_, split⟩
    rw [stored, ReplayStore.results_foldl_hold]

end Simulation

end Cadence
